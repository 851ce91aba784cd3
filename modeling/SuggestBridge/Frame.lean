import SuggestBridge.Text.Utf8

/-!
# Frames

A message travels as a frame: six lower-case hexadecimal digits that count the bytes of the
payload, then the payload in UTF-8, with nothing in between or behind. A buffer collects the bytes
that arrive, however they are cut, and gives up the payloads of the frames that are complete.
-/

namespace SuggestBridge.Frame

/-- The number of bytes of a header. -/
def headerSize : Nat := 6

/-- The largest number of bytes of a payload. -/
def maxPayload : Nat := Nat.pow 16 headerSize - 1

/-- Why a payload cannot be framed. -/
inductive EncodeError where
  | surrogates (run : Utf8.SurrogateRun)
  | tooLarge (size : Nat)
  deriving DecidableEq

/-- The wording of a refusal to frame. -/
def EncodeError.message : EncodeError → Text
  | .surrogates run => run.message
  | .tooLarge size => "Payload too large: " ++ Text.ofNat size ++ " bytes"

/-- A header that is not hexadecimal. -/
structure HeaderError where
  header : Bytes
  deriving DecidableEq

/-- The wording of a corrupt header. -/
def HeaderError.message (e : HeaderError) : Text :=
  "Invalid frame header: " ++ Text.quotedBytes e.header

/-- The digit of a value below 16. -/
def hexByte (n : Nat) : UInt8 := (if n < 10 then 0x30 + n else 0x61 + n - 10).toUInt8

/-- The value of a hexadecimal digit of either case. -/
def hexValue? (b : UInt8) : Option Nat := (CodePoint.ofNat b.toNat).hexValue?

/-- A number in a given count of hexadecimal digits. -/
def hexBytes : Nat → Nat → Bytes
  | 0, _ => []
  | width + 1, n => hexBytes width (n / 16) ++ [hexByte (n % 16)]

/-- The header of a payload of the given size. -/
def header (size : Nat) : Except EncodeError Bytes :=
  if size ≤ maxPayload then .ok (hexBytes headerSize size) else .error (.tooLarge size)

/-- The number that hexadecimal digits stand for. -/
def readHex (digits : Bytes) : Option Nat :=
  digits.foldlM (fun n b => (hexValue? b).map (16 * n + ·)) 0

/-- The frame of a payload. -/
def encode (payload : Text) : Except EncodeError Bytes :=
  match Utf8.encode payload with
  | .error run => .error (.surrogates run)
  | .ok data => (header data.length).map (· ++ data)

/-- The header of a payload that repeats a text, and the number of bytes of the whole frame. -/
def measure (unit : Text) (times : Nat) : Except EncodeError (Bytes × Nat) :=
  match Utf8.findSurrogates 0 unit with
  | some run =>
    let whole := unit.all CodePoint.isSurrogate
    .error (.surrogates (if whole then { run with last := unit.length * times - 1 } else run))
  | none =>
    let size := Utf8.size unit * times
    (header size).map fun h => (h, headerSize + size)

/-- What a buffer holds at its front. -/
inductive Front where
  /-- The bytes of the first frame have not all arrived. -/
  | incomplete
  /-- A complete frame: its payload and the bytes behind it. -/
  | complete (payload : Text) (rest : Bytes)
  /-- Six bytes that are no header. -/
  | corrupt (e : HeaderError)
  deriving DecidableEq

/-- Looks at the front of a buffer. -/
def front (buffer : Bytes) : Front :=
  let head := buffer.take headerSize
  if head.length < headerSize then .incomplete
  else
    match readHex head with
    | none => .corrupt ⟨head⟩
    | some size =>
      let body := (buffer.drop headerSize).take size
      if body.length < size then .incomplete
      else .complete (Utf8.decode body) (buffer.drop (headerSize + size))

theorem length_rest_lt {buffer rest : Bytes} {payload : Text}
    (h : front buffer = .complete payload rest) : rest.length < buffer.length := by
  simp only [front] at h
  split at h
  · cases h
  · split at h
    · cases h
    · split at h
      · cases h
      · injection h with _ h
        subst h
        simp only [List.length_take, List.length_drop, headerSize] at *
        omega

/-- The outcome of adding bytes to a buffer: the payloads that became complete, or a corrupt
header, and the bytes that stay. After a corrupt header the payloads before it are lost. -/
structure Fed where
  payloads : Except HeaderError (List Text)
  buffer : Bytes

/-- Takes the complete frames from the front of a buffer. -/
def drain (buffer : Bytes) : Fed :=
  match _h : front buffer with
  | .incomplete => ⟨.ok [], buffer⟩
  | .corrupt e => ⟨.error e, buffer⟩
  | .complete payload rest =>
    let fed := drain rest
    ⟨fed.payloads.map (payload :: ·), fed.buffer⟩
termination_by buffer.length
decreasing_by exact length_rest_lt _h

/-- Adds bytes to a buffer and takes the frames that became complete. -/
def feed (buffer data : Bytes) : Fed := drain (buffer ++ data)

end SuggestBridge.Frame
