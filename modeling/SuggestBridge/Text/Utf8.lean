import SuggestBridge.Text.Quoted

/-!
# UTF-8

Encoding refuses surrogates and reports the first run of them. Decoding reads each maximal part that
is no beginning of a well-formed sequence as U+FFFD; strict decoding reports the first such part.
-/

namespace SuggestBridge.Utf8

/-- A run of surrogates that cannot be encoded. -/
structure SurrogateRun where
  /-- The first surrogate of the run. -/
  surrogate : CodePoint
  /-- The position of the first surrogate. -/
  start : Nat
  /-- The position of the last surrogate. -/
  last : Nat
  deriving DecidableEq

/-- The wording of the refusal to encode a surrogate. -/
def SurrogateRun.message (run : SurrogateRun) : Text :=
  if run.start = run.last then
    "'utf-8' codec can't encode character '" ++ Text.quotedCodePoint '\'' run.surrogate ++
      "' in position " ++ Text.ofNat run.start ++ ": surrogates not allowed"
  else
    "'utf-8' codec can't encode characters in position " ++ Text.ofNat run.start ++ "-" ++
      Text.ofNat run.last ++ ": surrogates not allowed"

/-- The bytes of one code point, by the length of its number. -/
def encodeCodePoint (c : CodePoint) : Bytes :=
  let n := c.val
  if n < 0x80 then [n.toUInt8]
  else if n < 0x800 then [(0xC0 + n / 0x40).toUInt8, (0x80 + n % 0x40).toUInt8]
  else if n < 0x10000 then
    [(0xE0 + n / 0x1000).toUInt8, (0x80 + n / 0x40 % 0x40).toUInt8, (0x80 + n % 0x40).toUInt8]
  else
    [(0xF0 + n / 0x40000).toUInt8, (0x80 + n / 0x1000 % 0x40).toUInt8,
      (0x80 + n / 0x40 % 0x40).toUInt8, (0x80 + n % 0x40).toUInt8]

/-- The first run of surrogates of a text that begins at a position. -/
def findSurrogates (position : Nat) : Text → Option SurrogateRun
  | [] => none
  | c :: r =>
    if c.isSurrogate then
      some ⟨c, position, position + (r.takeWhile CodePoint.isSurrogate).length⟩
    else findSurrogates (position + 1) r

/-- The bytes of a text, or its first run of surrogates. -/
def encode (t : Text) : Except SurrogateRun Bytes :=
  match findSurrogates 0 t with
  | some run => .error run
  | none => .ok (t.flatMap encodeCodePoint)

/-- The number of bytes of a text without surrogates. -/
def size (t : Text) : Nat :=
  t.foldl (fun n c =>
    n + if c.val < 0x80 then 1 else if c.val < 0x800 then 2 else if c.val < 0x10000 then 3 else 4) 0

/-- What may follow a lead byte: how many bytes are still missing, and the range of the next. -/
structure Expectation where
  missing : Nat
  low : Nat
  high : Nat
  deriving DecidableEq

/-- What a lead byte of a longer sequence asks for, with its share of the code point. -/
def lead? (b : Nat) : Option (Nat × Expectation) :=
  if b < 0xC2 then none
  else if b ≤ 0xDF then some (b - 0xC0, ⟨1, 0x80, 0xBF⟩)
  else if b = 0xE0 then some (0, ⟨2, 0xA0, 0xBF⟩)
  else if b = 0xED then some (0xD, ⟨2, 0x80, 0x9F⟩)
  else if b ≤ 0xEF then some (b - 0xE0, ⟨2, 0x80, 0xBF⟩)
  else if b = 0xF0 then some (0, ⟨3, 0x90, 0xBF⟩)
  else if b ≤ 0xF3 then some (b - 0xF0, ⟨3, 0x80, 0xBF⟩)
  else if b = 0xF4 then some (4, ⟨3, 0x80, 0x8F⟩)
  else none

/-- The code point that stands for malformed bytes. -/
def replacement : CodePoint := CodePoint.ofNat 0xFFFD

/-- Reads a byte where a new sequence may begin; gives the code point read, if it is complete or
malformed, and what is expected next. -/
def start (b : UInt8) : Text × Option (Nat × Expectation) :=
  if b.toNat < 0x80 then ([CodePoint.ofNat b.toNat], none)
  else match lead? b.toNat with
    | some pending => ([], some pending)
    | none => ([replacement], none)

/-- Reads bytes, given the sequence that has begun. A byte outside the expected range ends that
sequence, which then counts as one malformed part, and is read anew. -/
def decodeFrom (pending : Option (Nat × Expectation)) : Bytes → Text
  | [] => if pending.isSome then [replacement] else []
  | b :: r =>
    match pending with
    | none => let s := start b; s.1 ++ decodeFrom s.2 r
    | some (acc, e) =>
      if e.low ≤ b.toNat ∧ b.toNat ≤ e.high then
        let acc := acc * 0x40 + (b.toNat - 0x80)
        if e.missing = 1 then CodePoint.ofNat acc :: decodeFrom none r
        else decodeFrom (some (acc, ⟨e.missing - 1, 0x80, 0xBF⟩)) r
      else let s := start b; replacement :: (s.1 ++ decodeFrom s.2 r)

/-- The text of a byte sequence, malformed parts replaced by U+FFFD. -/
def decode (bs : Bytes) : Text := decodeFrom none bs

/-- Why a byte sequence is malformed. -/
inductive Malformation where
  /-- No sequence begins with the byte. -/
  | start
  /-- A sequence is cut off by a byte that cannot go on with it. -/
  | continuation
  /-- A sequence is cut off by the end. -/
  | ending
  deriving DecidableEq

/-- The wording of a malformation. -/
def Malformation.message : Malformation → Text
  | .start => "invalid start byte"
  | .continuation => "invalid continuation byte"
  | .ending => "unexpected end of data"

/-- The first malformed part of a byte sequence. -/
structure Undecodable where
  /-- The first byte of the part. -/
  byte : UInt8
  /-- The position of the first byte. -/
  first : Nat
  /-- The position of the last byte. -/
  last : Nat
  cause : Malformation
  deriving DecidableEq

/-- The wording of the refusal to decode a byte sequence. -/
def Undecodable.message (e : Undecodable) : Text :=
  let place : Text :=
    if e.first = e.last then
      "byte 0x" ++ Text.hexPadded 2 e.byte.toNat ++ " in position " ++ Text.ofNat e.first
    else "bytes in position " ++ Text.ofNat e.first ++ "-" ++ Text.ofNat e.last
  "'utf-8' codec can't decode " ++ place ++ ": " ++ e.cause.message

/-- The first malformed part of bytes that begin at a position, given the sequence that has begun:
its first byte, the position of that, and what is expected. -/
def findMalformed (position : Nat) (pending : Option (UInt8 × Nat × Expectation)) :
    Bytes → Option Undecodable
  | [] => pending.map fun p => ⟨p.1, p.2.1, position - 1, .ending⟩
  | b :: r =>
    match pending with
    | none =>
      if b.toNat < 0x80 then findMalformed (position + 1) none r
      else match lead? b.toNat with
        | some (_, e) => findMalformed (position + 1) (some (b, position, e)) r
        | none => some ⟨b, position, position, .start⟩
    | some (byte, first, e) =>
      if e.low ≤ b.toNat ∧ b.toNat ≤ e.high then
        if e.missing = 1 then findMalformed (position + 1) none r
        else findMalformed (position + 1) (some (byte, first, ⟨e.missing - 1, 0x80, 0xBF⟩)) r
      else some ⟨byte, first, position - 1, .continuation⟩

/-- The text of a byte sequence, or its first malformed part. -/
def decodeStrictly (bs : Bytes) : Except Undecodable Text :=
  match findMalformed 0 none bs with
  | some e => .error e
  | none => .ok (decode bs)

end SuggestBridge.Utf8
