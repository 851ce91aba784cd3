import SuggestBridge.Proofs.Frame.Reassembly

/-!
# A corrupt header is permanent

Six bytes that are not all hexadecimal digits are no header, and nothing takes them off the front of
a buffer.  The buffer therefore loses no position: it is the stream without the whole frames before
the corrupt header, and every chunk that is added later fails for the same header, gives no payload
and only makes the buffer longer (`feed_eq_error_iff_stuck`).
-/

namespace SuggestBridge.Frame

/-! ## Headers -/

/-- A hexadecimal digit of either case, as a byte. -/
def IsHexDigit (b : UInt8) : Prop :=
  (0x30 ≤ b.toNat ∧ b.toNat ≤ 0x39) ∨ (0x61 ≤ b.toNat ∧ b.toNat ≤ 0x66) ∨
    (0x41 ≤ b.toNat ∧ b.toNat ≤ 0x46)

instance (b : UInt8) : Decidable (IsHexDigit b) := by
  unfold IsHexDigit
  infer_instance

lemma hexValue?_eq_none_iff {b : UInt8} : hexValue? b = none ↔ ¬IsHexDigit b := by
  have hval : (CodePoint.ofNat b.toNat).val = b.toNat := by
    have hbyte := b.toNat_lt
    rw [CodePoint.ofNat, dif_pos (by omega)]
  rw [hexValue?, CodePoint.hexValue?, hval, IsHexDigit]
  split_ifs <;> simp_all

/-- Bytes stand for a number unless one of them is no digit. -/
lemma readHex_eq_none_iff {digits : Bytes} : readHex digits = none ↔ ∃ b ∈ digits, ¬IsHexDigit b := by
  have hfrom : ∀ n : Nat, digits.foldlM (fun n b => (hexValue? b).map (16 * n + ·)) n = none ↔
      ∃ b ∈ digits, ¬IsHexDigit b := by
    induction digits with
    | nil => simp
    | cons b digits ih =>
      intro n
      rw [List.foldlM_cons]
      cases hb : hexValue? b with
      | none =>
        have hbad := hexValue?_eq_none_iff.1 hb
        simp [hbad]
      | some d =>
        have hgood : IsHexDigit b := by
          by_contra hbad
          simp [hexValue?_eq_none_iff.2 hbad] at hb
        simpa [hgood] using ih (16 * n + d)
  exact hfrom 0

/-! ## Feeding on -/

/-- What a buffer holds when chunks were added one after the other, whether they failed or not. -/
def fedBuffer (buffer : Bytes) (chunks : List Bytes) : Bytes :=
  chunks.foldl (fun b chunk => (feed b chunk).buffer) buffer

/-- What a corrupt header leaves of a stream, now and for ever. -/
structure Stuck (stream : Bytes) (e : HeaderError) (rest : Bytes) : Prop where
  /-- Whole frames were taken from the front, and nothing else was changed. -/
  kept : ∃ ws, stream = bytesOf ws ++ rest
  /-- The header of the error stands at the front: six bytes, not all of them digits. -/
  header : ∃ tail, rest = e.header ++ tail
  length : e.header.length = headerSize
  noDigit : ∃ b ∈ e.header, ¬IsHexDigit b
  /-- Whatever chunks are added, one more fails in the same way and is kept as it is. -/
  stays : ∀ chunks chunk, fedBuffer rest chunks = rest ++ chunks.flatten ∧
    feed (fedBuffer rest chunks) chunk = ⟨.error e, fedBuffer rest chunks ++ chunk⟩

lemma feed_of_corrupt {buffer : Bytes} {e : HeaderError} (h : front buffer = .corrupt e)
    (chunk : Bytes) : feed buffer chunk = ⟨.error e, buffer ++ chunk⟩ :=
  drain_of_corrupt (front_append_of_corrupt h)

/-- By induction on the chunks: each leaves the corrupt header where it is. -/
lemma fedBuffer_of_corrupt {buffer : Bytes} {e : HeaderError} (h : front buffer = .corrupt e)
    (chunks : List Bytes) : fedBuffer buffer chunks = buffer ++ chunks.flatten := by
  induction chunks generalizing buffer with
  | nil => exact (List.append_nil buffer).symm
  | cons chunk chunks ih =>
    rw [fedBuffer, List.foldl_cons, ← fedBuffer, feed_of_corrupt h, ih (front_append_of_corrupt h),
      List.flatten_cons, List.append_assoc]

/-- **A corrupt header is permanent.**  For every buffer and every chunk: adding the chunk fails
exactly where a corrupt header stands behind whole frames.  These are taken from the buffer and
nothing else is; the bytes of the header stand at its front; and all that is added later, in any
chunks, fails for the same header and is appended. -/
theorem feed_eq_error_iff_stuck (buffer data : Bytes) (e : HeaderError) (rest : Bytes) :
    feed buffer data = ⟨.error e, rest⟩ ↔ Stuck (buffer ++ data) e rest := by
  constructor
  · intro h
    obtain ⟨ws, hbytes, hfront⟩ := drain_eq_error_iff.1 h
    obtain ⟨tail, hrest, hlength, hnone⟩ := front_eq_corrupt_iff.1 hfront
    exact
      { kept := ⟨ws, hbytes⟩
        header := ⟨tail, hrest⟩
        length := hlength
        noDigit := readHex_eq_none_iff.1 hnone
        stays := fun chunks chunk => by
          have hbuffer := fedBuffer_of_corrupt hfront chunks
          refine ⟨hbuffer, ?_⟩
          rw [hbuffer]
          exact feed_of_corrupt (front_append_of_corrupt hfront) chunk }
  · intro h
    obtain ⟨ws, hbytes⟩ := h.kept
    obtain ⟨tail, hrest⟩ := h.header
    have hfront : front rest = .corrupt e :=
      front_eq_corrupt_iff.2 ⟨tail, hrest, h.length, readHex_eq_none_iff.2 h.noDigit⟩
    exact drain_eq_error_iff.2 ⟨ws, hbytes, hfront⟩

end SuggestBridge.Frame
