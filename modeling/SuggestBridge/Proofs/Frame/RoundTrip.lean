import SuggestBridge.Proofs.Frame.Reassembly
import SuggestBridge.Proofs.Text.Utf8
import Mathlib.Data.List.Induction

/-!
# Reading back a frame

The header of a frame counts the bytes behind it, and these are the payload in UTF-8.  So whatever
payload can be framed at all, its frame is one whole frame with that payload
(`exists_whole_of_encode`).

The other way round, a whole frame need not be the frame of its payload: its header may be in upper
case, and decoding its body may have replaced something.  Where neither is so it is
(`encode_payload_iff`).  `roundTrips` puts both directions together.
-/

namespace SuggestBridge.Frame

/-! ## Hexadecimal digits -/

lemma length_hexBytes (width n : Nat) : (hexBytes width n).length = width := by
  induction width generalizing n with
  | zero => rfl
  | succ width ih => rw [hexBytes, List.length_append, ih, List.length_singleton]

lemma hexValue?_hexByte {n : Nat} (h : n < 16) : hexValue? (hexByte n) = some n := by
  have hall : ∀ n < 16, hexValue? (hexByte n) = some n := by decide
  exact hall n h

lemma readHex_append_singleton (digits : Bytes) (b : UInt8) :
    readHex (digits ++ [b]) =
      (readHex digits).bind fun n => (hexValue? b).map (16 * n + ·) := by
  rw [readHex, List.foldlM_append]
  cases hdigits : readHex digits with
  | none =>
    rw [readHex] at hdigits
    rw [hdigits]
    rfl
  | some n =>
    rw [readHex] at hdigits
    rw [hdigits]
    simp [List.foldlM]

/-- As many digits as a number needs are read back as that number. -/
lemma readHex_hexBytes {width n : Nat} (h : n < 16 ^ width) :
    readHex (hexBytes width n) = some n := by
  induction width generalizing n with
  | zero =>
    have hzero : n = 0 := Nat.lt_one_iff.1 h
    rw [hzero]
    rfl
  | succ width ih =>
    have hhigh : n / 16 < 16 ^ width := by
      rw [Nat.pow_succ] at h
      exact Nat.div_lt_of_lt_mul (Nat.mul_comm _ _ ▸ h)
    rw [hexBytes, readHex_append_singleton, ih hhigh, Option.bind_some,
      hexValue?_hexByte (Nat.mod_lt n (by decide)), Option.map_some, Nat.div_add_mod]

/-- Bytes without an upper-case letter. -/
def InLowerCase (bs : Bytes) : Prop := ∀ b ∈ bs, ¬(0x41 ≤ b.toNat ∧ b.toNat ≤ 0x5A)

lemma inLowerCase_hexBytes (width n : Nat) : InLowerCase (hexBytes width n) := by
  have hall : ∀ n < 16, ¬(0x41 ≤ (hexByte n).toNat ∧ (hexByte n).toNat ≤ 0x5A) := by decide
  induction width generalizing n with
  | zero => exact fun b hb => absurd hb List.not_mem_nil
  | succ width ih =>
    intro b hb
    rcases List.mem_append.1 hb with hb | hb
    · exact ih _ b hb
    · rw [List.mem_singleton.1 hb]
      exact hall _ (Nat.mod_lt n (by decide))

lemma hexByte_of_hexValue? {b : UInt8} {v : Nat} (h : hexValue? b = some v) :
    v < 16 ∧ (¬(0x41 ≤ b.toNat ∧ b.toNat ≤ 0x5A) → hexByte v = b) := by
  have hbyte : b.toNat < 0x100 := b.toNat_lt
  have hval : (CodePoint.ofNat b.toNat).val = b.toNat := by
    rw [CodePoint.ofNat, dif_pos (by omega)]
  simp only [hexValue?, CodePoint.hexValue?, hval] at h
  split at h
  · cases h
    exact ⟨by omega, fun _ => Utf8.toUInt8_eq (by rw [if_pos] <;> omega)⟩
  · split at h
    · cases h
      exact ⟨by omega, fun _ => Utf8.toUInt8_eq (by rw [if_neg] <;> omega)⟩
    · split at h
      · cases h
        exact ⟨by omega, fun hlower => by omega⟩
      · cases h

/-- So many digits stand for a number of that many digits, and in lower case they are its form. -/
lemma hexBytes_of_readHex {digits : Bytes} {n : Nat} (h : readHex digits = some n) :
    n < 16 ^ digits.length ∧ (InLowerCase digits → hexBytes digits.length n = digits) := by
  induction digits using List.reverseRecOn generalizing n with
  | nil =>
    cases h
    exact ⟨Nat.one_pos, fun _ => rfl⟩
  | append_singleton digits b ih =>
    rw [readHex_append_singleton] at h
    obtain ⟨high, hhigh, hlast⟩ := Option.bind_eq_some_iff.1 h
    obtain ⟨v, hv, rfl⟩ := Option.map_eq_some_iff.1 hlast
    obtain ⟨hlt, hbyte⟩ := hexByte_of_hexValue? hv
    obtain ⟨hbound, hform⟩ := ih hhigh
    have hdiv : (16 * high + v) / 16 = high := by omega
    have hmod : (16 * high + v) % 16 = v := by omega
    rw [List.length_append, List.length_singleton, Nat.pow_succ]
    refine ⟨by omega, fun hlower => ?_⟩
    rw [hexBytes, hdiv, hmod, hbyte (hlower b (by simp)),
      hform fun d hd => hlower d (List.mem_append_left _ hd)]

/-! ## Frames -/

/-- The frame of a payload is one whole frame with that payload. -/
theorem exists_whole_of_encode {payload : Text} {frame : Bytes}
    (h : encode payload = .ok frame) :
    ∃ w : Whole, w.bytes = frame ∧ w.payload = payload := by
  unfold encode at h
  split at h
  · cases h
  · next data hdata =>
    obtain ⟨head, hhead, rfl⟩ := Result.map_eq_ok_iff.1 h
    rw [header] at hhead
    split at hhead
    · next hsize =>
      cases hhead
      have hlt : data.length < 16 ^ headerSize := Nat.lt_of_le_of_lt hsize (by decide)
      exact ⟨⟨hexBytes headerSize data.length, data, length_hexBytes _ _, readHex_hexBytes hlt⟩,
        rfl, Utf8.decode_of_encode hdata⟩
    · cases hhead

/-- What can be framed: a text without surrogates, up to a number of bytes. -/
lemma encode_eq_ok_iff {payload : Text} {frame : Bytes} :
    encode payload = .ok frame ↔ ∃ data, Utf8.encode payload = .ok data ∧
      data.length ≤ maxPayload ∧ frame = hexBytes headerSize data.length ++ data := by
  unfold encode header
  cases Utf8.encode payload with
  | error run => simp
  | ok data =>
    dsimp only
    split
    · next hsize => simp [Except.map, hsize, eq_comm]
    · next hsize => simp [Except.map, hsize]

/-- A whole frame is the frame of its payload exactly where its header is in lower case and its body
is well-formed. -/
theorem encode_payload_iff (w : Whole) :
    encode w.payload = .ok w.bytes ↔ InLowerCase w.head ∧ Utf8.WellFormed w.body := by
  constructor
  · intro h
    obtain ⟨data, hdata, -, hbytes⟩ := encode_eq_ok_iff.1 h
    obtain ⟨hhead, hbody⟩ := List.append_inj hbytes (by rw [w.length_head, length_hexBytes])
    refine ⟨hhead ▸ inLowerCase_hexBytes _ _, Utf8.wellFormed_iff_exists_encode.2 ⟨w.payload, ?_⟩⟩
    rw [hbody, hdata]
  · rintro ⟨hlower, hbody⟩
    obtain ⟨hbound, hform⟩ := hexBytes_of_readHex w.readHex_head
    rw [w.length_head] at hbound hform
    have hhead : hexBytes headerSize w.body.length = w.head := hform hlower
    have hsize : w.body.length ≤ maxPayload := Nat.le_sub_one_of_lt hbound
    exact encode_eq_ok_iff.2 ⟨w.body, Utf8.encode_decode_iff.2 hbody, hsize, by rw [hhead]; rfl⟩

/-- Before all of a frame has arrived there is nothing to read. -/
lemma front_of_proper_prefix (w : Whole) {part : Bytes} (h : part <+: w.bytes)
    (hne : part ≠ w.bytes) : front part = .incomplete := by
  obtain ⟨more, hmore⟩ := h
  have hwhole : front (part ++ more) = .complete w.payload [] := by
    rw [hmore, ← List.append_nil w.bytes, front_bytes_append]
  cases hfront : front part with
  | incomplete => rfl
  | corrupt e =>
    rw [front_append_of_corrupt hfront] at hwhole
    cases hwhole
  | complete payload rest =>
    obtain ⟨v, rfl, -⟩ := front_eq_complete_iff.1 hfront
    rw [List.append_assoc, front_bytes_append] at hwhole
    obtain ⟨-, hnil⟩ := Front.complete.inj hwhole
    obtain ⟨rfl, rfl⟩ := List.append_eq_nil_iff.1 hnil
    exact absurd hmore (by simpa using hne)

/-! ## Both directions -/

/-- A payload and its frame determine each other. -/
structure RoundTrips (payload : Text) : Prop where
  /-- A payload can be framed exactly if it holds no surrogate and its bytes can be counted. -/
  encodable : (∃ frame, encode payload = .ok frame) ↔
    (∀ c ∈ payload, c.isSurrogate = false) ∧
      (payload.flatMap Utf8.encodeCodePoint).length ≤ 16 ^ 6 - 1
  /-- Its frame is read back in front of anything, which is left as it is. -/
  whole : ∀ frame rest, encode payload = .ok frame → front (frame ++ rest) = .complete payload rest
  /-- From less than its frame nothing is read, and nothing is taken. -/
  unread : ∀ frame part, encode payload = .ok frame → part <+: frame → part ≠ frame →
    front part = .incomplete ∧ drain part = ⟨.ok [], part⟩
  /-- What is taken where the payload is read is its frame, up to the case of the header and to
  malformed parts of the body. -/
  taken : ∀ buffer rest, front buffer = .complete payload rest →
    ∃ head body, buffer = head ++ body ++ rest ∧ head.length = headerSize ∧
      (encode payload = .ok (head ++ body) ↔ InLowerCase head ∧ Utf8.WellFormed body)

/-- Frames round-trip. -/
theorem roundTrips (payload : Text) : RoundTrips payload where
  encodable := by
    constructor
    · rintro ⟨frame, h⟩
      obtain ⟨data, hdata, hsize, -⟩ := encode_eq_ok_iff.1 h
      obtain ⟨hplain, rfl⟩ := Utf8.encode_eq_ok_iff.1 hdata
      exact ⟨hplain, hsize⟩
    · rintro ⟨hplain, hsize⟩
      exact ⟨_, encode_eq_ok_iff.2 ⟨_, Utf8.encode_eq_ok_iff.2 ⟨hplain, rfl⟩, hsize, rfl⟩⟩
  whole frame rest h := by
    obtain ⟨w, rfl, rfl⟩ := exists_whole_of_encode h
    exact front_bytes_append w rest
  unread frame part h hpart hne := by
    obtain ⟨w, rfl, rfl⟩ := exists_whole_of_encode h
    have hfront := front_of_proper_prefix w hpart hne
    exact ⟨hfront, drain_of_incomplete hfront⟩
  taken buffer rest h := by
    obtain ⟨w, rfl, rfl⟩ := front_eq_complete_iff.1 h
    exact ⟨w.head, w.body, rfl, w.length_head, encode_payload_iff w⟩

end SuggestBridge.Frame
