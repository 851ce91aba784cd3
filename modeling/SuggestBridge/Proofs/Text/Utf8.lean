import SuggestBridge.Text.Utf8
import Mathlib.Tactic.Common

/-!
# Decoding what was encoded

The bytes of a code point that is no surrogate are a lead byte and as many further bytes as it asks
for, each within the range that is expected (`decodeFrom_encodeCodePoint`).  So the bytes of a text
are read back as that text (`decode_of_encode`): no part of them counts as malformed.

`WellFormed` says which byte sequences are UTF-8, by the table of well-formed sequences alone.  These
are the bytes that encoding gives (`wellFormed_iff_exists_encode`), so decoding is exact on them and on
no others (`encode_decode_iff`).  Strict decoding refuses the others: it gives the text that was encoded
or nothing (`decodeStrictly_eq_ok_iff`).
-/

namespace SuggestBridge.Utf8

/-! ## Bytes -/

lemma toNat_toUInt8 {n : Nat} (h : n < 0x100) : n.toUInt8.toNat = n :=
  UInt8.toNat_ofNat_of_lt' h

lemma lead?_two {m : Nat} (hlow : 2 ≤ m) (hhigh : m < 0x20) :
    lead? (0xC0 + m) = some (m, ⟨1, 0x80, 0xBF⟩) := by
  have hall : ∀ m < 0x20, 2 ≤ m → lead? (0xC0 + m) = some (m, ⟨1, 0x80, 0xBF⟩) := by decide
  exact hall m hhigh hlow

/-- A lead byte of three rules out what two bytes can say, and surrogates. -/
lemma lead?_three {m : Nat} (h : m < 0x10) :
    lead? (0xE0 + m) =
      some (m, ⟨2, if m = 0 then 0xA0 else 0x80, if m = 0xD then 0x9F else 0xBF⟩) := by
  have hall : ∀ m < 0x10, lead? (0xE0 + m) =
      some (m, ⟨2, if m = 0 then 0xA0 else 0x80, if m = 0xD then 0x9F else 0xBF⟩) := by decide
  exact hall m h

/-- A lead byte of four rules out what three bytes can say, and what is no code point. -/
lemma lead?_four {m : Nat} (h : m < 5) :
    lead? (0xF0 + m) =
      some (m, ⟨3, if m = 0 then 0x90 else 0x80, if m = 4 then 0x8F else 0xBF⟩) := by
  have hall : ∀ m < 5, lead? (0xF0 + m) =
      some (m, ⟨3, if m = 0 then 0x90 else 0x80, if m = 4 then 0x8F else 0xBF⟩) := by decide
  exact hall m h

/-! ## Reading a byte -/

lemma decodeFrom_single {n : Nat} (h : n < 0x80) (rest : Bytes) :
    decodeFrom none (n.toUInt8 :: rest) = CodePoint.ofNat n :: decodeFrom none rest := by
  have hn : n.toUInt8.toNat = n := toNat_toUInt8 (by omega)
  simp only [decodeFrom, start, hn, if_pos h, List.singleton_append]

lemma decodeFrom_lead {n : Nat} {pending : Nat × Expectation} (hlow : 0x80 ≤ n) (hhigh : n < 0x100)
    (h : lead? n = some pending) (rest : Bytes) :
    decodeFrom none (n.toUInt8 :: rest) = decodeFrom (some pending) rest := by
  simp only [decodeFrom, start, toNat_toUInt8 hhigh, if_neg (Nat.not_lt.2 hlow), h,
    List.nil_append]

/-- A further byte that is not the last one. -/
lemma decodeFrom_further {acc m missing low high : Nat} (hm : m < 0x40) (hlow : low ≤ 0x80 + m)
    (hhigh : 0x80 + m ≤ high) (rest : Bytes) :
    decodeFrom (some (acc, ⟨missing + 2, low, high⟩)) ((0x80 + m).toUInt8 :: rest) =
      decodeFrom (some (acc * 0x40 + m, ⟨missing + 1, 0x80, 0xBF⟩)) rest := by
  have hn : (0x80 + m).toUInt8.toNat = 0x80 + m := toNat_toUInt8 (by omega)
  simp only [decodeFrom, hn, hlow, hhigh, and_self, if_true, Nat.add_sub_cancel_left]
  rfl

/-- The last byte. -/
lemma decodeFrom_last {acc m low high : Nat} (hm : m < 0x40) (hlow : low ≤ 0x80 + m)
    (hhigh : 0x80 + m ≤ high) (rest : Bytes) :
    decodeFrom (some (acc, ⟨1, low, high⟩)) ((0x80 + m).toUInt8 :: rest) =
      CodePoint.ofNat (acc * 0x40 + m) :: decodeFrom none rest := by
  have hn : (0x80 + m).toUInt8.toNat = 0x80 + m := toNat_toUInt8 (by omega)
  simp only [decodeFrom, hn, hlow, hhigh, and_self, if_true, Nat.add_sub_cancel_left]

/-! ## Code points and texts -/

lemma ofNat_val_eq (c : CodePoint) : CodePoint.ofNat c.val = c := by
  rw [CodePoint.ofNat, dif_pos c.isLt]

/-- In front of whatever follows, the bytes of a code point are read as that code point. -/
lemma decodeFrom_encodeCodePoint {c : CodePoint} (h : c.isSurrogate = false) (rest : Bytes) :
    decodeFrom none (encodeCodePoint c ++ rest) = c :: decodeFrom none rest := by
  have hsurrogate : c.val < 0xD800 ∨ 0xDFFF < c.val := by
    simp only [CodePoint.isSurrogate, Bool.and_eq_false_iff, decide_eq_false_iff_not] at h
    omega
  have hlt := c.isLt
  unfold encodeCodePoint
  by_cases h₁ : c.val < 0x80
  · rw [if_pos h₁, List.singleton_append, decodeFrom_single h₁, ofNat_val_eq]
  by_cases h₂ : c.val < 0x800
  · have hlead := @lead?_two (c.val / 0x40) (by omega) (by omega)
    have hvalue : c.val / 0x40 * 0x40 + c.val % 0x40 = c.val := by omega
    rw [if_neg h₁, if_pos h₂, List.cons_append, List.singleton_append,
      decodeFrom_lead (by omega) (by omega) hlead,
      decodeFrom_last (Nat.mod_lt _ (by decide)) (by omega) (by omega), hvalue, ofNat_val_eq]
  by_cases h₃ : c.val < 0x10000
  · have hlead := @lead?_three (c.val / 0x1000) (by omega)
    have hvalue : (c.val / 0x1000 * 0x40 + c.val / 0x40 % 0x40) * 0x40 + c.val % 0x40 = c.val := by
      omega
    rw [if_neg h₁, if_neg h₂, if_pos h₃, List.cons_append, List.cons_append, List.singleton_append,
      decodeFrom_lead (by omega) (by omega) hlead,
      decodeFrom_further (Nat.mod_lt _ (by decide)) (by split <;> omega) (by split <;> omega),
      decodeFrom_last (Nat.mod_lt _ (by decide)) (by omega) (by omega), hvalue, ofNat_val_eq]
  · have hlead := @lead?_four (c.val / 0x40000) (by omega)
    have hvalue : ((c.val / 0x40000 * 0x40 + c.val / 0x1000 % 0x40) * 0x40 +
        c.val / 0x40 % 0x40) * 0x40 + c.val % 0x40 = c.val := by
      omega
    rw [if_neg h₁, if_neg h₂, if_neg h₃, List.cons_append, List.cons_append, List.cons_append,
      List.singleton_append, decodeFrom_lead (by omega) (by omega) hlead,
      decodeFrom_further (Nat.mod_lt _ (by decide)) (by split <;> omega) (by split <;> omega),
      decodeFrom_further (Nat.mod_lt _ (by decide)) (by omega) (by omega),
      decodeFrom_last (Nat.mod_lt _ (by decide)) (by omega) (by omega), hvalue, ofNat_val_eq]

lemma not_isSurrogate_of_findSurrogates {position : Nat} {t : Text}
    (h : findSurrogates position t = none) : ∀ c ∈ t, c.isSurrogate = false := by
  induction t generalizing position with
  | nil => exact fun c hc => absurd hc List.not_mem_nil
  | cons c t ih =>
    rw [findSurrogates] at h
    split at h
    · cases h
    · next hc => exact List.forall_mem_cons.2 ⟨by simpa using hc, ih h⟩

/-- The bytes of a text are read back as that text. -/
theorem decode_of_encode {t : Text} {bs : Bytes} (h : encode t = .ok bs) : decode bs = t := by
  unfold encode at h
  split at h
  · cases h
  · next hnone =>
    cases h
    have hplain := not_isSurrogate_of_findSurrogates hnone
    clear hnone
    rw [decode]
    induction t with
    | nil => rfl
    | cons c t ih =>
      obtain ⟨hc, hplain⟩ := List.forall_mem_cons.1 hplain
      rw [List.flatMap_cons, decodeFrom_encodeCodePoint hc, ih hplain]

lemma findSurrogates_of_plain {t : Text} (h : ∀ c ∈ t, c.isSurrogate = false) (position : Nat) :
    findSurrogates position t = none := by
  induction t generalizing position with
  | nil => rfl
  | cons c t ih =>
    obtain ⟨hc, ht⟩ := List.forall_mem_cons.1 h
    rw [findSurrogates, hc, if_neg Bool.false_ne_true, ih ht]

/-- A text can be encoded exactly if it holds no surrogate. -/
theorem encode_eq_ok_iff {t : Text} {bs : Bytes} :
    encode t = .ok bs ↔ (∀ c ∈ t, c.isSurrogate = false) ∧ t.flatMap encodeCodePoint = bs := by
  constructor
  · intro h
    unfold encode at h
    split at h
    · cases h
    · next hnone => exact ⟨not_isSurrogate_of_findSurrogates hnone, Except.ok.inj h⟩
  · rintro ⟨hplain, rfl⟩
    rw [encode, findSurrogates_of_plain hplain]

/-! ## Well-formed byte sequences -/

/-- The bytes of one character.  The second byte of three or four leaves out what fewer bytes can say,
surrogates, and numbers beyond the last code point. -/
inductive Character : Bytes → Prop where
  | one {a : UInt8} (ha : a.toNat < 0x80) : Character [a]
  | two {a b : UInt8} (ha : 0xC2 ≤ a.toNat ∧ a.toNat ≤ 0xDF) (hb : 0x80 ≤ b.toNat ∧ b.toNat ≤ 0xBF) :
    Character [a, b]
  | three {a b c : UInt8} (ha : 0xE0 ≤ a.toNat ∧ a.toNat ≤ 0xEF)
    (hb : 0x80 ≤ b.toNat ∧ b.toNat ≤ 0xBF) (hlow : a.toNat = 0xE0 → 0xA0 ≤ b.toNat)
    (hhigh : a.toNat = 0xED → b.toNat ≤ 0x9F) (hc : 0x80 ≤ c.toNat ∧ c.toNat ≤ 0xBF) :
    Character [a, b, c]
  | four {a b c d : UInt8} (ha : 0xF0 ≤ a.toNat ∧ a.toNat ≤ 0xF4)
    (hb : 0x80 ≤ b.toNat ∧ b.toNat ≤ 0xBF) (hlow : a.toNat = 0xF0 → 0x90 ≤ b.toNat)
    (hhigh : a.toNat = 0xF4 → b.toNat ≤ 0x8F) (hc : 0x80 ≤ c.toNat ∧ c.toNat ≤ 0xBF)
    (hd : 0x80 ≤ d.toNat ∧ d.toNat ≤ 0xBF) : Character [a, b, c, d]

/-- Any number of characters one behind the other. -/
inductive WellFormed : Bytes → Prop where
  | nil : WellFormed []
  | cons {character rest : Bytes} (h : Character character) (hrest : WellFormed rest) :
    WellFormed (character ++ rest)

lemma toUInt8_eq {n : Nat} {b : UInt8} (h : n = b.toNat) : n.toUInt8 = b := by
  rw [h]
  exact UInt8.ofNat_toNat

lemma isSurrogate_eq_false_iff {c : CodePoint} :
    c.isSurrogate = false ↔ c.val < 0xD800 ∨ 0xDFFF < c.val := by
  simp only [CodePoint.isSurrogate, Bool.and_eq_false_iff, decide_eq_false_iff_not, Nat.not_le]

/-- A character is the bytes of some code point. -/
lemma Character.exists_codePoint {bs : Bytes} (h : Character bs) :
    ∃ c : CodePoint, c.isSurrogate = false ∧ encodeCodePoint c = bs := by
  cases h with
  | @one a ha =>
    refine ⟨⟨a.toNat, by omega⟩, isSurrogate_eq_false_iff.2 (by dsimp only; omega), ?_⟩
    simp only [encodeCodePoint, if_pos ha]
    rw [toUInt8_eq rfl]
  | @two a b ha hb =>
    obtain ⟨n, hn⟩ : ∃ n, n = (a.toNat - 0xC0) * 0x40 + (b.toNat - 0x80) := ⟨_, rfl⟩
    have h₁ : ¬n < 0x80 := by omega
    have h₂ : n < 0x800 := by omega
    refine ⟨⟨n, by omega⟩, isSurrogate_eq_false_iff.2 (by dsimp only; omega), ?_⟩
    simp only [encodeCodePoint, if_neg h₁, if_pos h₂]
    rw [toUInt8_eq (b := a) (by omega), toUInt8_eq (b := b) (by omega)]
  | @three a b c ha hb hlow hhigh hc =>
    obtain ⟨n, hn⟩ : ∃ n, n =
      ((a.toNat - 0xE0) * 0x40 + (b.toNat - 0x80)) * 0x40 + (c.toNat - 0x80) := ⟨_, rfl⟩
    have h₁ : ¬n < 0x80 := by omega
    have h₂ : ¬n < 0x800 := by omega
    have h₃ : n < 0x10000 := by omega
    refine ⟨⟨n, by omega⟩, isSurrogate_eq_false_iff.2 (by dsimp only; omega), ?_⟩
    simp only [encodeCodePoint, if_neg h₁, if_neg h₂, if_pos h₃]
    rw [toUInt8_eq (b := a) (by omega), toUInt8_eq (b := b) (by omega),
      toUInt8_eq (b := c) (by omega)]
  | @four a b c d ha hb hlow hhigh hc hd =>
    obtain ⟨n, hn⟩ : ∃ n, n = (((a.toNat - 0xF0) * 0x40 + (b.toNat - 0x80)) * 0x40 +
      (c.toNat - 0x80)) * 0x40 + (d.toNat - 0x80) := ⟨_, rfl⟩
    have h₁ : ¬n < 0x80 := by omega
    have h₂ : ¬n < 0x800 := by omega
    have h₃ : ¬n < 0x10000 := by omega
    refine ⟨⟨n, by omega⟩, isSurrogate_eq_false_iff.2 (by dsimp only; omega), ?_⟩
    simp only [encodeCodePoint, if_neg h₁, if_neg h₂, if_neg h₃]
    rw [toUInt8_eq (b := a) (by omega), toUInt8_eq (b := b) (by omega),
      toUInt8_eq (b := c) (by omega), toUInt8_eq (b := d) (by omega)]

/-- The bytes of a code point that is no surrogate are a character. -/
lemma character_encodeCodePoint {c : CodePoint} (h : c.isSurrogate = false) :
    Character (encodeCodePoint c) := by
  have hsurrogate := isSurrogate_eq_false_iff.1 h
  have hlt := c.isLt
  unfold encodeCodePoint
  by_cases h₁ : c.val < 0x80
  · rw [if_pos h₁]
    have ha := @toNat_toUInt8 c.val (by omega)
    exact .one (by omega)
  by_cases h₂ : c.val < 0x800
  · rw [if_neg h₁, if_pos h₂]
    have ha := @toNat_toUInt8 (0xC0 + c.val / 0x40) (by omega)
    have hb := @toNat_toUInt8 (0x80 + c.val % 0x40) (by omega)
    exact .two (by omega) (by omega)
  by_cases h₃ : c.val < 0x10000
  · rw [if_neg h₁, if_neg h₂, if_pos h₃]
    have ha := @toNat_toUInt8 (0xE0 + c.val / 0x1000) (by omega)
    have hb := @toNat_toUInt8 (0x80 + c.val / 0x40 % 0x40) (by omega)
    have hc := @toNat_toUInt8 (0x80 + c.val % 0x40) (by omega)
    exact .three (by omega) (by omega) (by omega) (by omega) (by omega)
  · rw [if_neg h₁, if_neg h₂, if_neg h₃]
    have ha := @toNat_toUInt8 (0xF0 + c.val / 0x40000) (by omega)
    have hb := @toNat_toUInt8 (0x80 + c.val / 0x1000 % 0x40) (by omega)
    have hc := @toNat_toUInt8 (0x80 + c.val / 0x40 % 0x40) (by omega)
    have hd := @toNat_toUInt8 (0x80 + c.val % 0x40) (by omega)
    exact .four (by omega) (by omega) (by omega) (by omega) (by omega) (by omega)

/-- The well-formed byte sequences are the ones that encoding gives. -/
theorem wellFormed_iff_exists_encode {bs : Bytes} : WellFormed bs ↔ ∃ t, encode t = .ok bs := by
  constructor
  · intro h
    induction h with
    | nil => exact ⟨[], rfl⟩
    | cons hcharacter _ ih =>
      obtain ⟨c, hc, rfl⟩ := hcharacter.exists_codePoint
      obtain ⟨t, ht⟩ := ih
      obtain ⟨hplain, rfl⟩ := encode_eq_ok_iff.1 ht
      exact ⟨c :: t, encode_eq_ok_iff.2 ⟨List.forall_mem_cons.2 ⟨hc, hplain⟩, List.flatMap_cons⟩⟩
  · rintro ⟨t, ht⟩
    obtain ⟨hplain, rfl⟩ := encode_eq_ok_iff.1 ht
    clear ht
    induction t with
    | nil => exact .nil
    | cons c t ih =>
      obtain ⟨hc, hplain⟩ := List.forall_mem_cons.1 hplain
      exact .cons (character_encodeCodePoint hc) (ih hplain)

/-- Decoding loses nothing exactly where the bytes are well-formed. -/
theorem encode_decode_iff {bs : Bytes} : encode (decode bs) = .ok bs ↔ WellFormed bs := by
  refine ⟨fun h => wellFormed_iff_exists_encode.2 ⟨_, h⟩, fun h => ?_⟩
  obtain ⟨t, ht⟩ := wellFormed_iff_exists_encode.1 h
  rwa [decode_of_encode ht]

/-! ## Strict decoding -/

/-- Bytes of the middle of a sequence: as many as are missing, the next one within its range. -/
inductive Continues : Expectation → Bytes → Prop where
  | last {low high : Nat} {b : UInt8} (hb : low ≤ b.toNat ∧ b.toNat ≤ high) :
    Continues ⟨1, low, high⟩ [b]
  | further {missing low high : Nat} {b : UInt8} {bs : Bytes} (hb : low ≤ b.toNat ∧ b.toNat ≤ high)
    (hrest : Continues ⟨missing + 1, 0x80, 0xBF⟩ bs) : Continues ⟨missing + 2, low, high⟩ (b :: bs)

/-- A first byte with the bytes that it asks for is a character. -/
lemma Continues.character {a : UInt8} {acc : Nat} {e : Expectation} {bs : Bytes}
    (h : Continues e bs) (hlead : lead? a.toNat = some (acc, e)) : Character (a :: bs) := by
  have hlt := a.toNat_lt
  by_cases h₁ : a.toNat < 0xC2
  · rw [lead?, if_pos h₁] at hlead
    cases hlead
  by_cases h₂ : a.toNat ≤ 0xDF
  · have hsome := @lead?_two (a.toNat - 0xC0) (by omega) (by omega)
    rw [Nat.add_sub_cancel' (by omega), hlead, Option.some.injEq, Prod.mk.injEq] at hsome
    obtain ⟨-, rfl⟩ := hsome
    cases h with
    | last hb => exact .two (by omega) hb
  by_cases h₃ : a.toNat ≤ 0xEF
  · have hsome := @lead?_three (a.toNat - 0xE0) (by omega)
    rw [Nat.add_sub_cancel' (by omega), hlead, Option.some.injEq, Prod.mk.injEq] at hsome
    obtain ⟨-, rfl⟩ := hsome
    cases h with
    | further hb hrest =>
      cases hrest with
      | last hc => split_ifs at hb <;> exact .three (by omega) (by omega) (by omega) (by omega) hc
  by_cases h₄ : a.toNat ≤ 0xF4
  · have hsome := @lead?_four (a.toNat - 0xF0) (by omega)
    rw [Nat.add_sub_cancel' (by omega), hlead, Option.some.injEq, Prod.mk.injEq] at hsome
    obtain ⟨-, rfl⟩ := hsome
    cases h with
    | further hb hrest =>
      cases hrest with
      | further hc hrest =>
        cases hrest with
        | last hd => split_ifs at hb <;> exact .four (by omega) (by omega) (by omega) (by omega) hc hd
  · have hnone : lead? a.toNat = none := by
      rw [lead?]
      split_ifs <;> first | rfl | omega
    cases hnone.symm.trans hlead

/-- A character of more than one byte is a first byte with the bytes that it asks for. -/
lemma Character.continues {a : UInt8} {bs : Bytes} (h : Character (a :: bs)) (ha : 0x80 ≤ a.toNat) :
    ∃ acc e, lead? a.toNat = some (acc, e) ∧ Continues e bs := by
  cases h with
  | one => omega
  | two ha hb =>
    have hsome := @lead?_two (a.toNat - 0xC0) (by omega) (by omega)
    rw [Nat.add_sub_cancel' (by omega)] at hsome
    exact ⟨_, _, hsome, .last hb⟩
  | three ha hb hlow hhigh hc =>
    have hsome := @lead?_three (a.toNat - 0xE0) (by omega)
    rw [Nat.add_sub_cancel' (by omega)] at hsome
    refine ⟨_, _, hsome, .further ⟨?_, ?_⟩ (.last hc)⟩
    · split_ifs <;> omega
    · split_ifs <;> omega
  | four ha hb hlow hhigh hc hd =>
    have hsome := @lead?_four (a.toNat - 0xF0) (by omega)
    rw [Nat.add_sub_cancel' (by omega)] at hsome
    refine ⟨_, _, hsome, .further ⟨?_, ?_⟩ (.further hc (.last hd))⟩
    · split_ifs <;> omega
    · split_ifs <;> omega

/-- No fault is found in what begins with the bytes that are expected, if none is found behind them. -/
lemma Continues.findMalformed {e : Expectation} {bs : Bytes} (h : Continues e bs) (rest : Bytes)
    (position : Nat) (byte : UInt8) (first : Nat) :
    findMalformed position (some (byte, first, e)) (bs ++ rest) =
      Utf8.findMalformed (position + bs.length) none rest := by
  induction h generalizing position with
  | last hb => simp [Utf8.findMalformed, hb]
  | @further missing low high b bs hb hrest ih =>
    rw [List.cons_append, Utf8.findMalformed]
    simp only [hb, and_self, if_true]
    rw [if_neg (by omega)]
    exact (ih (position + 1)).trans (by rw [List.length_cons]; congr 1; omega)

lemma continues_of_findMalformed {e : Expectation} {bs : Bytes} {position first : Nat} {byte : UInt8}
    (he : e.missing ≠ 0) (h : Utf8.findMalformed position (some (byte, first, e)) bs = none) :
    ∃ middle rest, bs = middle ++ rest ∧ Continues e middle ∧
      Utf8.findMalformed (position + middle.length) none rest = none := by
  induction bs generalizing e position with
  | nil => cases h
  | cons b r ih =>
    obtain ⟨missing, low, high⟩ := e
    rw [Utf8.findMalformed] at h
    split at h
    · next hb =>
      split at h
      · next hone =>
        obtain rfl : missing = 1 := hone
        exact ⟨[b], r, rfl, .last hb, h⟩
      · next hmore =>
        obtain ⟨more, rfl⟩ : ∃ more, missing = more + 2 := ⟨missing - 2, by dsimp only at *; omega⟩
        obtain ⟨middle, rest, rfl, hmiddle, hrest⟩ := ih (Nat.succ_ne_zero more) h
        refine ⟨b :: middle, rest, rfl, .further hb hmiddle, ?_⟩
        rwa [List.length_cons, ← Nat.add_assoc, Nat.add_right_comm]
    · cases h

lemma missing_ne_zero_of_lead? {n acc : Nat} {e : Expectation} (h : lead? n = some (acc, e)) :
    e.missing ≠ 0 := by
  unfold lead? at h
  split_ifs at h
  all_goals
    rw [Option.some.injEq, Prod.mk.injEq] at h
    rw [← h.2]
    exact Nat.succ_ne_zero _

/-- No part of a byte sequence is malformed exactly if it is well-formed. -/
lemma findMalformed_eq_none_iff {bs : Bytes} {position : Nat} :
    findMalformed position none bs = none ↔ WellFormed bs := by
  constructor
  · intro h
    induction hn : bs.length using Nat.strongRecOn generalizing bs position with
    | ind n ih =>
      subst hn
      cases bs with
      | nil => exact .nil
      | cons a r =>
        rw [findMalformed] at h
        split at h
        · next ha => exact .cons (.one ha) (ih r.length (by simp) h rfl)
        · split at h
          · next acc e hlead =>
            obtain ⟨middle, rest, rfl, hmiddle, hrest⟩ :=
              continues_of_findMalformed (missing_ne_zero_of_lead? hlead) h
            have hshorter : rest.length < (a :: (middle ++ rest)).length := by
              rw [List.length_cons, List.length_append]
              omega
            exact .cons (hmiddle.character hlead) (ih rest.length hshorter hrest rfl)
          · cases h
  · intro h
    induction h generalizing position with
    | nil => rfl
    | @cons character rest hcharacter _ ih =>
      cases character with
      | nil => cases hcharacter
      | cons a bs =>
        rw [List.cons_append, findMalformed]
        by_cases ha : a.toNat < 0x80
        · cases hcharacter with
          | one =>
            rw [if_pos ha]
            exact ih
          | _ => omega
        · obtain ⟨acc, e, hlead, hbs⟩ := hcharacter.continues (Nat.not_lt.1 ha)
          simp only [if_neg ha, hlead]
          rw [hbs.findMalformed, ih]

/-- Strict decoding gives the text whose bytes these are, and gives one exactly for well-formed bytes. -/
theorem decodeStrictly_eq_ok_iff {bs : Bytes} {t : Text} :
    decodeStrictly bs = .ok t ↔ encode t = .ok bs := by
  constructor
  · intro h
    unfold decodeStrictly at h
    split at h
    · cases h
    · next hnone =>
      cases h
      exact encode_decode_iff.2 (findMalformed_eq_none_iff.1 hnone)
  · intro h
    have hnone := @findMalformed_eq_none_iff bs 0
    rw [decodeStrictly, hnone.2 (wellFormed_iff_exists_encode.2 ⟨t, h⟩), decode_of_encode h]

lemma exists_decodeStrictly_eq_error_iff {bs : Bytes} :
    (∃ e, decodeStrictly bs = .error e) ↔ ¬WellFormed bs := by
  rw [wellFormed_iff_exists_encode]
  simp only [← decodeStrictly_eq_ok_iff]
  cases decodeStrictly bs <;> simp

end SuggestBridge.Utf8
