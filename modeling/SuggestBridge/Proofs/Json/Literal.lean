import SuggestBridge.Json.Literal
import SuggestBridge.Proofs.Result
import Mathlib.Tactic.Common

/-!
# What a string literal spells

`Spells raw t` is the declarative side of `Json.scan`: the inside `raw` of a literal is cut from the
left into plain code points, short escapes, escapes by number and pairs of escaped surrogates, and
`t` is what they stand for.  Where an inside spells nothing, the first piece that is none of these is
its fault (`Faulty`).

A literal ends at the first double quote that no backslash escapes, so the insides of complete
literals are those of `Inside`.  Reading a literal ends at that same quote, although its escapes are
longer: it gives the text that the inside spells and leaves what follows the quote, or it fails for a
fault of the inside, whatever follows (`scan_of_inside`).

Writing a literal gives an inside that spells the text written (`spells_flatMap_wideCodePoint`), and
without a backslash in it the inside is the text itself (`flatMap_wideCodePoint_eq_self`).
-/

namespace SuggestBridge.Json

open CodePoint (ofChar)

/-- What can stand between the quotes of a literal: a double quote only behind a backslash that
escapes it, and every backslash before the code point that it escapes. -/
inductive Inside : Text → Prop
  | nil : Inside []
  | plain {c : CodePoint} {r : Text} :
      c ≠ ofChar '"' → c ≠ ofChar '\\' → Inside r → Inside (c :: r)
  | escaped {r : Text} (c : CodePoint) : Inside r → Inside (ofChar '\\' :: c :: r)

/-- The code point of a pair of surrogates. -/
def pairOf (high low : Nat) : CodePoint :=
  CodePoint.ofNat (0x10000 + (high - 0xD800) * 0x400 + (low - 0xDC00))

/-- Whether a number is that of the first half of a surrogate pair. -/
def IsHigh (n : Nat) : Prop := 0xD800 ≤ n ∧ n ≤ 0xDBFF

/-- Whether a number is that of the second half of a surrogate pair. -/
def IsLow (n : Nat) : Prop := 0xDC00 ≤ n ∧ n ≤ 0xDFFF

/-- The inside begins with an escape by number for the second half of a surrogate pair. -/
def BeginsLow (r : Text) : Prop :=
  ∃ h₁ h₂ h₃ h₄ s n, r = ofChar '\\' :: ofChar 'u' :: h₁ :: h₂ :: h₃ :: h₄ :: s ∧
    fourDigits? h₁ h₂ h₃ h₄ = some n ∧ IsLow n

/-- The inside of a literal and the text that it spells. -/
inductive Spells : Text → Text → Prop
  | nil : Spells [] []
  | plain {c : CodePoint} {r t : Text} :
      c ≠ ofChar '"' → c ≠ ofChar '\\' → 0x20 ≤ c.val → Spells r t → Spells (c :: r) (c :: t)
  | short {e x : CodePoint} {r t : Text} :
      unescape? e = some x → Spells r t → Spells (ofChar '\\' :: e :: r) (x :: t)
  | number {h₁ h₂ h₃ h₄ : CodePoint} {n : Nat} {r t : Text} :
      fourDigits? h₁ h₂ h₃ h₄ = some n → ¬(IsHigh n ∧ BeginsLow r) → Spells r t →
      Spells (ofChar '\\' :: ofChar 'u' :: h₁ :: h₂ :: h₃ :: h₄ :: r) (CodePoint.ofNat n :: t)
  | pair {h₁ h₂ h₃ h₄ l₁ l₂ l₃ l₄ : CodePoint} {high low : Nat} {r t : Text} :
      fourDigits? h₁ h₂ h₃ h₄ = some high → IsHigh high →
      fourDigits? l₁ l₂ l₃ l₄ = some low → IsLow low → Spells r t →
      Spells (ofChar '\\' :: ofChar 'u' :: h₁ :: h₂ :: h₃ :: h₄ ::
        ofChar '\\' :: ofChar 'u' :: l₁ :: l₂ :: l₃ :: l₄ :: r) (pairOf high low :: t)

/-- The text begins with the digits of an escape by number. -/
def BeginsNumber (r : Text) : Prop :=
  ∃ h₁ h₂ h₃ h₄ s n, r = h₁ :: h₂ :: h₃ :: h₄ :: s ∧ fourDigits? h₁ h₂ h₃ h₄ = some n

/-- What no literal can have at this place, and why. -/
inductive FaultAt : Text → LiteralError → Prop
  | control {c : CodePoint} {r : Text} : c.val < 0x20 → FaultAt (c :: r) .controlCharacter
  | escape {e : CodePoint} {r : Text} :
      e ≠ ofChar 'u' → unescape? e = none → FaultAt (ofChar '\\' :: e :: r) .unknownEscape
  | number {r : Text} :
      ¬BeginsNumber r → FaultAt (ofChar '\\' :: ofChar 'u' :: r) .malformedNumber

/-- The inside of a literal that spells nothing, and why: up to its first fault it spells a text. -/
def Faulty (raw : Text) (e : LiteralError) : Prop :=
  ∃ good bad t, raw = good ++ bad ∧ Spells good t ∧ FaultAt bad e

/-! ## Letters and escapes -/

lemma ofNat_val {n : Nat} (h : n < 0x110000) : (CodePoint.ofNat n).val = n := by
  simp [CodePoint.ofNat, h]

lemma unescape?_u : unescape? (ofChar 'u') = none := by decide

lemma Inside.of_cons {c : CodePoint} {r : Text} (hc : c ≠ ofChar '\\') (h : Inside (c :: r)) :
    c ≠ ofChar '"' ∧ Inside r := by
  cases h with
  | plain hq _ hr => exact ⟨hq, hr⟩
  | escaped _ _ => exact absurd rfl hc

lemma Inside.of_escaped {c : CodePoint} {r : Text} (h : Inside (ofChar '\\' :: c :: r)) :
    Inside r := by
  cases h with
  | plain _ hc _ => exact absurd rfl hc
  | escaped _ hr => exact hr

lemma hexValue?_quote : (ofChar '"').hexValue? = none := by decide

/-- A hexadecimal digit is a plain code point. -/
lemma inside_cons_digit {c : CodePoint} {n : Nat} {r : Text} (hc : c.hexValue? = some n) :
    Inside (c :: r) ↔ Inside r := by
  have hquote : c ≠ ofChar '"' := by
    rintro rfl
    simp [hexValue?_quote] at hc
  have hslash : c ≠ ofChar '\\' := by
    rintro rfl
    exact absurd hc (by decide +revert)
  exact ⟨fun h => (h.of_cons hslash).2, .plain hquote hslash⟩

lemma inside_cons_digits {a b c d : CodePoint} {n : Nat} {r : Text}
    (hn : fourDigits? a b c d = some n) : Inside (a :: b :: c :: d :: r) ↔ Inside r := by
  simp only [fourDigits?, Option.pure_def, Option.bind_eq_bind, Option.bind_eq_some_iff] at hn
  obtain ⟨a', ha, b', hb, c', hc, d', hd, -⟩ := hn
  rw [inside_cons_digit ha, inside_cons_digit hb, inside_cons_digit hc, inside_cons_digit hd]

/-- An inside that spells a text is one that a literal can have. -/
lemma Spells.inside {raw t : Text} (h : Spells raw t) : Inside raw := by
  induction h with
  | nil => exact .nil
  | plain hquote hslash _ _ ih => exact .plain hquote hslash ih
  | short _ _ ih => exact .escaped _ ih
  | number hn _ _ ih => exact .escaped _ ((inside_cons_digits hn).2 ih)
  | pair hn _ hm _ _ ih =>
    exact .escaped _ ((inside_cons_digits hn).2 (.escaped _ ((inside_cons_digits hm).2 ih)))

/-! ## Looking ahead

An escape by number is six code points long and a pair of them twelve, so reading looks beyond the
code point that a backslash escapes.  It never looks beyond the closing quote with success, since a
quote is no digit. -/

lemma quote_not_mem_digits {a b c d : CodePoint} {n : Nat} (hn : fourDigits? a b c d = some n) :
    ofChar '"' ∉ [a, b, c, d] := by
  simp only [fourDigits?, Option.pure_def, Option.bind_eq_bind, Option.bind_eq_some_iff] at hn
  obtain ⟨a', ha, b', hb, c', hc, d', hd, -⟩ := hn
  intro hmem
  simp only [List.mem_cons, List.not_mem_nil, or_false] at hmem
  rcases hmem with rfl | rfl | rfl | rfl
  · simp [hexValue?_quote] at ha
  · simp [hexValue?_quote] at hb
  · simp [hexValue?_quote] at hc
  · simp [hexValue?_quote] at hd

/-- What holds no quote and stands at the front of a literal stands at the front of its inside. -/
lemma of_append_quote {p r rest s : Text} (hp : ofChar '"' ∉ p)
    (h : r ++ ofChar '"' :: rest = p ++ s) : ∃ s', r = p ++ s' := by
  rcases List.append_eq_append_iff.1 h with ⟨q, rfl, hq⟩ | ⟨q, rfl, -⟩
  · cases q with
    | nil => exact ⟨[], by simp⟩
    | cons c q =>
      obtain ⟨rfl, -⟩ := List.cons.inj hq
      exact absurd (by simp) hp
  · exact ⟨q, rfl⟩

lemma BeginsNumber.of_append_quote {r rest : Text} (h : BeginsNumber (r ++ ofChar '"' :: rest)) :
    BeginsNumber r := by
  obtain ⟨h₁, h₂, h₃, h₄, s, n, heq, hn⟩ := h
  obtain ⟨s', rfl⟩ := @Json.of_append_quote [h₁, h₂, h₃, h₄] r rest s (quote_not_mem_digits hn) heq
  exact ⟨h₁, h₂, h₃, h₄, s', n, rfl, hn⟩

lemma BeginsLow.of_append_quote {r rest : Text} (h : BeginsLow (r ++ ofChar '"' :: rest)) :
    BeginsLow r := by
  obtain ⟨h₁, h₂, h₃, h₄, s, n, heq, hn, hlow⟩ := h
  have hno : ofChar '"' ∉ [ofChar '\\', ofChar 'u', h₁, h₂, h₃, h₄] := by
    have hdigits := quote_not_mem_digits hn
    rw [List.mem_cons, List.mem_cons, not_or, not_or]
    exact ⟨by decide, by decide, hdigits⟩
  obtain ⟨s', rfl⟩ := Json.of_append_quote (s := s) hno heq
  exact ⟨h₁, h₂, h₃, h₄, s', n, rfl, hn, hlow⟩

lemma BeginsLow.append {r : Text} (h : BeginsLow r) (more : Text) : BeginsLow (r ++ more) := by
  obtain ⟨h₁, h₂, h₃, h₄, s, n, rfl, hn, hlow⟩ := h
  exact ⟨h₁, h₂, h₃, h₄, s ++ more, n, rfl, hn, hlow⟩

lemma joined?_eq_some_iff {n : Nat} {b u l₁ l₂ l₃ l₄ x : CodePoint} :
    joined? n b u l₁ l₂ l₃ l₄ = some x ↔
      IsHigh n ∧ b = ofChar '\\' ∧ u = ofChar 'u' ∧
        ∃ low, fourDigits? l₁ l₂ l₃ l₄ = some low ∧ IsLow low ∧ pairOf n low = x := by
  unfold joined? IsHigh IsLow pairOf
  split
  · next hescape =>
    cases fourDigits? l₁ l₂ l₃ l₄ with
    | none => simp
    | some low => simp [hescape]
  · next hescape =>
    simp only [reduceCtorEq, false_iff]
    rintro ⟨hhigh, hb, hu, -⟩
    exact hescape ⟨hhigh.1, hhigh.2, hb, hu⟩

/-! ## Reading from the left -/

lemma slash_ne_quote : (ofChar '\\' = ofChar '"') = False := by decide

lemma scan_quote (rest : Text) : scan (ofChar '"' :: rest) = .ok ([], rest) := by
  rw [scan.eq_def]
  exact if_pos rfl

lemma scan_plain {c : CodePoint} {r : Text} (hquote : c ≠ ofChar '"') (hslash : c ≠ ofChar '\\')
    (hctl : 0x20 ≤ c.val) : scan (c :: r) = (scan r).map (prepend c) := by
  rw [scan.eq_def]
  simp only [if_neg hquote, if_neg hslash, if_neg (Nat.not_lt.2 hctl)]

lemma scan_control {c : CodePoint} {r : Text} (hctl : c.val < 0x20) :
    scan (c :: r) = .error .controlCharacter := by
  have hquote : c ≠ ofChar '"' := by
    rintro rfl
    exact absurd hctl (by decide)
  have hslash : c ≠ ofChar '\\' := by
    rintro rfl
    exact absurd hctl (by decide)
  rw [scan.eq_def]
  simp only [if_neg hquote, if_neg hslash, if_pos hctl]

lemma scan_short {e x : CodePoint} {r : Text} (hx : unescape? e = some x) :
    scan (ofChar '\\' :: e :: r) = (scan r).map (prepend x) := by
  have he : e ≠ ofChar 'u' := by
    rintro rfl
    simp [unescape?_u] at hx
  rw [scan.eq_def]
  simp only [slash_ne_quote, if_false, if_true, if_neg he, hx]

lemma scan_unknown {e : CodePoint} {r : Text} (he : e ≠ ofChar 'u') (hnone : unescape? e = none) :
    scan (ofChar '\\' :: e :: r) = .error .unknownEscape := by
  rw [scan.eq_def]
  simp only [slash_ne_quote, if_false, if_true, if_neg he, hnone]

lemma scan_malformed {r : Text} (h : ¬BeginsNumber r) :
    scan (ofChar '\\' :: ofChar 'u' :: r) = .error .malformedNumber := by
  rw [scan.eq_def]
  simp only [slash_ne_quote, if_false, if_true]
  split
  · next h₁ h₂ h₃ h₄ s =>
    cases hn : fourDigits? h₁ h₂ h₃ h₄ with
    | none => rfl
    | some n => exact absurd ⟨h₁, h₂, h₃, h₄, s, n, rfl, hn⟩ h
  · rfl

lemma scan_number {h₁ h₂ h₃ h₄ : CodePoint} {n : Nat} {r : Text}
    (hn : fourDigits? h₁ h₂ h₃ h₄ = some n) (hfree : ¬(IsHigh n ∧ BeginsLow r)) :
    scan (ofChar '\\' :: ofChar 'u' :: h₁ :: h₂ :: h₃ :: h₄ :: r) =
      (scan r).map (prepend (CodePoint.ofNat n)) := by
  rw [scan.eq_def]
  simp only [slash_ne_quote, if_false, if_true, hn]
  split
  · next b u l₁ l₂ l₃ l₄ s =>
    cases hjoined : joined? n b u l₁ l₂ l₃ l₄ with
    | none => rfl
    | some x =>
      obtain ⟨hhigh, rfl, rfl, low, hlow, hislow, -⟩ := joined?_eq_some_iff.1 hjoined
      exact absurd ⟨hhigh, l₁, l₂, l₃, l₄, s, low, rfl, hlow, hislow⟩ hfree
  · rfl

lemma scan_pair {h₁ h₂ h₃ h₄ l₁ l₂ l₃ l₄ : CodePoint} {high low : Nat} {r : Text}
    (hn : fourDigits? h₁ h₂ h₃ h₄ = some high) (hhigh : IsHigh high)
    (hm : fourDigits? l₁ l₂ l₃ l₄ = some low) (hlow : IsLow low) :
    scan (ofChar '\\' :: ofChar 'u' :: h₁ :: h₂ :: h₃ :: h₄ ::
        ofChar '\\' :: ofChar 'u' :: l₁ :: l₂ :: l₃ :: l₄ :: r) =
      (scan r).map (prepend (pairOf high low)) := by
  have hjoined : joined? high (ofChar '\\') (ofChar 'u') l₁ l₂ l₃ l₄ = some (pairOf high low) :=
    joined?_eq_some_iff.2 ⟨hhigh, rfl, rfl, low, hm, hlow, rfl⟩
  rw [scan.eq_def]
  simp only [slash_ne_quote, if_false, if_true, hn, hjoined]

/-- Reading an inside gives the text that it spells, and ends at the quote behind it. -/
lemma scan_of_spells {raw t : Text} (h : Spells raw t) (rest : Text) :
    scan (raw ++ ofChar '"' :: rest) = .ok (t, rest) := by
  induction h with
  | nil => exact scan_quote rest
  | plain hquote hslash hctl _ ih =>
    rw [List.cons_append, scan_plain hquote hslash hctl, ih]
    rfl
  | short hx _ ih =>
    rw [List.cons_append, List.cons_append, scan_short hx, ih]
    rfl
  | number hn hfree _ ih =>
    simp only [List.cons_append]
    rw [scan_number hn fun h => hfree ⟨h.1, h.2.of_append_quote⟩, ih]
    rfl
  | pair hn hhigh hm hlow _ ih =>
    simp only [List.cons_append]
    rw [scan_pair hn hhigh hm hlow, ih]
    rfl

/-- Reading fails for a fault of the inside, whatever follows. -/
def Refused (raw : Text) : Prop :=
  ∃ e, Faulty raw e ∧ ∀ rest, scan (raw ++ ofChar '"' :: rest) = .error e

lemma refused_of_faultAt {raw : Text} {e : LiteralError} (h : FaultAt raw e) : Refused raw := by
  refine ⟨e, ⟨[], raw, [], rfl, .nil, h⟩, fun rest => ?_⟩
  cases h with
  | control hctl => exact scan_control hctl
  | escape he hnone => exact scan_unknown he hnone
  | number hno => exact scan_malformed fun h => hno h.of_append_quote

/-- A piece before what is refused does not mend it. -/
lemma Refused.behind (piece : Text) (c : CodePoint) {raw : Text}
    (hspells : ∀ {good bad t}, raw = good ++ bad → Spells good t → Spells (piece ++ good) (c :: t))
    (hscan : ∀ rest, scan (piece ++ raw ++ ofChar '"' :: rest) =
      (scan (raw ++ ofChar '"' :: rest)).map (prepend c)) (h : Refused raw) :
    Refused (piece ++ raw) := by
  obtain ⟨e, ⟨good, bad, t, heq, hgood, hbad⟩, herror⟩ := h
  refine ⟨e, ⟨piece ++ good, bad, c :: t, by rw [heq, List.append_assoc], hspells heq hgood, hbad⟩,
    fun rest => ?_⟩
  rw [hscan, herror]
  rfl

/-- An inside spells a text or is refused. -/
def Settled (raw : Text) : Prop := (∃ t, Spells raw t) ∨ Refused raw

lemma settled_number {h₁ h₂ h₃ h₄ : CodePoint} {n : Nat} {r : Text}
    (hn : fourDigits? h₁ h₂ h₃ h₄ = some n) (hfree : ¬(IsHigh n ∧ BeginsLow r)) (h : Settled r) :
    Settled (ofChar '\\' :: ofChar 'u' :: h₁ :: h₂ :: h₃ :: h₄ :: r) := by
  refine h.imp (fun ⟨t, ht⟩ => ⟨_, .number hn hfree ht⟩) fun hr =>
    hr.behind [ofChar '\\', ofChar 'u', h₁, h₂, h₃, h₄] (CodePoint.ofNat n) ?_ ?_
  · rintro good bad t rfl ht
    exact .number hn (fun h => hfree ⟨h.1, h.2.append bad⟩) ht
  · exact fun rest => scan_number hn fun h => hfree ⟨h.1, h.2.of_append_quote⟩

lemma settled_pair {h₁ h₂ h₃ h₄ l₁ l₂ l₃ l₄ : CodePoint} {high low : Nat} {r : Text}
    (hn : fourDigits? h₁ h₂ h₃ h₄ = some high) (hhigh : IsHigh high)
    (hm : fourDigits? l₁ l₂ l₃ l₄ = some low) (hlow : IsLow low) (h : Settled r) :
    Settled (ofChar '\\' :: ofChar 'u' :: h₁ :: h₂ :: h₃ :: h₄ ::
      ofChar '\\' :: ofChar 'u' :: l₁ :: l₂ :: l₃ :: l₄ :: r) := by
  refine h.imp (fun ⟨t, ht⟩ => ⟨_, .pair hn hhigh hm hlow ht⟩) fun hr =>
    hr.behind [ofChar '\\', ofChar 'u', h₁, h₂, h₃, h₄, ofChar '\\', ofChar 'u', l₁, l₂, l₃, l₄]
      (pairOf high low) (fun _ ht => .pair hn hhigh hm hlow ht) ?_
  exact fun rest => scan_pair hn hhigh hm hlow

lemma settled_escaped {c : CodePoint} {r : Text} (hr : Inside r)
    (ih : ∀ s : Text, s.length ≤ r.length → Inside s → Settled s) :
    Settled (ofChar '\\' :: c :: r) := by
  by_cases hc : c = ofChar 'u'
  · subst hc
    by_cases hnumber : BeginsNumber r
    · obtain ⟨h₁, h₂, h₃, h₄, s, n, rfl, hn⟩ := hnumber
      have hs : Inside s := (inside_cons_digits hn).1 hr
      by_cases hpair : IsHigh n ∧ BeginsLow s
      · obtain ⟨hhigh, l₁, l₂, l₃, l₄, r, low, rfl, hm, hlow⟩ := hpair
        refine settled_pair hn hhigh hm hlow (ih r ?_ ((inside_cons_digits hm).1 hs.of_escaped))
        simp only [List.length_cons]
        omega
      · refine settled_number hn hpair (ih s ?_ hs)
        simp only [List.length_cons]
        omega
    · exact .inr (refused_of_faultAt (.number hnumber))
  · cases hx : unescape? c with
    | none => exact .inr (refused_of_faultAt (.escape hc hx))
    | some x =>
      exact (ih r (Nat.le_refl _) hr).imp (fun ⟨t, ht⟩ => ⟨_, .short hx ht⟩) fun hrefused =>
        hrefused.behind [ofChar '\\', c] x (fun _ ht => .short hx ht)
          fun _ => scan_short hx

/-- Every inside of a literal spells a text or is refused, by induction on its length: the pieces that
reading takes from it are of different lengths. -/
lemma settled_of_inside {raw : Text} (h : Inside raw) : Settled raw := by
  induction hn : raw.length using Nat.strongRecOn generalizing raw with
  | ind n ih =>
    subst hn
    cases h with
    | nil => exact .inl ⟨[], .nil⟩
    | @plain c r hquote hslash hr =>
      by_cases hctl : c.val < 0x20
      · exact .inr (refused_of_faultAt (.control hctl))
      · have hctl := Nat.not_lt.1 hctl
        exact (ih r.length (by simp) hr rfl).imp
          (fun ⟨t, ht⟩ => ⟨_, .plain hquote hslash hctl ht⟩) fun hrefused =>
            hrefused.behind [c] c (fun _ ht => .plain hquote hslash hctl ht)
              fun _ => scan_plain hquote hslash hctl
    | @escaped r c hr =>
      refine settled_escaped hr fun s hs hin => ih s.length ?_ hin rfl
      simp only [List.length_cons]
      omega

/-- Reading a complete literal gives the text that its inside spells and ends at its closing quote, or
it fails for a fault of the inside. -/
lemma scan_of_inside {raw : Text} (h : Inside raw) :
    (∃ t, Spells raw t ∧ ∀ rest, scan (raw ++ ofChar '"' :: rest) = .ok (t, rest)) ∨
      ∃ e, Faulty raw e ∧ ∀ rest, scan (raw ++ ofChar '"' :: rest) = .error e :=
  (settled_of_inside h).imp_left fun ⟨t, ht⟩ => ⟨t, ht, scan_of_spells ht⟩

/-- Reading a literal from quote to quote succeeds exactly where its inside spells a text, with that
text. -/
lemma decode_eq_ok_iff {raw t : Text} (h : Inside raw) :
    decode (raw ++ [ofChar '"']) = .ok t ↔ Spells raw t := by
  constructor
  · intro hdecode
    rw [decode] at hdecode
    rcases scan_of_inside h with ⟨t', ht', hscan⟩ | ⟨e, -, hscan⟩
    · rw [hscan []] at hdecode
      cases hdecode
      exact ht'
    · rw [hscan []] at hdecode
      cases hdecode
  · intro hspells
    rw [decode, scan_of_spells hspells []]
    rfl

/-! ## Written literals -/

lemma shortEscape?_unescape? {c e : CodePoint} (h : shortEscape? c = some e) :
    unescape? e = some c := by
  simp only [shortEscape?] at h
  split_ifs at h with h₁ h₂ h₃ h₄ h₅ h₆ <;> simp only [Option.some.injEq] at h <;> subst h
  · rcases h₁ with rfl | rfl <;> rfl
  · subst h₂; rfl
  · subst h₃; rfl
  · subst h₄; rfl
  · exact congrArg some (CodePoint.ext h₅.symm)
  · exact congrArg some (CodePoint.ext h₆.symm)

lemma hexValue?_hexDigit : ∀ {n : Nat}, n < 16 → (CodePoint.hexDigit n).hexValue? = some n := by
  decide

/-- An escape by number has the digits of its number. -/
lemma fourDigits?_numericEscape {n : Nat} (h : n < 0x10000) :
    ∃ h₁ h₂ h₃ h₄, numericEscape n = [ofChar '\\', ofChar 'u', h₁, h₂, h₃, h₄] ∧
      fourDigits? h₁ h₂ h₃ h₄ = some n := by
  refine ⟨CodePoint.hexDigit (n / 16 / 16 / 16 % 16), CodePoint.hexDigit (n / 16 / 16 % 16),
    CodePoint.hexDigit (n / 16 % 16), CodePoint.hexDigit (n % 16), rfl, ?_⟩
  have hsum : 0x1000 * (n / 16 / 16 / 16 % 16) + 0x100 * (n / 16 / 16 % 16) +
      0x10 * (n / 16 % 16) + n % 16 = n := by omega
  simp [fourDigits?, hexValue?_hexDigit, Nat.mod_lt, hsum]

/-- One written code point, before what spells the rest of a text. -/
lemma Spells.wideCodePoint {r t : Text} (c : CodePoint) (h : Spells r t) :
    Spells (wideCodePoint c ++ r) (c :: t) := by
  rw [Json.wideCodePoint]
  split
  · next e he => exact .short (shortEscape?_unescape? he) h
  · next hnone =>
    split
    · next hctl =>
      obtain ⟨h₁, h₂, h₃, h₄, heq, hn⟩ :=
        fourDigits?_numericEscape (Nat.lt_trans hctl (by decide : 0x20 < 0x10000))
      have hfree : ¬(IsHigh c.val ∧ BeginsLow r) := fun hbad => by
        have := hbad.1.1
        omega
      have hs := Spells.number hn hfree h
      rw [show CodePoint.ofNat c.val = c from CodePoint.ext (ofNat_val c.isLt)] at hs
      rw [heq]
      exact hs
    · next hctl =>
      have hplain : c ≠ ofChar '"' ∧ c ≠ ofChar '\\' := by
        constructor <;> rintro rfl <;> simp [shortEscape?] at hnone
      exact .plain hplain.1 hplain.2 (Nat.not_lt.1 hctl) h

/-- The inside of a written literal spells the text that was written. -/
lemma spells_flatMap_wideCodePoint (t : Text) : Spells (t.flatMap wideCodePoint) t := by
  induction t with
  | nil => exact .nil
  | cons c t ih => exact ih.wideCodePoint c

/-- Where a written literal holds no backslash, it holds the text as it is. -/
lemma flatMap_wideCodePoint_eq_self {t : Text}
    (h : ofChar '\\' ∉ t.flatMap wideCodePoint) : t.flatMap wideCodePoint = t := by
  induction t with
  | nil => rfl
  | cons c t ih =>
    rw [List.flatMap_cons, List.mem_append, not_or] at h
    have hc : wideCodePoint c = [c] := by
      have hno := h.1
      rw [wideCodePoint] at hno ⊢
      split at hno <;> rename_i hs
      · simp at hno
      · split at hno
        · exact absurd (by simp [numericEscape, Text.ofString]) hno
        · next hctl => simp [hctl]
    rw [List.flatMap_cons, hc, ih h.2]
    rfl

end SuggestBridge.Json
