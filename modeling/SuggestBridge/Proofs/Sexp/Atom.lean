import SuggestBridge.Sexp.Reader
import Mathlib.Data.Nat.Digits.Defs

/-!
# The value of a bare lexeme

A bare lexeme is an integer, nil or a symbol by its name alone.  `Atom name v` states the rule;
`atom_eq_ok_iff` says that the reader follows it on every name whose digits it may read, and
`atom_eq_error_iff` that only a name with too many digits has no value.

An integer is written in the form that the rule gives back: `atom_of_write`.
-/

namespace SuggestBridge.Sexp

open CodePoint (ofChar)
open Reader

/-- A run of ASCII digits, one at least. -/
def IsDigits (ds : Text) : Prop := ds ≠ [] ∧ ∀ c ∈ ds, 0x30 ≤ c.val ∧ c.val ≤ 0x39

/-- The number that digits stand for, the most significant first. -/
def decimal (ds : Text) : Nat := Nat.ofDigits 10 (ds.reverse.map fun c => c.val - 0x30)

/-- The name of an integer: digits, with a minus sign before them or not. -/
def IsNumeral (name ds : Text) : Prop := (name = ds ∨ name = ofChar '-' :: ds) ∧ IsDigits ds

/-- What a bare lexeme of some name means. -/
inductive Atom : Text → Sexp → Prop
  | natural {ds : Text} : IsDigits ds → Atom ds (.int (decimal ds))
  | negative {ds : Text} : IsDigits ds → Atom (ofChar '-' :: ds) (.int (-(decimal ds : Int)))
  | nil : Atom (Text.ofString "nil") .nil
  | symbol {name : Text} :
      (¬∃ ds, IsNumeral name ds) → name ≠ Text.ofString "nil" → Atom name (.symbol name)

/-! ## Numerals -/

lemma isDigits_iff {ds : Text} :
    (!ds.isEmpty && ds.all CodePoint.isAsciiDigit) = true ↔ IsDigits ds := by
  simp [IsDigits, CodePoint.isAsciiDigit]

lemma IsDigits.ne_minus {ds r : Text} (h : IsDigits ds) : ds ≠ ofChar '-' :: r := by
  rintro rfl
  have := h.2 (ofChar '-') (by simp)
  exact absurd this (by decide)

lemma IsNumeral.length_le {name ds : Text} (h : IsNumeral name ds) : ds.length ≤ name.length := by
  obtain ⟨rfl | rfl, -⟩ := h
  · exact Nat.le_refl _
  · exact Nat.le_succ _

/-- The digits that the reader takes for the values of a run. -/
lemma integerDigits?_natural {ds : Text} (h : IsDigits ds) :
    integerDigits? ds = some (false, ds.map fun c => c.val - 0x30) := by
  cases ds with
  | nil => exact absurd rfl h.1
  | cons c r =>
    have hc : c ≠ ofChar '-' := fun hc => h.ne_minus (congrArg (· :: r) hc)
    simp only [integerDigits?, if_neg hc, isDigits_iff.2 h, if_true]

lemma integerDigits?_negative {ds : Text} (h : IsDigits ds) :
    integerDigits? (ofChar '-' :: ds) = some (true, ds.map fun c => c.val - 0x30) := by
  simp only [integerDigits?, if_true, isDigits_iff.2 h]

lemma integerDigits?_eq_none_iff {name : Text} :
    integerDigits? name = none ↔ ¬∃ ds, IsNumeral name ds := by
  constructor
  · rintro hnone ⟨ds, rfl | rfl, hds⟩
    · simp [integerDigits?_natural hds] at hnone
    · simp [integerDigits?_negative hds] at hnone
  · intro hnot
    cases name with
    | nil => rfl
    | cons c r =>
      by_cases hc : c = ofChar '-'
      · subst hc
        have hr : ¬IsDigits r := fun hr => hnot ⟨r, .inr rfl, hr⟩
        simp only [integerDigits?, if_true, mt isDigits_iff.1 hr, Bool.false_eq_true, if_false]
      · have hcr : ¬IsDigits (c :: r) := fun hcr => hnot ⟨c :: r, .inl rfl, hcr⟩
        simp only [integerDigits?, if_neg hc, mt isDigits_iff.1 hcr,
          Bool.false_eq_true, if_false]

lemma ofDigits_eq_decimal (ds : Text) :
    Integer.ofDigits (ds.map fun c => c.val - 0x30) = decimal ds := by
  rw [Integer.ofDigits, decimal, Nat.ofDigits_eq_foldr, ← List.foldr_reverse, List.map_reverse]
  congr 1
  funext d n
  simp [Nat.add_comm]

/-! ## The reader's rule -/

lemma atom_natural {ds : Text} (h : IsDigits ds) :
    atom ds = if ds.length ≤ Integer.digitLimit then .ok (.int (decimal ds))
      else .error (.digits (.reading ds.length)) := by
  simp only [atom, integerDigits?_natural h, List.length_map, ofDigits_eq_decimal]
  rfl

lemma atom_negative {ds : Text} (h : IsDigits ds) :
    atom (ofChar '-' :: ds) =
      if ds.length ≤ Integer.digitLimit then .ok (.int (-(decimal ds : Int)))
      else .error (.digits (.reading ds.length)) := by
  simp only [atom, integerDigits?_negative h, List.length_map, ofDigits_eq_decimal]
  rfl

lemma atom_of_not_isNumeral {name : Text} (h : ¬∃ ds, IsNumeral name ds) :
    atom name = .ok (if name = Text.ofString "nil" then .nil else .symbol name) := by
  simp only [atom, integerDigits?_eq_none_iff.2 h]

lemma IsNumeral.unique {name ds ds' : Text} (h : IsNumeral name ds) (h' : IsNumeral name ds') :
    ds = ds' := by
  obtain ⟨rfl | rfl, hds⟩ := h
  · obtain ⟨rfl | rfl, hds'⟩ := h'
    · rfl
    · exact absurd rfl hds.ne_minus
  · obtain ⟨rfl | heq, hds'⟩ := h'
    · exact absurd rfl hds'.ne_minus
    · exact (List.cons.inj heq).2

/-- A bare lexeme has the value that it means, if its digits can be read. -/
lemma atom_eq_ok_iff {name : Text} {v : Sexp} :
    atom name = .ok v ↔
      Atom name v ∧ ∀ ds, IsNumeral name ds → ds.length ≤ Integer.digitLimit := by
  constructor
  · intro h
    by_cases hnum : ∃ ds, IsNumeral name ds
    · obtain ⟨ds, hds⟩ := hnum
      have hshort : ds.length ≤ Integer.digitLimit → ∀ ds', IsNumeral name ds' →
          ds'.length ≤ Integer.digitLimit := fun hlen ds' hds' => hds.unique hds' ▸ hlen
      obtain ⟨rfl | rfl, hdigits⟩ := hds
      · rw [atom_natural hdigits] at h
        split at h
        · next hlen =>
          cases h
          exact ⟨.natural hdigits, hshort hlen⟩
        · cases h
      · rw [atom_negative hdigits] at h
        split at h
        · next hlen =>
          cases h
          exact ⟨.negative hdigits, hshort hlen⟩
        · cases h
    · refine ⟨?_, fun ds hds => absurd ⟨ds, hds⟩ hnum⟩
      rw [atom_of_not_isNumeral hnum] at h
      split at h
      · next hnil =>
        cases h
        exact hnil ▸ .nil
      · next hnil =>
        cases h
        exact .symbol hnum hnil
  · rintro ⟨hatom, hshort⟩
    cases hatom with
    | natural hds => rw [atom_natural hds, if_pos (hshort _ ⟨.inl rfl, hds⟩)]
    | negative hds => rw [atom_negative hds, if_pos (hshort _ ⟨.inr rfl, hds⟩)]
    | nil => rfl
    | symbol hnum hnil => rw [atom_of_not_isNumeral hnum, if_neg hnil]

/-- A bare lexeme has no value only where it is a numeral with too many digits. -/
lemma atom_eq_error_iff {name : Text} {e : ReadError} :
    atom name = .error e ↔ ∃ ds, IsNumeral name ds ∧ Integer.digitLimit < ds.length ∧
      e = .digits (.reading ds.length) := by
  constructor
  · intro h
    by_cases hnum : ∃ ds, IsNumeral name ds
    · obtain ⟨ds, rfl | rfl, hds⟩ := hnum
      · rw [atom_natural hds] at h
        split at h
        · cases h
        · cases h
          exact ⟨name, ⟨.inl rfl, hds⟩, by omega, rfl⟩
      · rw [atom_negative hds] at h
        split at h
        · cases h
        · cases h
          exact ⟨ds, ⟨.inr rfl, hds⟩, by omega, rfl⟩
    · rw [atom_of_not_isNumeral hnum] at h
      cases h
  · rintro ⟨ds, ⟨rfl | rfl, hds⟩, hlong, rfl⟩
    · rw [atom_natural hds, if_neg (by omega)]
    · rw [atom_negative hds, if_neg (by omega)]

/-! ## Written integers -/

lemma ofNat_digit_val {d : Nat} (h : d < 10) : (CodePoint.ofNat (0x30 + d)).val = 0x30 + d := by
  simp [CodePoint.ofNat, show 0x30 + d < 0x110000 by omega]

lemma ofNat_of_lt {n : Nat} (h : n < 10) : Text.ofNat n = [CodePoint.ofNat (0x30 + n)] := by
  rw [Text.ofNat, if_pos h]

lemma ofNat_of_le {n : Nat} (h : 10 ≤ n) :
    Text.ofNat n = Text.ofNat (n / 10) ++ [CodePoint.ofNat (0x30 + n % 10)] := by
  rw [Text.ofNat, if_neg (by omega)]

lemma isDigits_ofNat (n : Nat) : IsDigits (Text.ofNat n) := by
  induction n using Nat.strongRecOn with
  | ind n ih =>
    have hlast : ∀ d, d < 10 →
        0x30 ≤ (CodePoint.ofNat (0x30 + d)).val ∧ (CodePoint.ofNat (0x30 + d)).val ≤ 0x39 := by
      intro d hd
      rw [ofNat_digit_val hd]
      omega
    by_cases h : n < 10
    · rw [ofNat_of_lt h]
      exact ⟨by simp, by simpa using hlast n h⟩
    · rw [ofNat_of_le (by omega)]
      obtain ⟨-, hall⟩ := ih (n / 10) (by omega)
      refine ⟨by simp, fun c hc => ?_⟩
      rcases List.mem_append.1 hc with hc | hc
      · exact hall c hc
      · rw [List.mem_singleton.1 hc]
        exact hlast _ (by omega)

lemma decimal_append_digit (ds : Text) {d : Nat} (h : d < 10) :
    decimal (ds ++ [CodePoint.ofNat (0x30 + d)]) = 10 * decimal ds + d := by
  rw [decimal, List.reverse_append, List.reverse_singleton, List.singleton_append, List.map_cons,
    Nat.ofDigits_cons, ofNat_digit_val h, decimal]
  omega

/-- The digits of a written number stand for that number. -/
lemma decimal_ofNat (n : Nat) : decimal (Text.ofNat n) = n := by
  induction n using Nat.strongRecOn with
  | ind n ih =>
    by_cases h : n < 10
    · rw [ofNat_of_lt h]
      exact (decimal_append_digit [] h).trans (by simp [decimal])
    · rw [ofNat_of_le (by omega), decimal_append_digit _ (by omega), ih _ (by omega)]
      omega

lemma length_ofNat_le {n k : Nat} (hk : 0 < k) (h : n < Nat.pow 10 k) :
    (Text.ofNat n).length ≤ k := by
  induction k, hk using Nat.le_induction generalizing n with
  | base =>
    rw [ofNat_of_lt h]
    simp
  | succ k hk ih =>
    by_cases hn : n < 10
    · rw [ofNat_of_lt hn]
      simp
    · have hrest : n / 10 < Nat.pow 10 k := by
        change n < Nat.pow 10 k * 10 at h
        omega
      rw [ofNat_of_le (by omega), List.length_append, List.length_singleton]
      exact Nat.succ_le_succ (ih hrest)

lemma write_of_natAbs_lt {n : Int} {k : Nat} (hk : k ≤ Integer.digitLimit)
    (h : n.natAbs < Nat.pow 10 k) : Integer.write n = .ok (Text.ofInt n) := by
  have hpow : ∀ m, k ≤ m → Nat.pow 10 k ≤ Nat.pow 10 m :=
    fun m hm => Nat.pow_le_pow_right (by decide) hm
  rw [Integer.write, if_pos (Nat.lt_of_lt_of_le h (hpow _ hk))]

/-- A written integer is read back. -/
lemma atom_of_write {n : Int} {t : Text} (h : Integer.write n = .ok t) : atom t = .ok (.int n) := by
  rw [Integer.write] at h
  split at h
  · next hlt =>
    cases h
    have hlen := length_ofNat_le (by decide) hlt
    cases n with
    | ofNat n =>
      rw [Int.natAbs_ofNat'] at hlen
      rw [Text.ofInt, atom_natural (isDigits_ofNat n), if_pos hlen, decimal_ofNat]
      rfl
    | negSucc n =>
      rw [Int.natAbs_negSucc] at hlen
      rw [Text.ofInt, atom_negative (isDigits_ofNat _), if_pos hlen, decimal_ofNat]
      rfl
  · cases h

/-- The spelling of a written integer: digits, with a minus sign before them or not. -/
lemma isNumeral_of_write {n : Int} {t : Text} (h : Integer.write n = .ok t) :
    ∃ ds, IsNumeral t ds := by
  rw [Integer.write] at h
  split at h
  · cases h
    cases n with
    | ofNat n => exact ⟨_, .inl rfl, isDigits_ofNat n⟩
    | negSucc n => exact ⟨_, .inr rfl, isDigits_ofNat (n + 1)⟩
  · cases h

end SuggestBridge.Sexp
