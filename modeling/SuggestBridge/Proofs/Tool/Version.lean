import SuggestBridge.Tool.Version
import SuggestBridge.Proofs.Text.Pieces
import Mathlib.Data.Int.Order.Basic
import Mathlib.Data.List.Lex
import Mathlib.Tactic.Lemma

/-!
# Versions in numeric order

Two versions are compared component by component until one of them ends, two numbers differ, or a
component is no number.  Only what the components read as counts (`readings`), and nothing counts
behind the first difference: a version is not at least another one exactly if it falls short at some
place (`FallsShortAt`).

Between versions of numbers this is the lexicographic order of the numbers on the length that both
have (`atLeast_iff_take_le`), and the laws of an order follow from it.  `atLeast_compares` puts all
of this together.
-/

namespace SuggestBridge.Version

open CodePoint (ofChar)

/-! ## Where a version falls short -/

/-- What the components of a version read as; a component that is no number reads as nothing. -/
def readings (v : Text) : List (Option ℤ) := (Text.splitAt (ofChar '.') v).map Integer.read?

/-- A component decides against the first version: one of the two is no number, or the first is the
smaller number. -/
def FallsShort (a b : Option ℤ) : Prop :=
  a = none ∨ b = none ∨ ∃ m n, a = some m ∧ b = some n ∧ m < n

/-- The first version falls short at a place, and before it both hold the same numbers. -/
structure FallsShortAt (as bs : List (Option ℤ)) (i : ℕ) : Prop where
  same : ∀ j < i, ∃ n, as[j]? = some (some n) ∧ bs[j]? = some (some n)
  here : ∃ a b, as[i]? = some a ∧ bs[i]? = some b ∧ FallsShort a b

section Components

variable {a b : Option ℤ} {as bs : List (Option ℤ)} {hs ws : List Text} {ms ns : List ℤ}

lemma fallsShortAt_zero : FallsShortAt (a :: as) (b :: bs) 0 ↔ FallsShort a b := by
  constructor
  · rintro ⟨-, a', b', ha, hb, hshort⟩
    obtain rfl := Option.some.inj ha
    obtain rfl := Option.some.inj hb
    exact hshort
  · intro hshort
    exact ⟨fun j hj => absurd hj (Nat.not_lt_zero j), a, b, rfl, rfl, hshort⟩

lemma fallsShortAt_succ {i : ℕ} : FallsShortAt (a :: as) (b :: bs) (i + 1) ↔
    (∃ n, a = some n ∧ b = some n) ∧ FallsShortAt as bs i := by
  constructor
  · rintro ⟨hsame, hhere⟩
    obtain ⟨n, ha, hb⟩ := hsame 0 (Nat.succ_pos i)
    exact ⟨⟨n, Option.some.inj ha, Option.some.inj hb⟩,
      fun j hj => hsame (j + 1) (Nat.succ_lt_succ hj), hhere⟩
  · rintro ⟨⟨n, rfl, rfl⟩, hsame, hhere⟩
    refine ⟨fun j hj => ?_, hhere⟩
    cases j with
    | zero => exact ⟨n, rfl, rfl⟩
    | succ j => exact hsame j (Nat.lt_of_succ_lt_succ hj)

/-- The first place decides, or it holds the same number twice and a later place decides. -/
lemma exists_fallsShortAt_cons : (∃ i, FallsShortAt (a :: as) (b :: bs) i) ↔
    FallsShort a b ∨ (∃ n, a = some n ∧ b = some n) ∧ ∃ i, FallsShortAt as bs i := by
  rw [← Nat.or_exists_add_one, fallsShortAt_zero]
  simp only [fallsShortAt_succ, exists_and_left]

lemma not_fallsShortAt_of_nil {i : ℕ} (h : as = [] ∨ bs = []) : ¬FallsShortAt as bs i := by
  rintro ⟨-, a, b, ha, hb, -⟩
  rcases h with rfl | rfl
  · cases ha
  · cases hb

lemma fallsShort_some {m n : ℤ} : FallsShort (some m) (some n) ↔ m < n := by simp [FallsShort]

/-- The comparison of components ends against the first list where that falls short, by the
recursion of the comparison: each step looks at the first place only. -/
lemma atLeastComponents_eq_false_iff : atLeastComponents hs ws = false ↔
    ∃ i, FallsShortAt (hs.map Integer.read?) (ws.map Integer.read?) i := by
  fun_induction atLeastComponents hs ws with
  | case1 have' hs want ws m hm hn ih =>
    -- the same number twice: a later place decides
    rw [ih, List.map_cons, List.map_cons, exists_fallsShortAt_cons, hm, hn, fallsShort_some]
    simp
  | case2 have' hs want ws m n hm hn hne =>
    rw [List.map_cons, List.map_cons, exists_fallsShortAt_cons, hm, hn, fallsShort_some]
    have hdiffer : ¬∃ k, some m = some k ∧ some n = some k := by
      rintro ⟨k, hmk, hnk⟩
      exact hne (Option.some.inj (hmk.trans hnk.symm))
    rw [decide_eq_false_iff_not]
    constructor
    · intro hlt
      exact .inl (by omega)
    · rintro (hlt | ⟨hsame, -⟩)
      · omega
      · exact absurd hsame hdiffer
  | case3 have' hs want ws hnone =>
    rw [List.map_cons, List.map_cons, exists_fallsShortAt_cons]
    refine iff_of_true rfl (.inl ?_)
    cases hm : Integer.read? have' with
    | none => exact .inl rfl
    | some m =>
      cases hn : Integer.read? want with
      | none => exact .inr (.inl rfl)
      | some n => exact absurd hn (hnone m n hm)
  | case4 hs ws hnil =>
    refine iff_of_false (by decide) ?_
    rintro ⟨i, hfalls⟩
    refine not_fallsShortAt_of_nil ?_ hfalls
    cases hs with
    | nil => exact .inl rfl
    | cons h hs =>
      cases ws with
      | nil => exact .inr rfl
      | cons w ws => exact (hnil h hs w ws rfl rfl).elim

/-! ## The order of the numbers -/

lemma cons_le_cons_iff {m n : ℤ} : n :: ns ≤ m :: ms ↔ n < m ∨ n = m ∧ ns ≤ ms := by
  rw [← not_lt, List.cons_lt_cons_iff, ← not_lt (a := ms), not_or, not_lt, not_and, le_iff_lt_or_eq]
  constructor
  · rintro ⟨hlt | rfl, hrest⟩
    · exact .inl hlt
    · exact .inr ⟨rfl, hrest rfl⟩
  · rintro (hlt | ⟨rfl, hrest⟩)
    · exact ⟨.inl hlt, fun heq => absurd heq hlt.ne'⟩
    · exact ⟨.inr rfl, fun _ => hrest⟩

/-- Lists of numbers are compared in the lexicographic order, on the length that both have. -/
lemma atLeastComponents_iff_take_le (hms : hs.map Integer.read? = ms.map some)
    (hns : ws.map Integer.read? = ns.map some) :
    atLeastComponents hs ws = true ↔
      ns.take (min ms.length ns.length) ≤ ms.take (min ms.length ns.length) := by
  induction ms generalizing hs ws ns with
  | nil =>
    obtain rfl := List.map_eq_nil_iff.1 hms
    simp [atLeastComponents]
  | cons m ms ih =>
    cases ns with
    | nil =>
      obtain rfl := List.map_eq_nil_iff.1 hns
      simp [atLeastComponents]
    | cons n ns =>
      obtain ⟨h, hs, rfl, hm, hms⟩ := List.map_eq_cons_iff.1 hms
      obtain ⟨w, ws, rfl, hn, hns⟩ := List.map_eq_cons_iff.1 hns
      rw [List.length_cons, List.length_cons, Nat.succ_min_succ, List.take_succ_cons,
        List.take_succ_cons, cons_le_cons_iff, ← ih hms hns, atLeastComponents, hm, hn]
      by_cases hmn : m = n
      · simp [hmn]
      · simp [hmn, Ne.symm hmn]

end Components

/-! ## Versions -/

variable {a a' b : Text} {ms ns : List ℤ}

/-- An empty version has one component, which is no number. -/
lemma atLeast_some (a b : Text) : atLeast (some a) b =
    atLeastComponents (Text.splitAt (ofChar '.') a) (Text.splitAt (ofChar '.') b) := by
  cases a with
  | nil =>
    obtain ⟨want, ws, hb⟩ := Text.exists_splitAt_eq (ofChar '.') b
    have hempty : Integer.read? [] = none := rfl
    rw [hb, Text.splitAt, atLeastComponents, hempty]
    rfl
  | cons c r => rfl

lemma atLeast_eq_false_iff : atLeast (some a) b = false ↔
    ∃ i, FallsShortAt (readings a) (readings b) i := by
  rw [atLeast_some, atLeastComponents_eq_false_iff, readings, readings]

/-- Versions of numbers are compared in the lexicographic order of the numbers. -/
lemma atLeast_iff_take_le (ha : readings a = ms.map some) (hb : readings b = ns.map some) :
    atLeast (some a) b = true ↔
      ns.take (min ms.length ns.length) ≤ ms.take (min ms.length ns.length) := by
  rw [atLeast_some]
  exact atLeastComponents_iff_take_le ha hb

/-- Only what the components read as counts. -/
lemma atLeast_congr {b' : Text} (ha : readings a' = readings a) (hb : readings b' = readings b) :
    atLeast (some a') b' = atLeast (some a) b := by
  rw [← Bool.not_inj_iff, Bool.eq_iff_iff, Bool.not_eq_true', Bool.not_eq_true',
    atLeast_eq_false_iff, atLeast_eq_false_iff, ha, hb]

/-- Another spelling of a component reads as the same. -/
lemma readings_of_respelled {before after : List Text} {spelt spelt' : Text}
    (ha : Text.splitAt (ofChar '.') a = before ++ spelt :: after)
    (ha' : Text.splitAt (ofChar '.') a' = before ++ spelt' :: after)
    (h : Integer.read? spelt' = Integer.read? spelt) : readings a' = readings a := by
  simp only [readings, ha, ha', List.map_append, List.map_cons, h]

/-- What the comparison of two versions promises. -/
structure Compares (a b : Text) : Prop where
  /-- A version is not at least another one exactly if it falls short at some place: up to there
  both hold the same numbers. -/
  decided : atLeast (some a) b = false ↔ ∃ i, FallsShortAt (readings a) (readings b) i
  /-- An unknown version and an empty one are at least none. -/
  unknown : atLeast none b = false ∧ atLeast (some []) b = false
  /-- Versions of numbers, cut to the length that both have, are in lexicographic order. -/
  numeric : ∀ ms ns : List ℤ, readings a = ms.map some → readings b = ns.map some →
    (atLeast (some a) b = true ↔
      ns.take (min ms.length ns.length) ≤ ms.take (min ms.length ns.length))
  reflexive : ∀ ms : List ℤ, readings a = ms.map some → atLeast (some a) a = true
  total : ∀ ms ns : List ℤ, readings a = ms.map some → readings b = ns.map some →
    atLeast (some a) b = true ∨ atLeast (some b) a = true
  /-- Versions of as many numbers are in one order. -/
  transitive : ∀ (c : Text) (ms ns ks : List ℤ), readings a = ms.map some →
    readings b = ns.map some → readings c = ks.map some → ms.length = ns.length →
    ns.length = ks.length → atLeast (some a) b = true → atLeast (some b) c = true →
    atLeast (some a) c = true
  /-- A component can be replaced by another spelling of its number, on either side. -/
  respelled : ∀ (a' : Text) (before after : List Text) (spelt spelt' : Text) (n : ℤ),
    Text.splitAt (ofChar '.') a = before ++ spelt :: after →
    Text.splitAt (ofChar '.') a' = before ++ spelt' :: after →
    Integer.read? spelt = some n → Integer.read? spelt' = some n →
    atLeast (some a') b = atLeast (some a) b ∧ atLeast (some b) a' = atLeast (some b) a

/-- Versions are compared in the order of their numbers. -/
theorem atLeast_compares (a b : Text) : Compares a b where
  decided := atLeast_eq_false_iff
  unknown := ⟨rfl, rfl⟩
  numeric _ _ ha hb := atLeast_iff_take_le ha hb
  reflexive ms ha := (atLeast_iff_take_le ha ha).2 le_rfl
  total ms ns ha hb := by
    rw [atLeast_iff_take_le ha hb, atLeast_iff_take_le hb ha, min_comm ns.length ms.length]
    exact le_total _ _
  transitive c ms ns ks ha hb hc hab hbc hfirst hsecond := by
    rw [atLeast_iff_take_le ha hb, hab, min_self, List.take_length, ← hab, List.take_length]
      at hfirst
    rw [atLeast_iff_take_le hb hc, hbc, min_self, List.take_length, ← hbc, List.take_length]
      at hsecond
    rw [atLeast_iff_take_le ha hc, hab, hbc, min_self, List.take_length, ← hbc, ← hab,
      List.take_length]
    exact hsecond.trans hfirst
  respelled a' before after spelt spelt' n ha ha' hn hn' := by
    have hsame : readings a' = readings a := readings_of_respelled ha ha' (hn'.trans hn.symm)
    exact ⟨atLeast_congr hsame rfl, atLeast_congr rfl hsame⟩

/-- What continues a version counts neither for nor against it. -/
example : atLeast (some "2.0") "2.0.1" = true ∧ atLeast (some "2.0") "2.1" = false := by decide

end SuggestBridge.Version
