import SuggestBridge.Text.Basic
import Mathlib.Data.List.Basic

/-!
# Pieces of texts

A text is cut at a code point and put together again.  Pieces that are joined are found again when
the whole is cut (`splitAt_join`), as long as none of them holds the separator.
-/

namespace SuggestBridge.Text

variable {sep : CodePoint}

/-! ## Cutting -/

lemma splitAt_sep (r : Text) : splitAt sep (sep :: r) = [] :: splitAt sep r := if_pos rfl

lemma splitAt_cons {c : CodePoint} (hc : c ≠ sep) {r p : Text} {ps : List Text}
    (h : splitAt sep r = p :: ps) : splitAt sep (c :: r) = (c :: p) :: ps :=
  (if_neg hc).trans (by rw [h])

/-- Cutting gives at least one piece. -/
lemma exists_splitAt_eq (sep : CodePoint) (t : Text) : ∃ p ps, splitAt sep t = p :: ps := by
  induction t with
  | nil => exact ⟨[], [], rfl⟩
  | cons c r ih =>
    by_cases hc : c = sep
    · subst hc
      exact ⟨[], _, splitAt_sep r⟩
    · obtain ⟨p, ps, hr⟩ := ih
      exact ⟨c :: p, ps, splitAt_cons hc hr⟩

/-- A text is cut at each separator that it holds. -/
lemma splitAt_append_sep (a b : Text) :
    splitAt sep (a ++ sep :: b) = splitAt sep a ++ splitAt sep b := by
  induction a with
  | nil => exact splitAt_sep b
  | cons c r ih =>
    rw [List.cons_append]
    by_cases hc : c = sep
    · subst hc
      rw [splitAt_sep, splitAt_sep, ih, List.cons_append]
    · obtain ⟨p, ps, hr⟩ := exists_splitAt_eq sep r
      rw [hr, List.cons_append] at ih
      rw [splitAt_cons hc ih, splitAt_cons hc hr, List.cons_append]

lemma splitAt_of_not_mem {t : Text} (h : sep ∉ t) : splitAt sep t = [t] := by
  induction t with
  | nil => rfl
  | cons c r ih =>
    rw [List.mem_cons, not_or] at h
    exact splitAt_cons (Ne.symm h.1) (ih h.2)

lemma not_mem_of_mem_splitAt {t p : Text} (h : p ∈ splitAt sep t) : sep ∉ p := by
  induction t generalizing p with
  | nil =>
    rw [List.mem_singleton.1 h]
    exact List.not_mem_nil
  | cons c r ih =>
    by_cases hc : c = sep
    · subst hc
      rw [splitAt_sep] at h
      rcases List.mem_cons.1 h with rfl | h
      · exact List.not_mem_nil
      · exact ih h
    · obtain ⟨q, qs, hr⟩ := exists_splitAt_eq sep r
      rw [hr] at ih
      rw [splitAt_cons hc hr] at h
      rcases List.mem_cons.1 h with rfl | h
      · rw [List.mem_cons, not_or]
        exact ⟨Ne.symm hc, ih (List.mem_cons_self ..)⟩
      · exact ih (List.mem_cons_of_mem q h)

lemma splitAt_replicate_append (n : Nat) (t : Text) :
    splitAt sep (List.replicate n sep ++ t) = List.replicate n [] ++ splitAt sep t := by
  induction n with
  | zero => rfl
  | succ n ih =>
    rw [List.replicate_succ, List.cons_append, splitAt_sep, ih, List.replicate_succ,
      List.cons_append]

/-! ## Joining -/

lemma join_singleton (t : Text) : join [sep] [t] = t := rfl

lemma join_cons (t : Text) {ts : List Text} (h : ts ≠ []) :
    join [sep] (t :: ts) = t ++ sep :: join [sep] ts := by
  obtain ⟨u, us, rfl⟩ := List.exists_cons_of_ne_nil h
  exact List.append_assoc t [sep] _

lemma join_append {ts us : List Text} (hts : ts ≠ []) (hus : us ≠ []) :
    join [sep] (ts ++ us) = join [sep] ts ++ sep :: join [sep] us := by
  induction ts with
  | nil => exact absurd rfl hts
  | cons t ts ih =>
    by_cases h : ts = []
    · subst h
      exact join_cons t hus
    · rw [List.cons_append, join_cons t (List.append_ne_nil_of_left_ne_nil h us), ih h, join_cons t h,
        List.append_assoc, List.cons_append]

/-- Joined pieces are found again. -/
lemma splitAt_join {ts : List Text} (hne : ts ≠ []) (h : ∀ t ∈ ts, sep ∉ t) :
    splitAt sep (join [sep] ts) = ts := by
  induction ts with
  | nil => exact absurd rfl hne
  | cons t ts ih =>
    have ht := splitAt_of_not_mem (h t (List.mem_cons_self ..))
    by_cases hts : ts = []
    · subst hts
      exact ht
    · rw [join_cons t hts, splitAt_append_sep, ht, ih hts fun u hu => h u (.tail t hu),
        List.singleton_append]

lemma join_eq_nil_iff {ts : List Text} (h : ∀ t ∈ ts, t ≠ []) : join [sep] ts = [] ↔ ts = [] := by
  refine ⟨fun hjoin => ?_, fun hts => by rw [hts]; rfl⟩
  cases ts with
  | nil => rfl
  | cons t ts =>
    by_cases hts : ts = []
    · subst hts
      exact absurd hjoin (h t (List.mem_cons_self ..))
    · rw [join_cons t hts] at hjoin
      exact absurd (List.append_eq_nil_iff.1 hjoin).2 (List.cons_ne_nil _ _)

/-- A joined text begins as its first piece does. -/
lemma head?_join_ne {ts : List Text} (hne : ∀ t ∈ ts, t ≠ []) (hsep : ∀ t ∈ ts, sep ∉ t) :
    (join [sep] ts).head? ≠ some sep := by
  cases ts with
  | nil => exact nofun
  | cons t ts =>
    obtain ⟨c, r, rfl⟩ := List.exists_cons_of_ne_nil (hne _ (List.mem_cons_self ..))
    have hc : c ≠ sep := fun h => hsep _ (List.mem_cons_self ..) (h ▸ List.mem_cons_self ..)
    by_cases hts : ts = []
    · subst hts
      simpa [join_singleton] using hc
    · simpa [join_cons _ hts] using hc

/-- A joined text ends as its last piece does. -/
lemma getLast?_join_ne {ts : List Text} (hne : ∀ t ∈ ts, t ≠ []) (hsep : ∀ t ∈ ts, sep ∉ t) :
    (join [sep] ts).getLast? ≠ some sep := by
  induction ts with
  | nil => exact nofun
  | cons t ts ih =>
    by_cases hts : ts = []
    · subst hts
      exact fun h => hsep t (List.mem_cons_self ..) (List.mem_of_getLast? h)
    · have hrest : join [sep] ts ≠ [] :=
        (join_eq_nil_iff fun u hu => hne u (.tail t hu)).not.2 hts
      have hlast : (t ++ sep :: join [sep] ts).getLast? = (join [sep] ts).getLast? := by
        rw [List.getLast?_append_of_ne_nil _ (List.cons_ne_nil _ _),
          List.getLast?_cons_of_ne_nil hrest]
      rw [join_cons t hts, hlast]
      exact ih (fun u hu => hne u (.tail t hu)) fun u hu => hsep u (.tail t hu)

end SuggestBridge.Text
