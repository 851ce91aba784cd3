import SuggestBridge.Proofs.Task.Timers
import Mathlib.Data.List.Perm.Basic

/-!
# The heap of timers loses nothing

Adding an entry adds that entry, and taking the first entry takes that entry; all others stay,
though in another order.
-/

namespace SuggestBridge.Task.Timers

variable {α : Type} {heap : Array (Timer α)} {t u : Timer α}

/-- What stands at one place and what is put at another one change places. -/
lemma perm_set_set {i j : Nat} (hi : i < heap.size) (hu : heap[j]? = some u) :
    ((heap.setIfInBounds i u).setIfInBounds j t).Perm (heap.setIfInBounds i t) := by
  obtain ⟨hj, rfl⟩ := Array.getElem?_eq_some_iff.1 hu
  have hswap : (heap.setIfInBounds i heap[j]).setIfInBounds j t =
      (heap.setIfInBounds i t).swap i j (by simpa using hi) (by simpa using hj) := by
    apply Array.ext_getElem?
    intro n
    simp only [Array.swap_def, Array.getElem?_setIfInBounds, Array.getElem?_set,
      Array.size_setIfInBounds]
    by_cases hnj : j = n
    · subst hnj
      simp [hj]
    · by_cases hni : i = n
      · subst hni
        have hlt : j < (heap.setIfInBounds i t).size := by simpa using hj
        have hsame : (heap.setIfInBounds i t)[j] = heap[j] :=
          Array.getElem_setIfInBounds_ne hj (Ne.symm hnj)
        simp [hnj, hi, hsame]
      · simp [hnj, hni]
  rw [hswap]
  exact Array.swap_perm _ _

lemma perm_siftUp {fuel pos : Nat} (hpos : pos < heap.size) :
    (siftUp heap t fuel pos).Perm (heap.setIfInBounds pos t) := by
  induction fuel generalizing heap pos with
  | zero => exact .refl _
  | succ fuel ih =>
    rw [siftUp]
    split
    · exact .refl _
    · dsimp only
      split
      · next p hp =>
        split
        · have habove : (pos - 1) / 2 < (heap.setIfInBounds pos p).size := by
            rw [Array.size_setIfInBounds]
            omega
          exact (ih habove).trans (perm_set_set hpos hp)
        · exact .refl _
      · exact .refl _

/-- An entry is added. -/
lemma perm_push (heap : Array (Timer α)) (t : Timer α) :
    (push heap t).toList.Perm (t :: heap.toList) := by
  have hsift : (push heap t).Perm ((heap.push t).setIfInBounds heap.size t) :=
    perm_siftUp (by simp)
  have hsame : (heap.push t).setIfInBounds heap.size t = heap.push t := by
    apply Array.ext_getElem?
    intro n
    rw [Array.getElem?_setIfInBounds, Array.size_push, Array.getElem?_push]
    split
    · next heq => simp [heq]
    · rfl
  rw [hsame] at hsift
  refine (Array.perm_iff_toList_perm.1 hsift).trans ?_
  rw [Array.toList_push]
  exact List.perm_append_singleton _ _

/-- The gap goes to a leaf; what is put into it could as well have been put where it was. -/
lemma perm_siftDown {fuel pos : Nat} (hpos : pos < heap.size) (t : Timer α) :
    (siftDown heap fuel pos).2 < (siftDown heap fuel pos).1.size ∧
      ((siftDown heap fuel pos).1.setIfInBounds (siftDown heap fuel pos).2 t).Perm
        (heap.setIfInBounds pos t) := by
  induction fuel generalizing heap pos with
  | zero => exact ⟨hpos, .refl _⟩
  | succ fuel ih =>
    -- the entry below moves up, and the gap is where it was
    have moved : ∀ {q : Nat} {u : Timer α}, heap[q]? = some u →
        (siftDown (heap.setIfInBounds pos u) fuel q).2 <
            (siftDown (heap.setIfInBounds pos u) fuel q).1.size ∧
          ((siftDown (heap.setIfInBounds pos u) fuel q).1.setIfInBounds
            (siftDown (heap.setIfInBounds pos u) fuel q).2 t).Perm (heap.setIfInBounds pos t) := by
      intro q u hu
      have hq : q < (heap.setIfInBounds pos u).size := by
        rw [Array.size_setIfInBounds]
        exact (Array.getElem?_eq_some_iff.1 hu).1
      exact ⟨(ih hq).1, (ih hq).2.trans (perm_set_set hpos hu)⟩
    rw [siftDown]
    split
    · next l r hl hr =>
      split
      · exact moved hl
      · exact moved hr
    · next l hl _ => exact moved hl
    · exact ⟨hpos, .refl _⟩

/-- The first entry is taken. -/
lemma perm_pop? {rest : Array (Timer α)} (h : pop? heap = some (t, rest)) :
    heap.toList.Perm (t :: rest.toList) := by
  rw [pop?] at h
  split at h
  · next top last htop hlast =>
    obtain ⟨l, rfl⟩ : ∃ l : List (Timer α), heap = l.toArray := ⟨heap.toList, rfl⟩
    rw [Array.back?, List.getElem?_toArray, List.size_toArray, ← List.getLast?_eq_getElem?] at hlast
    obtain ⟨init, rfl⟩ := List.getLast?_eq_some_iff.1 hlast
    have hpop : (init ++ [last]).toArray.pop = init.toArray := by simp
    simp only [hpop] at h
    cases init with
    | nil =>
      simp at htop h
      obtain ⟨rfl, rfl⟩ := h
      rw [htop]
      simp
    | cons first mid =>
      simp at htop h
      obtain ⟨rfl, rfl⟩ := h
      subst htop
      have hpos : 0 < (first :: mid).toArray.size := by simp
      obtain ⟨hlt, hperm⟩ := @perm_siftDown _ _ (mid.length + 1) 0 hpos last
      have hrest := (@perm_siftUp _ _ last
        (siftDown (first :: mid).toArray (mid.length + 1) 0).1.size _ hlt).trans hperm
      have hlist := Array.perm_iff_toList_perm.1 hrest
      refine .trans ?_ (.cons _ hlist.symm)
      simp
  · cases h

lemma first_of_pop? {rest : Array (Timer α)} (h : pop? heap = some (t, rest)) :
    heap[0]? = some t := by
  rw [pop?] at h
  split at h
  · next top last htop hlast =>
    dsimp only at h
    split at h <;>
    · cases h
      exact htop
  · cases h

end SuggestBridge.Task.Timers
