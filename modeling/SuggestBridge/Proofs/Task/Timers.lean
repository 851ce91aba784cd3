import SuggestBridge.Task.Timers
import Mathlib.Tactic.Common

/-!
# The heap of timers holds what was put into it

Whatever the order in the heap, its operations neither invent timers nor change their jobs.
-/

namespace SuggestBridge.Task.Timers

variable {α : Type} {heap : Array (Timer α)} {t t' : Timer α}

lemma mem_siftUp {fuel pos : Nat} (h : t' ∈ siftUp heap t fuel pos) : t' ∈ heap ∨ t' = t := by
  induction fuel generalizing heap pos with
  | zero => exact Array.mem_or_eq_of_mem_setIfInBounds h
  | succ fuel ih =>
    rw [siftUp] at h
    split at h
    · exact Array.mem_or_eq_of_mem_setIfInBounds h
    · dsimp only at h
      split at h
      · next p hp =>
        split at h
        · rcases ih h with h | h
          · rcases Array.mem_or_eq_of_mem_setIfInBounds h with h | rfl
            · exact .inl h
            · exact .inl (Array.mem_of_getElem? hp)
          · exact .inr h
        · exact Array.mem_or_eq_of_mem_setIfInBounds h
      · exact Array.mem_or_eq_of_mem_setIfInBounds h

lemma mem_push (h : t' ∈ push heap t) : t' ∈ heap ∨ t' = t := by
  rcases mem_siftUp h with h | h
  · exact Array.mem_push.1 h
  · exact .inr h

lemma mem_siftDown {fuel pos : Nat} (h : t' ∈ (siftDown heap fuel pos).1) : t' ∈ heap := by
  induction fuel generalizing heap pos with
  | zero => exact h
  | succ fuel ih =>
    -- an entry that moves up was in the heap
    have moved : ∀ {i : Nat} {u : Timer α} {q : Nat}, heap[i]? = some u →
        t' ∈ (siftDown (heap.setIfInBounds pos u) fuel q).1 → t' ∈ heap := by
      intro i u q hu h
      rcases Array.mem_or_eq_of_mem_setIfInBounds (ih h) with h | rfl
      · exact h
      · exact Array.mem_of_getElem? hu
    rw [siftDown] at h
    split at h
    · next l r hl hr =>
      split at h
      · exact moved hl h
      · exact moved hr h
    · next l hl _ => exact moved hl h
    · exact h

lemma mem_of_mem_pop (h : t' ∈ heap.pop) : t' ∈ heap := by
  rw [← Array.mem_toList_iff, Array.toList_pop] at h
  exact Array.mem_toList_iff.1 ((List.dropLast_sublist _).subset h)

lemma mem_pop? {rest : Array (Timer α)} (h : pop? heap = some (t, rest)) :
    t ∈ heap ∧ ∀ t' ∈ rest, t' ∈ heap := by
  rw [pop?] at h
  split at h
  · next top last htop hlast =>
    have hback : last ∈ heap := Array.mem_of_back? hlast
    dsimp only at h
    split at h
    · cases h
      exact ⟨Array.mem_of_getElem? htop, fun t' ht' => mem_of_mem_pop ht'⟩
    · cases h
      refine ⟨Array.mem_of_getElem? htop, fun t' ht' => ?_⟩
      rcases mem_siftUp ht' with ht' | rfl
      · exact mem_of_mem_pop (mem_siftDown ht')
      · exact hback
  · cases h

lemma job_of_mem_cancel {id : Nat} (h : t' ∈ cancel heap id) : ∃ u ∈ heap, u.job = t'.job := by
  obtain ⟨u, hu, rfl⟩ := Array.mem_map.1 h
  refine ⟨u, hu, ?_⟩
  split <;> rfl

end SuggestBridge.Task.Timers
