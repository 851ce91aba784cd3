import SuggestBridge.Supervisor.Slots
import Mathlib.Tactic.Common

/-!
# Slots

Looking up a slot after one was emptied or filled, and the keys of all slots.
-/

namespace SuggestBridge.Supervisor

open SuggestBridge.Task

namespace Slots

lemma get?_erase_self (slots : Slots) (key : Text) : (slots.erase key).get? key = none := by
  simp [get?, erase, List.find?_eq_none]

lemma get?_erase_of_ne (slots : Slots) {key key' : Text} (h : key' ≠ key) :
    (slots.erase key).get? key' = slots.get? key' := by
  rw [get?, get?, erase, List.find?_filter]
  congr 2
  funext e
  by_cases heq : e.1 = key'
  · simp [heq, h]
  · simp [heq]

lemma get?_erase_eq_some {slots : Slots} {key key' : Text} {u : Id}
    (h : (slots.erase key).get? key' = some u) : key' ≠ key ∧ slots.get? key' = some u := by
  by_cases hkey : key' = key
  · subst hkey
    simp [get?_erase_self] at h
  · exact ⟨hkey, by rwa [get?_erase_of_ne slots hkey] at h⟩

lemma nodup_erase {slots : Slots} (h : slots.keys.Nodup) (key : Text) :
    (slots.erase key).keys.Nodup :=
  h.sublist (List.filter_sublist.map _)

lemma nodup_fill {slots : Slots} (h : slots.keys.Nodup) (key : Text) (u : Id) :
    (slots.fill key u).keys.Nodup := by
  have hvacant : key ∉ (slots.erase key).keys := by simp [keys, erase]
  have hkeys : (slots.fill key u).keys = (slots.erase key).keys ++ [key] := by simp [keys, fill]
  rw [hkeys]
  refine List.nodup_append.2 ⟨nodup_erase h key, List.pairwise_singleton _ key, ?_⟩
  rintro k hk l hl rfl
  exact hvacant (List.mem_singleton.1 hl ▸ hk)

/-- No key has two slots. -/
lemma get?_of_mem {slots : Slots} (h : slots.keys.Nodup) {key : Text} {u : Id}
    (hmem : (key, u) ∈ slots.entries) : slots.get? key = some u := by
  obtain ⟨entries⟩ := slots
  induction entries with
  | nil => cases hmem
  | cons e entries ih =>
    obtain ⟨hnot, hrest⟩ := List.nodup_cons.1 h
    rcases List.mem_cons.1 hmem with rfl | hmem
    · simp [get?]
    · have hne : (e.1 == key) = false := by
        simpa using fun heq : e.1 = key => hnot (heq ▸ List.mem_map.2 ⟨_, hmem, rfl⟩)
      rw [← ih hrest hmem, get?, get?, List.find?_cons, hne]

lemma get?_fill_self (slots : Slots) (key : Text) (u : Id) :
    (slots.fill key u).get? key = some u := by
  have hnone : (slots.erase key).entries.find? (fun e => e.1 == key) = none := by
    simp [erase, List.find?_eq_none]
  rw [get?, fill, List.find?_append, hnone]
  simp

lemma get?_fill_of_ne (slots : Slots) {key key' : Text} (u : Id) (h : key' ≠ key) :
    (slots.fill key u).get? key' = slots.get? key' := by
  rw [← get?_erase_of_ne slots h, get?, get?, fill, List.find?_append]
  simp [Ne.symm h]

end Slots

end SuggestBridge.Supervisor
