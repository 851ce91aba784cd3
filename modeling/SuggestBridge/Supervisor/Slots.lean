import SuggestBridge.Task.Kernel
import SuggestBridge.Text.Basic

/-!
# Slots

A supervisor keeps one slot per project: the task that starts the project's daemon, which stays in
the slot after it has ended. The order of the slots is that in which they were filled.
-/

namespace SuggestBridge.Supervisor

/-- The startup tasks by project key, no key twice. -/
structure Slots where
  entries : List (Text × Task.Id) := []

namespace Slots

/-- The task in the slot of a key. -/
def get? (s : Slots) (key : Text) : Option Task.Id :=
  (s.entries.find? fun e => e.1 == key).map Prod.snd

/-- Empties the slot of a key. -/
def erase (s : Slots) (key : Text) : Slots := ⟨s.entries.filter fun e => e.1 != key⟩

/-- Fills the empty slot of a key. -/
def fill (s : Slots) (key : Text) (task : Task.Id) : Slots :=
  ⟨(s.erase key).entries ++ [(key, task)]⟩

/-- Empties the slot of a key if it holds the given task. -/
def release (s : Slots) (key : Text) (task : Task.Id) : Slots :=
  if s.get? key = some task then s.erase key else s

/-- The keys of all slots. -/
def keys (s : Slots) : List Text := s.entries.map Prod.fst

end Slots

end SuggestBridge.Supervisor
