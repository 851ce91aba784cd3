import SuggestBridge.Task.Kernel

/-!
# Routines that run until they wait

A routine is a value that says where it goes on. Running it yields the next such value together
with the future that it waits for, or its end.
-/

namespace SuggestBridge.Task

/-- How far a routine came: `σ` says where it goes on, `α` is its result. -/
inductive Progress (σ α ε : Type) where
  | waits (state : σ) (future : Id)
  | ends (outcome : Outcome α ε)

/-- Goes on when a part of a routine has ended; `wrap` says where the whole routine is while the
part waits. The state of the world is passed along. -/
def Progress.andThen {ω σ τ α β ε : Type} (part : ω × Progress σ α ε) (wrap : σ → τ)
    (next : ω → Outcome α ε → ω × Progress τ β ε) : ω × Progress τ β ε :=
  match part with
  | (w, .waits state future) => (w, .waits (wrap state) future)
  | (w, .ends o) => next w o

/-- Applies a function to the value of an outcome. -/
def Outcome.map {α β ε : Type} (f : α → β) : Outcome α ε → Outcome β ε
  | .value v => .value (f v)
  | .failure e => .failure e
  | .cancelled => .cancelled

/-- The outcome of a result. -/
def Outcome.ofExcept {α ε : Type} : Except ε α → Outcome α ε
  | .ok v => .value v
  | .error e => .failure e

end SuggestBridge.Task
