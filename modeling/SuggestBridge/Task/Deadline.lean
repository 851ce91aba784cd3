import SuggestBridge.Task.Progress

/-!
# Deadlines

Waiting for a task no longer than some time. When the time is over, or when whoever waits is asked
to cancel, the task is asked to cancel, and the wait goes on until it has ended. A task that ends
before that is noticed still counts as having ended in time.
-/

namespace SuggestBridge.Task

/-- Where a wait with a deadline stands. -/
inductive Deadline where
  /-- The task works; `waiter` is settled by its end or by the timer. -/
  | waiting (task waiter : Id) (timer : Nat)
  /-- The task was asked to cancel; `waiter` is settled by its end. -/
  | cancelling (task waiter : Id) (timer : Option Nat) (interrupted : Bool)

namespace Deadline

variable {ρ κ ν ε : Type}

/-- How a wait with a deadline ends. -/
inductive Ending (ν ε : Type) where
  /-- As the task ended. -/
  | settled (o : Outcome ν ε)
  /-- The time was over before the task had ended. -/
  | expired

/-- How far a wait came. -/
inductive Step (ν ε : Type) where
  | waits (d : Deadline) (future : Id)
  | ends (e : Ending ν ε)

/-- Asks a task to cancel, and waits for its end. -/
def abandon (k : Kernel ρ κ ν ε) (task : Id) (timer : Option Nat) (interrupted : Bool) :
    Kernel ρ κ ν ε × Step ν ε :=
  let (k, waiter) := k.fresh
  let k := k.watch task (.release waiter)
  let (k, _) := k.cancel task
  (k, .waits (.cancelling task waiter timer interrupted) waiter)

/-- Begins a task and waits for it. Without any time to wait it is asked to cancel at once. -/
def begin (k : Kernel ρ κ ν ε) (timeout : Float) (body : ρ) : Kernel ρ κ ν ε × Step ν ε :=
  if timeout ≤ 0 then
    let (k, task) := k.spawn body
    abandon k task none false
  else
    let (k, waiter) := k.fresh
    let (k, timer) := k.after timeout (.complete waiter)
    let (k, task) := k.spawn body
    let k := k.watch task (.release waiter)
    (k, .waits (.waiting task waiter timer) waiter)

/-- Ends a wait as its task ended. -/
def conclude (k : Kernel ρ κ ν ε) (task : Id) : Step ν ε :=
  match k.outcome? task with
  | some o => .ends (.settled o)
  | none => .ends .expired

/-- Disarms the timer of a wait that ends. -/
def disarm (k : Kernel ρ κ ν ε) (timer : Option Nat) : Kernel ρ κ ν ε :=
  match timer with
  | some t => k.disarm t
  | none => k

/-- Goes on with a wait. -/
def resume (k : Kernel ρ κ ν ε) (d : Deadline) (input : Outcome ν ε) :
    Kernel ρ κ ν ε × Step ν ε :=
  match d with
  | waiting task waiter timer =>
    if k.isDone task then (k.disarm timer, conclude k task)
    else
      let interrupted := match input with
        | .cancelled => true
        | _ => false
      abandon (k.unwatch task waiter) task (some timer) interrupted
  | cancelling task waiter timer interrupted =>
    let k := disarm (k.unwatch task waiter) timer
    match input, interrupted, k.outcome? task with
    | .cancelled, _, _ => (k, .ends (.settled .cancelled))
    | _, true, _ => (k, .ends (.settled .cancelled))
    | _, false, some (.value v) => (k, .ends (.settled (.value v)))
    | _, false, some (.failure e) => (k, .ends (.settled (.failure e)))
    | _, false, _ => (k, .ends .expired)

end Deadline

end SuggestBridge.Task
