import SuggestBridge.Task.Timers

/-!
# Cooperative tasks

Tasks run one at a time, each until it waits for a future. A future is settled once, by a value, a
failure or a cancellation; whoever watches it is then put at the end of one queue of jobs, and time
passes only when the queue is empty. A task is a future too: it is settled when its routine ends.

The kernel is generic. `ρ` is the type of routines, suspended at a point where they wait; `κ` names
what the owner of the kernel wants to be told; `ν` and `ε` are values and failures. The kernel says
what comes next and does its own bookkeeping; the owner runs routines and hooks.
-/

namespace SuggestBridge.Task

/-- The name of a future. -/
abbrev Id := Nat

/-- How a future is settled. -/
inductive Outcome (ν ε : Type) where
  | value (v : ν)
  | failure (e : ε)
  | cancelled

/-- Who is told that a future is settled. -/
inductive Watcher (κ : Type) where
  /-- The task goes on with the outcome. -/
  | wake (task : Id)
  /-- The outcome settles another future. -/
  | relay (target : Id)
  /-- Another future is settled by the default value. -/
  | release (waiter : Id)
  /-- Another future is settled by the default value once it has been told often enough. -/
  | countdown (waiter : Id)
  /-- A group of tasks takes note. -/
  | gather (group : Id)
  /-- The owner is told. -/
  | hook (k : κ)

/-- What is to be done next, or when a timer is due. -/
inductive Job (κ : Type) where
  /-- A task begins. -/
  | start (task : Id)
  /-- A task that gave way goes on. -/
  | proceed (task : Id)
  /-- A watcher is told about a settled future. -/
  | notify (watcher : Watcher κ) (source : Id)
  /-- A future that still waits is settled by the default value. -/
  | complete (future : Id)
  /-- The owner is told. -/
  | hook (k : κ)

/-- The state of a task that has not ended. -/
structure Activity (ρ : Type) where
  /-- Where the task goes on; nothing while it runs. -/
  body : Option ρ
  /-- The future that the task waits for. -/
  waitingFor : Option Id := none
  /-- The next step of the task is to be a cancellation. -/
  mustCancel : Bool := false
  /-- How often the task was asked to cancel. -/
  cancelRequests : Nat := 0

/-- A future. -/
structure Future (ρ κ ν ε : Type) where
  outcome : Option (Outcome ν ε) := none
  watchers : List (Watcher κ) := []
  /-- The task whose end settles the future. -/
  activity : Option (Activity ρ) := none
  /-- How many members of a group or countdown have not reported. -/
  awaited : Nat := 0
  /-- The members of a group, to which a cancellation is passed on. -/
  members : List Id := []
  /-- Whether a cancellation was passed on to a member. -/
  cancelAsked : Bool := false

/-- Futures, the queue of jobs, and timers. -/
structure Kernel (ρ κ ν ε : Type) where
  now : Float := 0
  futures : Array (Future ρ κ ν ε) := #[]
  ready : List (Job κ) := []
  /-- How many jobs of the queue belong to the current pass. Timers that are due join the queue
  between two passes. -/
  batch : Nat := 0
  timers : Array (Timer (Job κ)) := #[]
  nextTimer : Nat := 0

namespace Kernel

variable {ρ κ ν ε : Type}

/-- The outcome of a settled future. -/
def outcome? (k : Kernel ρ κ ν ε) (id : Id) : Option (Outcome ν ε) :=
  (k.futures[id]?).bind (·.outcome)

/-- Whether a future is settled. -/
def isDone (k : Kernel ρ κ ν ε) (id : Id) : Bool := (k.outcome? id).isSome

/-- Whether a future is settled by a cancellation. -/
def isCancelled (k : Kernel ρ κ ν ε) (id : Id) : Bool :=
  match k.outcome? id with
  | some .cancelled => true
  | _ => false

/-- Changes a future. -/
def update (k : Kernel ρ κ ν ε) (id : Id) (f : Future ρ κ ν ε → Future ρ κ ν ε) :
    Kernel ρ κ ν ε :=
  { k with futures := k.futures.modify id f }

/-- Puts a job at the end of the queue. -/
def soon (k : Kernel ρ κ ν ε) (job : Job κ) : Kernel ρ κ ν ε :=
  { k with ready := k.ready ++ [job] }

/-- Makes a future. -/
def add (k : Kernel ρ κ ν ε) (f : Future ρ κ ν ε) : Kernel ρ κ ν ε × Id :=
  ({ k with futures := k.futures.push f }, k.futures.size)

/-- Makes a future that nobody has settled. -/
def fresh (k : Kernel ρ κ ν ε) : Kernel ρ κ ν ε × Id := k.add {}

/-- Makes a task; it begins when its turn comes. -/
def spawn (k : Kernel ρ κ ν ε) (body : ρ) : Kernel ρ κ ν ε × Id :=
  let (k, id) := k.add { activity := some { body := some body } }
  (k.soon (.start id), id)

/-- Settles a future that is not settled yet and tells its watchers, in their order. -/
def settle (k : Kernel ρ κ ν ε) (id : Id) (o : Outcome ν ε) : Kernel ρ κ ν ε :=
  match k.futures[id]? with
  | some f =>
    if f.outcome.isSome then k
    else
      let k := k.update id fun f =>
        { f with outcome := some o, watchers := [], activity := none }
      { k with ready := k.ready ++ f.watchers.map (.notify · id) }
  | none => k

/-- Adds a watcher; that of a settled future is told at once. -/
def watch (k : Kernel ρ κ ν ε) (id : Id) (w : Watcher κ) : Kernel ρ κ ν ε :=
  if k.isDone id then k.soon (.notify w id)
  else k.update id fun f => { f with watchers := f.watchers ++ [w] }

/-- Removes the watchers through which a waiter would be released. -/
def unwatch (k : Kernel ρ κ ν ε) (id waiter : Id) : Kernel ρ κ ν ε :=
  k.update id fun f =>
    { f with
      watchers := f.watchers.filter fun
        | .release w => w != waiter
        | .countdown w => w != waiter
        | _ => true }

/-- Arms a timer. -/
def after (k : Kernel ρ κ ν ε) (delay : Float) (job : Job κ) : Kernel ρ κ ν ε × Nat :=
  let t : Timer (Job κ) := { due := k.now + delay, id := k.nextTimer, job }
  ({ k with timers := Timers.push k.timers t, nextTimer := k.nextTimer + 1 }, k.nextTimer)

/-- Disarms a timer. -/
def disarm (k : Kernel ρ κ ν ε) (timer : Nat) : Kernel ρ κ ν ε :=
  { k with timers := Timers.cancel k.timers timer }

/-- Asks a future to cancel, and says whether it was still open. A task passes the request on to
what it waits for, or keeps it for its next step; a group passes it on to its members. The number
bounds how far a request is passed on. -/
def cancelWithin (k : Kernel ρ κ ν ε) : Nat → Id → Kernel ρ κ ν ε × Bool
  | 0, _ => (k, false)
  | fuel + 1, id =>
    match k.futures[id]? with
    | none => (k, false)
    | some f =>
      if f.outcome.isSome then (k, false)
      else
        match f.activity with
        | some a =>
          let k := k.update id fun f =>
            { f with activity := some { a with cancelRequests := a.cancelRequests + 1 } }
          let keep (k : Kernel ρ κ ν ε) : Kernel ρ κ ν ε :=
            k.update id fun f =>
              { f with activity := f.activity.map fun a => { a with mustCancel := true } }
          match a.waitingFor with
          | none => (keep k, true)
          | some target =>
            let (k, passedOn) := cancelWithin k fuel target
            if passedOn then (k, true) else (keep k, true)
        | none =>
          if f.members.isEmpty then (k.settle id .cancelled, true)
          else
            let (k, asked) := f.members.foldl
              (fun (k, asked) m =>
                let (k, passedOn) := cancelWithin k fuel m
                (k, asked || passedOn)) (k, false)
            if asked then (k.update id fun f => { f with cancelAsked := true }, true)
            else (k, false)

/-- Asks a future to cancel, and says whether it was still open. -/
def cancel (k : Kernel ρ κ ν ε) (id : Id) : Kernel ρ κ ν ε × Bool :=
  cancelWithin k (k.futures.size + 1) id

/-- Whether a task was asked to cancel. -/
def wasAskedToCancel (k : Kernel ρ κ ν ε) (task : Id) : Bool :=
  match k.futures[task]? with
  | some { activity := some a, .. } => a.cancelRequests ≠ 0
  | _ => false

/-- Suspends the running task until a future is settled. A request to cancel that came while the
task ran is passed on to that future. -/
def suspend (k : Kernel ρ κ ν ε) (task : Id) (body : ρ) (future : Id) : Kernel ρ κ ν ε :=
  let pending := match k.futures[task]? with
    | some { activity := some a, .. } => a.mustCancel
    | _ => false
  let k := k.update task fun f =>
    { f with
      activity := f.activity.map fun a =>
        { a with body := some body, waitingFor := some future } }
  let k := k.watch future (.wake task)
  if pending then
    let (k, passedOn) := k.cancel future
    if passedOn then
      k.update task fun f =>
        { f with activity := f.activity.map fun a => { a with mustCancel := false } }
    else k
  else k

/-- Suspends the running task until the jobs that are ready now are done. -/
def giveWay (k : Kernel ρ κ ν ε) (task : Id) (body : ρ) : Kernel ρ κ ν ε :=
  let k := k.update task fun f =>
    { f with activity := f.activity.map fun a => { a with body := some body } }
  k.soon (.proceed task)

/-- Ends the running task. A request to cancel that came while it ran replaces its value. -/
def finish (k : Kernel ρ κ ν ε) (task : Id) (o : Outcome ν ε) : Kernel ρ κ ν ε :=
  let pending := match k.futures[task]? with
    | some { activity := some a, .. } => a.mustCancel
    | _ => false
  match o with
  | .value _ => k.settle task (if pending then .cancelled else o)
  | _ => k.settle task o

/-- What the owner has to do for the next job. -/
inductive Activation (ρ κ ν ε : Type) where
  /-- Nothing: the job was bookkeeping. -/
  | done
  /-- Begin a routine. -/
  | begin (task : Id) (body : ρ)
  /-- Go on with a routine. -/
  | resume (task : Id) (body : ρ) (input : Outcome ν ε)
  /-- Take note of something; a watched future is named. -/
  | hook (k : κ) (source : Option Id)

/-- Hands a task its input. A request to cancel takes the place of the input. -/
def wake (k : Kernel ρ κ ν ε) (task : Id) (input : Outcome ν ε) :
    Kernel ρ κ ν ε × Activation ρ κ ν ε :=
  match k.futures[task]? with
  | some { activity := some a, .. } =>
    match a.body with
    | none => (k, .done)
    | some body =>
      let k := k.update task fun f =>
        { f with
          activity := some { a with body := none, waitingFor := none, mustCancel := false } }
      (k, .resume task body (if a.mustCancel then .cancelled else input))
  | _ => (k, .done)

/-- Begins a task, unless it was cancelled before its turn came. -/
def start (k : Kernel ρ κ ν ε) (task : Id) : Kernel ρ κ ν ε × Activation ρ κ ν ε :=
  match k.futures[task]? with
  | some { activity := some a, .. } =>
    match a.body with
    | none => (k, .done)
    | some body =>
      if a.mustCancel then (k.settle task .cancelled, .done)
      else
        (k.update task fun f => { f with activity := some { a with body := none } },
          .begin task body)
  | _ => (k, .done)

variable [Inhabited ν]

/-- Tells a group about a settled member. The first failure or cancellation settles it. -/
def noteMember (k : Kernel ρ κ ν ε) (group : Id) (o : Outcome ν ε) : Kernel ρ κ ν ε :=
  match o with
  | .value _ =>
    match k.futures[group]? with
    | some g =>
      if g.outcome.isSome then k
      else
        let k := k.update group fun g => { g with awaited := g.awaited - 1 }
        if g.awaited ≤ 1 then
          k.settle group (if g.cancelAsked then .cancelled else .value default)
        else k
    | none => k
  | o => k.settle group o

/-- Counts a report to a waiter; the last one awaited settles it. -/
def count (k : Kernel ρ κ ν ε) (waiter : Id) : Kernel ρ κ ν ε :=
  match k.futures[waiter]? with
  | some w =>
    let k := k.update waiter fun w => { w with awaited := w.awaited - 1 }
    if w.awaited ≤ 1 then k.settle waiter (.value default) else k
  | none => k

/-- Does a job, as far as the kernel can. -/
def perform (k : Kernel ρ κ ν ε) (job : Job κ) : Kernel ρ κ ν ε × Activation ρ κ ν ε :=
  match job with
  | .start task => k.start task
  | .proceed task => k.wake task (.value default)
  | .complete future => (k.settle future (.value default), .done)
  | .hook h => (k, .hook h none)
  | .notify w source =>
    match k.outcome? source with
    | none => (k, .done)
    | some o =>
      match w with
      | .wake task => k.wake task o
      | .relay target => (k.settle target o, .done)
      | .release waiter => (k.settle waiter (.value default), .done)
      | .countdown waiter => (k.count waiter, .done)
      | .gather group => (k.noteMember group o, .done)
      | .hook h => (k, .hook h (some source))

/-- Timers whose time differs by less than this from the current time count as due. -/
def resolution : Float := 1e-9

/-- Removes cancelled timers from the top of the heap. -/
def dropCancelled (k : Kernel ρ κ ν ε) : Nat → Kernel ρ κ ν ε
  | 0 => k
  | fuel + 1 =>
    match k.timers[0]? with
    | some t =>
      if t.cancelled then
        match Timers.pop? k.timers with
        | some (_, timers) => dropCancelled { k with timers } fuel
        | none => k
      else k
    | none => k

/-- Puts the jobs of all timers that are due at the end of the queue. -/
def collectDue (k : Kernel ρ κ ν ε) : Nat → Kernel ρ κ ν ε
  | 0 => k
  | fuel + 1 =>
    match k.timers[0]? with
    | some t =>
      if t.due < k.now + resolution then
        match Timers.pop? k.timers with
        | some (t, timers) =>
          let k := { k with timers }
          collectDue (if t.cancelled then k else k.soon t.job) fuel
        | none => k
      else k
    | none => k

/-- Begins a pass: lets time pass up to a limit if nothing is ready, and adds what is due. -/
def beginPass (k : Kernel ρ κ ν ε) (limit : Float) : Kernel ρ κ ν ε :=
  let k := k.dropCancelled k.timers.size
  let k :=
    if k.ready.isEmpty then
      match k.timers[0]? with
      | some t => if k.now < t.due && t.due ≤ limit then { k with now := t.due } else k
      | none => k
    else k
  let k := k.collectDue k.timers.size
  { k with batch := k.ready.length }

/-- Takes the next job, without letting time pass beyond a limit. Nothing is left to do if there is
no job. -/
def next? (k : Kernel ρ κ ν ε) (limit : Float) :
    Option (Kernel ρ κ ν ε × Activation ρ κ ν ε) :=
  let k := if k.batch = 0 then k.beginPass limit else k
  match k.ready with
  | [] => none
  | job :: rest => some (perform { k with ready := rest, batch := k.batch - 1 } job)

end Kernel

end SuggestBridge.Task
