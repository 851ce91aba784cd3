import SuggestBridge.Peer.Connection

/-!
# Exchanges

One peer with its callers and its listener as cooperative tasks, and what the outside can do to
them: calls, cancellations, bytes, faults, time. An exchange records what the peer sends and logs.
-/

namespace SuggestBridge

/-- A callback of an exchange: its name is noted, and then it may report a fault. -/
structure NamedCallback where
  name : Text
  raises : Option Fault := none

/-- The routines of an exchange. -/
inductive Exchange.Routine where
  | call (method : Text) (args : List Sexp)
  | calling (state : Connection.CallState)
  | listen

/-- One peer with its callers and its listener. -/
structure Exchange where
  kernel : Task.Kernel Exchange.Routine Empty Sexp Failure := {}
  connection : Connection NamedCallback := {}
  /-- The frames that were sent, oldest first. -/
  sent : List Bytes := []
  log : List LogLine := []
  /-- The names of the callbacks that were run, oldest first. -/
  notified : List Text := []
  /-- The calls that were begun, by name, with the tasks that make them. -/
  calls : List (Text × Task.Id) := []

namespace Exchange

/-- Makes an effect of the peer happen. -/
def apply (x : Exchange) (e : Peer.Effect NamedCallback) : Exchange :=
  match e with
  | .send frame => { x with sent := x.sent ++ [frame] }
  | .settle future result =>
    { x with kernel := x.kernel.settle future (Task.Outcome.ofExcept result) }
  | .log line => { x with log := x.log ++ [line] }
  | .closeConnection =>
    { x with connection := { x.connection with closes := x.connection.closes + 1 } }
  | .callback k =>
    let x := { x with notified := x.notified ++ [k.name] }
    match k.raises with
    | none => x
    | some _ => { x with log := x.log ++ [Log.error "EPC close callback failed"] }

/-- Makes effects happen in order, for a connection changed by the operation behind them. -/
def applyAll (x : Exchange) (c : Connection NamedCallback)
    (effects : List (Peer.Effect NamedCallback)) : Exchange :=
  effects.foldl apply { x with connection := c }

/-- Lets a task wait for a future or ends it. A future that is settled already is not waited
for. -/
def follow (x : Exchange) (task : Task.Id) (progress : Connection.CallProgress) : Exchange :=
  match progress with
  | .ends o => { x with kernel := x.kernel.finish task o }
  | .waits state future =>
    match x.kernel.outcome? future, state with
    | some o, .awaiting _ _ =>
      let (c, effects, progress) := x.connection.resumeCall x.kernel.isDone state o
      let x := x.applyAll c effects
      match progress with
      | .ends o => { x with kernel := x.kernel.finish task o }
      | .waits state future =>
        { x with kernel := x.kernel.suspend task (.calling state) future }
    | _, _ => { x with kernel := x.kernel.suspend task (.calling state) future }

/-- Lets the listener wait or ends it. -/
def pause (x : Exchange) (task : Task.Id)
    (r : Connection NamedCallback × List (Peer.Effect NamedCallback) × Connection.Pause) :
    Exchange :=
  let (c, effects, why) := r
  let x := x.applyAll c effects
  match why with
  | .ended _ => { x with kernel := x.kernel.finish task (.value .nil) }
  | .blocked =>
    let (kernel, incoming, waiter) := x.connection.incoming.await x.kernel
    { x with
      kernel := kernel.suspend task .listen waiter
      connection := { x.connection with incoming } }

/-- Begins a routine. -/
def begin (x : Exchange) (task : Task.Id) : Routine → Exchange
  | .call method args =>
    let (kernel, future) := x.kernel.fresh
    let (kernel, drained) := kernel.fresh
    let x := { x with kernel }
    let (c, effects, progress) :=
      x.connection.beginCall x.kernel.isDone x.kernel.now future drained method args
    (x.applyAll c effects).follow task progress
  | .calling _ => x
  | .listen => x.pause task (x.connection.beginListening x.kernel.isDone x.kernel.now)

/-- Goes on with a routine. -/
def resume (x : Exchange) (task : Task.Id) (body : Routine) (input : Task.Outcome Sexp Failure) :
    Exchange :=
  match body with
  | .call _ _ => x
  | .calling state =>
    let (c, effects, progress) := x.connection.resumeCall x.kernel.isDone state input
    (x.applyAll c effects).follow task progress
  | .listen => x.pause task (x.connection.resumeListening x.kernel.isDone x.kernel.now input)

/-- Does the next job, without letting time pass beyond a limit. -/
def step? (x : Exchange) (limit : Float) : Option Exchange :=
  match x.kernel.next? limit with
  | none => none
  | some (kernel, activation) =>
    let x := { x with kernel }
    match activation with
    | .done => some x
    | .begin task body => some (x.begin task body)
    | .resume task body input => some (x.resume task body input)
    | .hook h _ => nomatch h

/-- Does jobs until nothing is left to do, at most a number of them. -/
def run (x : Exchange) (limit : Float) : Nat → Exchange
  | 0 => x
  | fuel + 1 =>
    match x.step? limit with
    | none => x
    | some x => run x limit fuel

/-- A bound on the jobs that a task, a timer or a settled future can cause. -/
def fuel (x : Exchange) : Nat :=
  16 * (x.kernel.ready.length + x.kernel.timers.size + x.kernel.futures.size + 1)

/-- Does everything that can be done without time passing. -/
def settle (x : Exchange) : Exchange := x.run x.kernel.now x.fuel

/-- Begins to listen, unless a listener was begun before. -/
def start (x : Exchange) : Exchange :=
  match x.connection.listener with
  | some _ => x
  | none =>
    let (kernel, task) := x.kernel.spawn .listen
    { x with kernel, connection := { x.connection with listener := some task } }

/-- A new connection, its listener waiting for bytes. -/
def connect (host : Text) (port : Int) : Exchange :=
  let x := (start {}).settle
  { x with log := [Log.debug ("EPC connected to " ++ host ++ ":" ++ Text.ofInt port)] }

/-- Begins a call in the background. -/
def call (x : Exchange) (name method : Text) (args : List Sexp) : Exchange :=
  let (kernel, task) := x.kernel.spawn (.call method args)
  { x with kernel, calls := x.calls ++ [(name, task)] }

/-- The task of the latest call of a name. -/
def taskOf (x : Exchange) (name : Text) : Option Task.Id :=
  (x.calls.reverse.find? fun c => c.1 == name).map Prod.snd

/-- Asks a call to cancel. -/
def cancel (x : Exchange) (name : Text) : Exchange :=
  match x.taskOf name with
  | some task => { x with kernel := (x.kernel.cancel task).1 }
  | none => x

/-- Changes the stream of incoming bytes. -/
def onIncoming (x : Exchange)
    (f : Task.Kernel Routine Empty Sexp Failure → Task.Stream Failure →
      Task.Kernel Routine Empty Sexp Failure × Task.Stream Failure) : Exchange :=
  let (kernel, incoming) := f x.kernel x.connection.incoming
  { x with kernel, connection := { x.connection with incoming } }

/-- Bytes arrive. -/
def data (x : Exchange) (bs : Bytes) : Exchange := x.onIncoming fun k s => s.feed k bs

/-- The other side ends the stream. -/
def endOfStream (x : Exchange) : Exchange := x.onIncoming fun k s => s.finish k

/-- Reading reports a fault. -/
def readFault (x : Exchange) (f : Fault) : Exchange :=
  x.onIncoming fun k s => s.fail k (.fault f)

/-- Closes the connection from this side. -/
def stop (x : Exchange) : Exchange :=
  if x.connection.peer.closed then x
  else
    let kernel := match x.connection.listener with
      | some task => (x.kernel.cancel task).1
      | none => x.kernel
    let x := { x with kernel }
    let (c, effects) := x.connection.withPeer (x.connection.peer.close x.kernel.isDone none)
    x.applyAll c effects

/-- Registers a callback. On a closed peer it runs at once, and a fault of it is reported. -/
def addCallback (x : Exchange) (k : NamedCallback) : Exchange × Option Fault :=
  if x.connection.peer.closed then ({ x with notified := x.notified ++ [k.name] }, k.raises)
  else
    let (c, effects) := x.connection.withPeer (x.connection.peer.addCallback k)
    (x.applyAll c effects, none)

/-- The write buffer is full from now on. -/
def congest (x : Exchange) : Exchange :=
  { x with connection := { x.connection with congested := true } }

/-- What those are told that wait for the write buffer to drain. -/
def drainOutcome : Option Fault → Task.Outcome Sexp Failure
  | none => .value .nil
  | some f => .failure (.fault f)

/-- The write buffer has drained, or waiting for that reports a fault. -/
def relieve (x : Exchange) (fault : Option Fault) : Exchange :=
  { x with
    kernel := x.connection.draining.foldl (fun k d => k.settle d (drainOutcome fault)) x.kernel
    connection := { x.connection with congested := false, draining := [] } }

/-- Waits for the end of the connection. Faults of the connection are ignored. -/
def waitClosed (x : Exchange) : Option Fault :=
  match x.connection.closeFault with
  | some f => if f.isSystem then none else some f
  | none => none

/-- Lets time pass. -/
def advance (x : Exchange) (seconds : Float) : Exchange :=
  let target := x.kernel.now + seconds
  let x := x.run target x.fuel
  { x with kernel := { x.kernel with now := target } }

/-- The outcomes of the calls that have ended, by name. -/
def outcomes (x : Exchange) : List (Text × Task.Id × Task.Outcome Sexp Failure) :=
  x.calls.filterMap fun c => (x.kernel.outcome? c.2).map fun o => (c.1, c.2, o)

end Exchange

end SuggestBridge
