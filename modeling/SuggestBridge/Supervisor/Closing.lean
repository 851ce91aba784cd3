import SuggestBridge.Supervisor.Startup

/-!
# Closing sessions

Closing a session empties its slot at once, whatever is in it, and then waits: for the end of a
startup that was asked to cancel, or for the end of a process that was killed.
-/

namespace SuggestBridge.Supervisor

open SuggestBridge.Task

/-! ## One session -/

/-- Goes on with a step of the wait for the end of a killed process. -/
def afterKill (s : Supervisor) (n : Nat) (step : Deadline.Step Value Failure) :
    Supervisor × Course Closing :=
  match step with
  | .waits d future => (s, .waits (.process n d) future)
  | .ends .expired =>
    let pid := (s.opened[n]?.map (·.pid)).getD 0
    (s.report [Log.warning ("nimsuggest pid " ++ Text.ofNat pid ++ " did not exit after kill")],
      .ends (.value .unit))
  | .ends (.settled (.value _)) => (s, .ends (.value .unit))
  | .ends (.settled o) => (s, .ends o)

/-- Ends a session: closes its peer, kills its process, and waits for its end. -/
def terminate (s : Supervisor) (n : Nat) (x : Session) : Supervisor × Course Closing :=
  let s := s.updateSession n fun x => { x with closing := true }
  let s := s.stopPeer x.link
  match s.kill x.pid with
  | (s, some f) => (s, .ends (.failure (.fault f)))
  | (s, none) =>
    let (kernel, step) := Deadline.begin s.kernel killPatience (.reap x.pid)
    { s with kernel }.afterKill n step

/-- Begins to close what is in the slot of a key. -/
def beginClosing (s : Supervisor) (key : Text) : Supervisor × Course Closing :=
  match s.slots.get? key with
  | none => (s, .ends (.value .unit))
  | some startup =>
    let s := { s with slots := s.slots.erase key }
    if !s.kernel.isDone startup then
      let s := s.report [Log.info ("Cancelling nimsuggest startup for " ++ key)]
      let (kernel, _) := s.kernel.cancel startup
      let (kernel, waiter) := kernel.fresh
      let kernel := kernel.update waiter fun f => { f with awaited := 1 }
      let kernel := kernel.watch startup (.countdown waiter)
      ({ s with kernel }, .waits (.startup startup waiter) waiter)
    else
      match s.sessionOf? startup with
      | none => (s, .ends (.value .unit))
      | some n =>
        match s.opened[n]? with
        | none => (s, .ends (.value .unit))
        | some x =>
          (s.report [Log.info ("Closing nimsuggest for " ++ key ++ " (pid " ++
            Text.ofNat x.pid ++ ")")]).terminate n x

/-- Goes on closing a session. -/
def resumeClosing (s : Supervisor) (state : Closing) (input : Outcome Value Failure) :
    Supervisor × Course Closing :=
  match state with
  | .startup task waiter =>
    let s := { s with kernel := s.kernel.unwatch task waiter }
    match input with
    | .value _ => (s, .ends (.value .unit))
    | o => (s, .ends o)
  | .process n d =>
    let (kernel, step) := Deadline.resume s.kernel d input
    { s with kernel }.afterKill n step

/-! ## Idle sessions -/

/-- Looks at sessions one after the other and closes those that are idle: no call is in flight and
the last activity is too long ago. -/
def sweepFrom (s : Supervisor) (now : Float) (closed : List Text) :
    List (Text × Nat) → Supervisor × Course Sweep
  | [] => (s, .ends (.value (.keys closed)))
  | (key, n) :: rest =>
    match s.opened[n]?, s.linkOf? n with
    | some x, some l =>
      let idle := x.idle now
      if !l.connection.peer.pending.isEmpty || !(s.settings.idleTimeout.toFloat < idle) then
        s.sweepFrom now closed rest
      else
        let s := s.report [Log.info ("Closing nimsuggest for " ++ key ++ ": idle for " ++
          Decimal.fixedText 0 idle ++ "s")]
        match s.beginClosing key with
        | (s, .waits c future) => (s, .waits ⟨now, rest, closed, key, c⟩ future)
        | (s, .ends (.value _)) => s.sweepFrom now (closed ++ [key]) rest
        | (s, .ends o) => (s, .ends o)
    | _, _ => s.sweepFrom now closed rest

/-- Begins a sweep. -/
def beginSweep (s : Supervisor) (now : Option Float) : Supervisor × Course Sweep :=
  s.sweepFrom (now.getD s.kernel.now) [] s.sessions

/-- Goes on with a sweep. -/
def resumeSweep (s : Supervisor) (state : Sweep) (input : Outcome Value Failure) :
    Supervisor × Course Sweep :=
  Progress.andThen (s.resumeClosing state.closing input)
    (fun c => { state with closing := c }) fun s o =>
      match o with
      | .value _ => s.sweepFrom state.now (state.closed ++ [state.key]) state.rest
      | o => (s, .ends o)

/-- The sweeper pauses until the next sweep. -/
def pauseSweeper (s : Supervisor) : Supervisor × Course Routine :=
  let (kernel, future) := s.kernel.fresh
  let (kernel, timer) := kernel.after s.settings.sweepInterval.toFloat (.complete future)
  ({ s with kernel }, .waits (.sweeperPausing timer) future)

/-- The sweeper goes on after a sweep. A sweep that failed does not end it. -/
def afterSweep (r : Supervisor × Course Sweep) : Supervisor × Course Routine :=
  Progress.andThen r .sweeperSweeping fun s o =>
    match o with
    | .value _ => s.pauseSweeper
    | .failure _ => (s.report [Log.error "Idle sweep failed"]).pauseSweeper
    | .cancelled => (s, .ends .cancelled)

/-- The sweeper goes on after a pause. -/
def resumeSweeper (s : Supervisor) (timer : Nat) (input : Outcome Value Failure) :
    Supervisor × Course Routine :=
  let s := { s with kernel := s.kernel.disarm timer }
  match input with
  | .value _ => afterSweep (s.beginSweep none)
  | o => (s, .ends o)

/-- Starts the sweeper, unless it was started already or sessions are kept for ever. -/
def start (s : Supervisor) : Supervisor :=
  if s.sweeper.isSome || !(0 < s.settings.idleTimeout.toFloat) then s
  else
    let (kernel, task) := s.kernel.spawn .sweeper
    { s with kernel, sweeper := some task }

/-! ## All sessions -/

/-- Asks the sweeper to cancel and waits for its end. -/
def beginStop (s : Supervisor) : Supervisor × Course Unit :=
  match s.sweeper with
  | none => (s, .ends (.value .unit))
  | some task =>
    let (kernel, _) := s.kernel.cancel task
    let s := { s with kernel }
    if s.kernel.isDone task then ({ s with sweeper := none }, .ends (.value .unit))
    else (s, .waits () task)

/-- Goes on when the sweeper has ended. That it was cancelled is no failure. -/
def resumeStop (s : Supervisor) (input : Outcome Value Failure) : Supervisor × Course Unit :=
  match input with
  | .failure e => (s, .ends (.failure e))
  | _ => ({ s with sweeper := none }, .ends (.value .unit))

/-- Waits for the tasks in the background, but not for long. -/
def awaitBackground (s : Supervisor) : Supervisor × Course Shutdown :=
  let tasks := s.background.filter fun t => !s.kernel.isDone t
  if tasks.isEmpty then (s, .ends (.value .unit))
  else
    let (kernel, waiter) := s.kernel.fresh
    let kernel := kernel.update waiter fun f => { f with awaited := tasks.length }
    let (kernel, timer) := kernel.after killPatience (.complete waiter)
    let kernel := tasks.foldl (fun k t => k.watch t (.countdown waiter)) kernel
    ({ s with kernel }, .waits (.background waiter timer tasks) waiter)

/-- Closes all sessions together and waits for the end of all, or for the first failure. -/
def closeSessions (s : Supervisor) : Supervisor × Course Shutdown :=
  if s.slots.keys.isEmpty then s.awaitBackground
  else
    let (kernel, tasks) := s.slots.keys.foldl (fun (k, ts) key =>
      let (k, t) := k.spawn (.close key)
      (k, ts ++ [t])) (s.kernel, ([] : List Id))
    let (kernel, group) := kernel.add { awaited := tasks.length, members := tasks }
    let kernel := tasks.foldl (fun k t => k.watch t (.gather group)) kernel
    ({ s with kernel }, .waits .sessions group)

/-- Begins to end a supervisor: the sweeper is stopped, all sessions are closed, and the tasks in
the background are awaited and at last cancelled. -/
def beginShutdown (s : Supervisor) : Supervisor × Course Shutdown :=
  let s := s.report [Log.info "Closing all nimsuggest processes"]
  Progress.andThen s.beginStop (fun _ => .sweeper) fun s o =>
    match o with
    | .value _ => s.closeSessions
    | o => (s, .ends o)

/-- Goes on ending a supervisor. -/
def resumeShutdown (s : Supervisor) (state : Shutdown) (input : Outcome Value Failure) :
    Supervisor × Course Shutdown :=
  match state with
  | .sweeper =>
    Progress.andThen (s.resumeStop input) (fun _ => .sweeper) fun s o =>
      match o with
      | .value _ => s.closeSessions
      | o => (s, .ends o)
  | .sessions =>
    match input with
    | .value _ => s.awaitBackground
    | o => (s, .ends o)
  | .background waiter timer tasks =>
    let kernel := tasks.foldl (fun k t => k.unwatch t waiter) (s.kernel.disarm timer)
    match input with
    | .value _ =>
      let kernel := tasks.foldl (fun k t => if k.isDone t then k else (k.cancel t).1) kernel
      ({ s with kernel }, .ends (.value .unit))
    | o => ({ s with kernel }, .ends o)

end SuggestBridge.Supervisor
