import SuggestBridge.Supervisor.Closing

/-!
# Sessions for callers

Callers get the session of a project, its daemon being started if need be, and call methods over
it. Any number of callers may wait for one startup; a caller that gives up does not disturb it.
-/

namespace SuggestBridge.Supervisor

open SuggestBridge.Task

/-! ## Getting a session -/

/-- The startup in the slot of a key, unless it has ended without a session that can be used. -/
def usable? (s : Supervisor) (key : Text) : Option Id :=
  (s.slots.get? key).filter fun startup =>
    !s.kernel.isDone startup ||
      match s.sessionOf? startup with
      | some n => s.isAlive n
      | none => false

/-- The startup of a project, begun unless there is one already. -/
def startupFor (s : Supervisor) (project : Project) : Supervisor × Id :=
  let key := project.key s.cwd
  match s.usable? key with
  | some startup => (s, startup)
  | none =>
    let (kernel, startup) := s.kernel.spawn (.startup project)
    let kernel := kernel.watch startup (.hook (.startupEnded key))
    ({ s with kernel, slots := (s.slots.erase key).fill key startup }, startup)

/-- Begins to wait for the session of a project. -/
def beginAcquiring (s : Supervisor) (project : Project) : Supervisor × Course (Text × Id) :=
  let (s, startup) := s.startupFor project
  match s.kernel.outcome? startup with
  | some o => (s, .ends o)
  | none =>
    let (kernel, own) := s.kernel.fresh
    let kernel := kernel.watch startup (.relay own)
    ({ s with kernel }, .waits (project.key s.cwd, startup) own)

/-- Goes on when the startup has ended, or when the caller was cancelled. That the startup was
cancelled is a failure for the caller. -/
def resumeAcquiring (s : Supervisor) (caller : Id) (key : Text) (startup : Id)
    (input : Outcome Value Failure) : Supervisor × Course (Text × Id) :=
  match input with
  | .cancelled =>
    if s.kernel.isCancelled startup && !s.kernel.wasAskedToCancel caller then
      (s, .ends (.failure (.startup ("nimsuggest startup for " ++ key ++ " was cancelled"))))
    else (s, .ends .cancelled)
  | o => (s, .ends o)

/-! ## Calling a method -/

/-- Lets a call wait, or ends it. A value counts as activity of the session. -/
def followCall (s : Supervisor) (n : Nat) (progress : Connection.CallProgress) :
    Supervisor × Course Connection.CallState :=
  match progress with
  | .waits state future => (s, .waits state future)
  | .ends (.value v) =>
    let now := s.kernel.now
    (s.updateSession n fun x => { x with lastActivity := now }, .ends (.value (.reply v)))
  | .ends (.failure e) => (s, .ends (.failure e))
  | .ends .cancelled => (s, .ends .cancelled)

/-- Begins a call over a session. -/
def beginCall (s : Supervisor) (n : Nat) (method : Text) (args : List Sexp) :
    Supervisor × Course Connection.CallState :=
  match s.opened[n]?, s.linkOf? n with
  | some x, some l =>
    let (kernel, future) := s.kernel.fresh
    let (kernel, drained) := kernel.fresh
    let s := { s with kernel }
    let (c, effects, progress) :=
      l.connection.beginCall s.kernel.isDone s.kernel.now future drained method args
    (s.applyAll x.link c effects).followCall n progress
  | _, _ => (s, .ends (.failure (.closed Peer.closedMessage)))

/-- Goes on with a call over a session. -/
def resumeCall (s : Supervisor) (n : Nat) (state : Connection.CallState)
    (input : Outcome Value Failure) : Supervisor × Course Connection.CallState :=
  match s.opened[n]?, s.linkOf? n with
  | some x, some l =>
    let (c, effects, progress) :=
      l.connection.resumeCall s.kernel.isDone state (input.map Value.sexp)
    (s.applyAll x.link c effects).followCall n progress
  | _, _ => (s, .ends (.failure (.closed Peer.closedMessage)))

/-! ## Listening -/

/-- Lets a listener wait or ends it. -/
def followListener (s : Supervisor) (n : Nat)
    (r : Connection Nat × List (Peer.Effect Nat) × Connection.Pause) :
    Supervisor × Course Routine :=
  let (c, effects, why) := r
  let s := s.applyAll n c effects
  match why, s.links[n]? with
  | .blocked, some l =>
    let (kernel, incoming, waiter) := l.connection.incoming.await s.kernel
    ({ s with kernel }.updateLink n fun l =>
        { l with connection := { l.connection with incoming } },
      .waits (.listen n) waiter)
  | _, _ => (s, .ends (.value .unit))

/-- Begins to listen on a connection. -/
def beginListening (s : Supervisor) (n : Nat) : Supervisor × Course Routine :=
  match s.links[n]? with
  | some l =>
    s.followListener n (l.connection.beginListening s.kernel.isDone s.kernel.now)
  | none => (s, .ends (.value .unit))

/-- Goes on listening on a connection. -/
def resumeListening (s : Supervisor) (n : Nat) (input : Outcome Value Failure) :
    Supervisor × Course Routine :=
  match s.links[n]? with
  | some l =>
    s.followListener n (l.connection.resumeListening s.kernel.isDone s.kernel.now input)
  | none => (s, .ends (.value .unit))

/-! ## Requests of clients -/

/-- A session as a client sees it. -/
def refOf (s : Supervisor) (n : Nat) : SessionRef :=
  match s.opened[n]? with
  | some x => ⟨n, x.pid, x.key⟩
  | none => ⟨n, 0, []⟩

/-- A result for whoever asked for a session. -/
def sessionResult (s : Supervisor) : Outcome Value Failure → Option (Except Failure SessionRef)
  | .value (.session n) => some (.ok (s.refOf n))
  | .value _ => none
  | .failure e => some (.error e)
  | .cancelled => none

/-- A result for whoever waited for a call. -/
def callResult : Deadline.Ending Value Failure → Option Client.Reply
  | .expired => some .expired
  | .settled (.value v) => some (.value v.sexp)
  | .settled (.failure e) => some (.failure e)
  | .settled .cancelled => none

/-- Gives a request what it needs until it has to wait or ends. The number bounds the needs. -/
def pursue (s : Supervisor) : Nat → Client.Next × List LogLine → Supervisor × Course Asking
  | 0, _ => (s, .ends .cancelled)
  | fuel + 1, (next, log) =>
    let s := s.report log
    match next with
    | .ends (.ok rows) => (s, .ends (.value (.rows rows)))
    | .ends (.error e) => (s, .ends (.failure e))
    | .needs r (.session project) =>
      Progress.andThen (s.beginAcquiring project) (fun x => .opening r x.1 x.2) fun s o =>
        match s.sessionResult o with
        | some session => pursue s fuel (r.onSession session)
        | none => (s, .ends .cancelled)
    | .needs r (.call session method args none) =>
      Progress.andThen (s.beginCall session.handle method args) (.calling r session) fun s o =>
        match callResult (.settled o) with
        | some reply => pursue s fuel (r.onReply session reply)
        | none => (s, .ends .cancelled)
    | .needs r (.call session method args (some timeout)) =>
      let (kernel, step) :=
        Deadline.begin s.kernel timeout.toFloat (.call session.handle method args)
      let s := { s with kernel }
      match step with
      | .waits d future => (s, .waits (.timed r session d) future)
      | .ends e =>
        match callResult e with
        | some reply => pursue s fuel (r.onReply session reply)
        | none => (s, .ends .cancelled)
    | .needs r (.close key) =>
      let rows := match r.stage with
        | .closing rows => rows
        | _ => []
      Progress.andThen (s.beginClosing key) (.closing rows) fun s o =>
        match o with
        | .value _ => (s, .ends (.value (.rows rows)))
        | o => (s, .ends o)

/-- A bound on the needs of a request. -/
def needs : Nat := 4

/-- Begins the request of a client. -/
def beginAsking (s : Supervisor) (c : Client) (q : Query) : Supervisor × Course Asking :=
  s.pursue needs (Client.Request.begin c q, [])

/-- Goes on with the request of a client. -/
def resumeAsking (s : Supervisor) (caller : Id) (state : Asking)
    (input : Outcome Value Failure) : Supervisor × Course Asking :=
  match state with
  | .opening r key startup =>
    Progress.andThen (s.resumeAcquiring caller key startup input)
      (fun x => .opening r x.1 x.2) fun s o =>
        match s.sessionResult o with
        | some session => s.pursue needs (r.onSession session)
        | none => (s, .ends .cancelled)
  | .calling r session state =>
    Progress.andThen (s.resumeCall session.handle state input) (.calling r session) fun s o =>
      match callResult (.settled o) with
      | some reply => s.pursue needs (r.onReply session reply)
      | none => (s, .ends .cancelled)
  | .timed r session d =>
    let (kernel, step) := Deadline.resume s.kernel d input
    let s := { s with kernel }
    match step with
    | .waits d future => (s, .waits (.timed r session d) future)
    | .ends e =>
      match callResult e with
      | some reply => s.pursue needs (r.onReply session reply)
      | none => (s, .ends .cancelled)
  | .closing rows c =>
    Progress.andThen (s.resumeClosing c input) (.closing rows) fun s o =>
      match o with
      | .value _ => (s, .ends (.value (.rows rows)))
      | o => (s, .ends o)

end SuggestBridge.Supervisor
