import SuggestBridge.Supervisor.Routine
import SuggestBridge.Supervisor.Settings

/-!
# Supervisors

A supervisor owns the daemons, at most one per project. Its state holds the slots of the projects,
the sessions, the processes and connections behind them, and the tasks at work. The operations here
are the single steps that routines are made of: starting, connecting to, killing and reaping
processes, and carrying out what a peer makes happen.
-/

namespace SuggestBridge

open Supervisor

/-- A connection to a daemon. -/
structure Supervisor.Link where
  connection : Connection Nat
  pid : Nat
  /-- Whether bytes can still pass. -/
  isOpen : Bool := true

/-- A supervisor with its daemons and tasks. -/
structure Supervisor where
  settings : Supervisor.Settings
  cwd : Text
  /-- The scripts of the daemons, in the order of their starts; the last one counts for all further
  starts. -/
  scripts : List Daemon.Script := []
  kernel : Task.Kernel Routine Hook Value Failure := {}
  slots : Slots := {}
  sweeper : Option Task.Id := none
  background : List Task.Id := []
  /-- All sessions that were ever opened. -/
  opened : Array Session := #[]
  links : Array Link := #[]
  /-- How often a daemon was to be started. -/
  attempts : Nat := 0
  processes : List Daemon.Process := []
  /-- What happened to processes and connections, oldest first. -/
  events : List Text := []
  log : List LogLine := []

namespace Supervisor

/-- Adds lines to the log. -/
def report (s : Supervisor) (lines : List LogLine) : Supervisor := { s with log := s.log ++ lines }

/-- Takes note of an event. -/
def note (s : Supervisor) (event : Text) : Supervisor := { s with events := s.events ++ [event] }

/-- Begins a task in the background. -/
def track (s : Supervisor) (r : Routine) : Supervisor :=
  let (kernel, task) := s.kernel.spawn r
  { s with kernel, background := s.background ++ [task] }

/-! ## Processes -/

/-- The process of a number. -/
def process? (s : Supervisor) (pid : Nat) : Option Daemon.Process :=
  s.processes.find? fun p => p.pid == pid

/-- Changes a process. -/
def updateProcess (s : Supervisor) (pid : Nat) (f : Daemon.Process → Daemon.Process) : Supervisor :=
  { s with processes := s.processes.map fun p => if p.pid == pid then f p else p }

/-- Whether a process has no exit code. -/
def isRunning (s : Supervisor) (pid : Nat) : Bool :=
  match s.process? pid with
  | some p => p.isRunning
  | none => false

/-- Changes a stream that a process writes to. -/
def onOutput (s : Supervisor) (pid : Nat) (o : Daemon.Output)
    (f : Task.Kernel Routine Hook Value Failure → Task.Stream Failure →
      Task.Kernel Routine Hook Value Failure × Task.Stream Failure) : Supervisor :=
  match s.process? pid with
  | none => s
  | some p =>
    let (kernel, stream) := f s.kernel (p.output o)
    { s with kernel }.updateProcess pid fun p => p.setOutput o stream

/-- The number of the first process. -/
def firstPid : Nat := 1001

/-- Tries to start a daemon. -/
def launch (s : Supervisor) (command : List Text) (cwd : Text) :
    Supervisor × Except Text Nat :=
  let script := (s.scripts[s.attempts]?.or s.scripts.getLast?).getD {}
  let pid := firstPid + s.attempts
  let s := { s with attempts := s.attempts + 1 }
  match script.startError with
  | some message => (s.note ("spawn-failed " ++ command.headD []), .error message)
  | none =>
    let s := s.note ("spawn " ++ Text.ofNat pid ++ " " ++ Text.join " " command ++ " in " ++ cwd)
    let (kernel, _) := s.kernel.after script.delay (.hook (.act pid))
    let p : Daemon.Process := { pid := pid, script := script, command := command, cwd := cwd }
    ({ s with kernel, processes := s.processes ++ [p] }, .ok pid)

/-! ## Connections -/

/-- Changes a connection. -/
def updateLink (s : Supervisor) (n : Nat) (f : Link → Link) : Supervisor :=
  { s with links := s.links.modify n f }

/-- Changes the stream of bytes that arrive over a connection. -/
def onIncoming (s : Supervisor) (n : Nat)
    (f : Task.Kernel Routine Hook Value Failure → Task.Stream Failure →
      Task.Kernel Routine Hook Value Failure × Task.Stream Failure) : Supervisor :=
  match s.links[n]? with
  | none => s
  | some l =>
    let (kernel, incoming) := f s.kernel l.connection.incoming
    { s with kernel }.updateLink n fun l =>
      { l with connection := { l.connection with incoming } }

/-- A daemon sends bytes. -/
def receive (s : Supervisor) (n : Nat) (data : Bytes) : Supervisor :=
  match s.links[n]? with
  | some l => if l.isOpen then s.onIncoming n fun k t => t.feed k data else s
  | none => s

/-- A daemon sends a message. -/
def receiveMessage (s : Supervisor) (n : Nat) (message : Sexp) : Supervisor :=
  match Peer.frameOf message with
  | .ok frame => s.receive n frame
  | .error _ => s

/-- A daemon closes a connection. -/
def hangUp (s : Supervisor) (n : Nat) : Supervisor :=
  match s.links[n]? with
  | some l =>
    if l.isOpen then
      (s.updateLink n fun l => { l with isOpen := false }).onIncoming n fun k t => t.finish k
    else s
  | none => s

/-- A process exits: its exit code is set, those that wait for its end are told, its streams end,
and its connection closes. -/
def exit (s : Supervisor) (pid : Nat) (code : Int) : Supervisor :=
  match s.process? pid with
  | none => s
  | some p =>
    if p.reaped then s
    else
      let s := s.updateProcess pid fun p =>
        { p with exitCode := some code, reaped := true, exitWaiters := [] }
      let kernel := p.exitWaiters.foldl (fun k w => k.settle w (.value .unit)) s.kernel
      let s := { s with kernel }
      let s := s.onOutput pid .stdout fun k t => t.finish k
      let s := s.onOutput pid .stderr fun k t => t.finish k
      match p.connection with
      | some n => s.hangUp n
      | none => s

/-- Kills a process that has no exit code. That it is gone already is no fault. -/
def kill (s : Supervisor) (pid : Nat) : Supervisor × Option Fault :=
  match s.process? pid with
  | none => (s, none)
  | some p =>
    if !p.isRunning then (s, none)
    else
      let s := s.note ("kill " ++ Text.ofNat pid)
      match p.script.killFault with
      | some .noSuchProcess => (s.exit pid 0, none)
      | some kind => (s, some ⟨kind, "cannot kill " ++ Text.ofNat pid⟩)
      | none =>
        if p.script.ignoresKill then (s, none)
        else ({ s with kernel := s.kernel.soon (.hook (.exit pid (-9))) }, none)

/-- A daemon acts as its script says, if it still runs. -/
def act (s : Supervisor) (pid : Nat) : Supervisor :=
  match s.process? pid with
  | none => s
  | some p =>
    if !p.isRunning then s
    else
      let s := s.onOutput pid .stderr fun k t => t.feed k p.script.stderr
      match p.script.mode with
      | .hang => s
      | .mute => s.onOutput pid .stdout fun k t => t.finish k
      | .exit code => s.exit pid code
      | .serve line =>
        let line := line.getD ((Text.ofInt p.port).map (·.val.toUInt8) ++ [Task.Stream.lineFeed])
        let s := s.onOutput pid .stdout fun k t => t.feed k line
        if line.getLast? = some Task.Stream.lineFeed then s
        else s.onOutput pid .stdout fun k t => t.finish k

/-- A daemon deals with a call. -/
def serve (s : Supervisor) (n : Nat) (p : Daemon.Process) (payload : Text) : Supervisor :=
  match (Sexp.read payload).toOption.bind Daemon.Request.ofMessage? with
  | none => s
  | some r =>
    let args := match Sexp.write (.list r.args) with
      | .ok t => t
      | .error _ => []
    let s := s.note ("request " ++ Text.ofNat p.pid ++ " " ++ r.method ++ " " ++ args)
    match p.script.react p.pid p.cwd p.command r.uid r.method r.args with
    | .reply message => s.receiveMessage n message
    | .late milliseconds message =>
      let (kernel, _) :=
        s.kernel.after (Float.ofInt milliseconds / 1000) (.hook (.deliver n message))
      { s with kernel }
    | .crash code => s.exit p.pid code
    | .hangUp => s.hangUp n
    | .noise data => s.receive n data
    | .silence => s

/-- Sends a frame to a daemon. Nothing is sent over a connection that is closed. -/
def transmit (s : Supervisor) (n : Nat) (frame : Bytes) : Supervisor :=
  match s.links[n]? with
  | none => s
  | some l =>
    match l.isOpen, s.process? l.pid, (Frame.feed [] frame).payloads with
    | true, some p, .ok payloads => payloads.foldl (fun s t => s.serve n p t) s
    | _, _, _ => s

/-! ## Sessions -/

/-- The session of a startup that has succeeded. -/
def sessionOf? (s : Supervisor) (startup : Task.Id) : Option Nat :=
  match s.kernel.outcome? startup with
  | some (.value (.session n)) => some n
  | _ => none

/-- The sessions that have finished starting, with their keys. -/
def sessions (s : Supervisor) : List (Text × Nat) :=
  s.slots.entries.filterMap fun e => (s.sessionOf? e.2).map fun n => (e.1, n)

/-- The connection of a session. -/
def linkOf? (s : Supervisor) (session : Nat) : Option Link :=
  (s.opened[session]?).bind fun x => s.links[x.link]?

/-- Whether a session can be used: its process runs and its peer is open. -/
def isAlive (s : Supervisor) (session : Nat) : Bool :=
  match s.opened[session]?, s.linkOf? session with
  | some x, some l => s.isRunning x.pid && !l.connection.peer.closed
  | _, _ => false

/-- Changes a session. -/
def updateSession (s : Supervisor) (session : Nat) (f : Session → Session) : Supervisor :=
  { s with opened := s.opened.modify session f }

/-- Empties the slot of a session, if the session is in it. -/
def evict (s : Supervisor) (session : Nat) : Supervisor :=
  match s.opened[session]? with
  | none => s
  | some x =>
    match s.slots.get? x.key with
    | some startup =>
      if s.sessionOf? startup = some session then { s with slots := s.slots.erase x.key } else s
    | none => s

/-- The peer of a session has closed: the session is over, and so is its daemon. -/
def onPeerClosed (s : Supervisor) (session : Nat) : Supervisor :=
  match s.opened[session]? with
  | none => s
  | some x =>
    let s := s.evict session
    if x.closing || !s.isRunning x.pid then s
    else
      let s := s.report [Log.info ("EPC connection to nimsuggest for " ++ x.key ++ " lost")]
      match s.kill x.pid with
      | (s, none) => s
      | (s, some _) => s.report [Log.error "EPC close callback failed"]

/-- Makes an effect of a peer happen. -/
def apply (n : Nat) (s : Supervisor) (e : Peer.Effect Nat) : Supervisor :=
  match e with
  | .send frame => s.transmit n frame
  | .settle future result =>
    { s with kernel := s.kernel.settle future (Task.Outcome.ofExcept (result.map Value.reply)) }
  | .log line => s.report [line]
  | .closeConnection =>
    s.updateLink n fun l =>
      { l with
        isOpen := false
        connection := { l.connection with closes := l.connection.closes + 1 } }
  | .callback session => s.onPeerClosed session

/-- Makes effects happen in order, for a connection changed by the operation behind them. -/
def applyAll (s : Supervisor) (n : Nat) (c : Connection Nat) (effects : List (Peer.Effect Nat)) :
    Supervisor :=
  effects.foldl (apply n) (s.updateLink n fun l => { l with connection := c })

/-- Closes the peer of a connection from this side. -/
def stopPeer (s : Supervisor) (n : Nat) : Supervisor :=
  match s.links[n]? with
  | none => s
  | some l =>
    if l.connection.peer.closed then s
    else
      let kernel := match l.connection.listener with
        | some task => (s.kernel.cancel task).1
        | none => s.kernel
      let s := { s with kernel }
      let (c, effects) := l.connection.withPeer (l.connection.peer.close s.kernel.isDone none)
      s.applyAll n c effects

/-- The fault that a daemon makes of a refusal: it takes calls only. -/
def refusalFault : Fault := ⟨.other "ValueError", "a call was expected"⟩

/-- Connects to the latest running process that listens on a port. -/
def connect (s : Supervisor) (port : Int) : Supervisor × Except Fault Nat :=
  let place : Text := "localhost:" ++ Text.ofInt port
  match s.processes.reverse.find? fun p => p.isRunning && p.port == port with
  | none => (s, .error ⟨.connectionRefused, "nothing listens on " ++ place⟩)
  | some p =>
    match p.script.connectError with
    | some message => (s, .error ⟨.system "OSError", message⟩)
    | none =>
      let s := s.note ("connect " ++ place)
      let n := s.links.size
      let (kernel, listener) := s.kernel.spawn (.listen n)
      let connection : Connection Nat :=
        { listener := some listener, refusalFault := some refusalFault }
      let s :=
        { s with kernel, links := s.links.push { connection, pid := p.pid } }
      let s := s.updateProcess p.pid fun p => { p with connection := some n }
      (s.report [Log.debug ("EPC connected to " ++ place)], .ok n)

end Supervisor

end SuggestBridge
