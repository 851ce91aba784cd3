import SuggestBridge.Supervisor.Basic
import SuggestBridge.Text.Utf8

/-!
# Startups

A startup runs a daemon, reads the port that it announces on its standard output, and connects to
it. Whatever goes wrong after the process was started, the process is killed and its end awaited in
the background.
-/

namespace SuggestBridge.Supervisor

open SuggestBridge.Task

/-- How far a routine with values of this library came. -/
abbrev Course (σ : Type) := Progress σ Value Failure

/-! ## Reading and waiting for processes -/

/-- The longest line that is read. -/
def lineLimit : Nat := 65536

/-- A line that is too long. -/
def longLineFault (message : Text) : Failure := .fault ⟨.other "ValueError", message⟩

/-- Reads a line from the standard output of a process; at its end, whatever is left. -/
def readLine (s : Supervisor) (pid : Nat) (input : Outcome Value Failure) :
    Supervisor × Course Routine :=
  match input, s.process? pid with
  | .value _, some p =>
    match p.stdout.line? with
    | some (line, stream) =>
      let s := s.updateProcess pid fun p => { p with stdout := stream }
      if lineLimit < line.length - 1 then
        (s, .ends (.failure
          (longLineFault "Separator is found, but chunk is longer than limit")))
      else (s, .ends (.value (.line line)))
    | none =>
      let taken := { p.stdout with buffer := [] }
      if lineLimit < p.stdout.buffer.length then
        (s.updateProcess pid fun p => { p with stdout := taken }, .ends (.failure
          (longLineFault "Separator is not found, and chunk exceed the limit")))
      else if p.stdout.ended then
        (s.updateProcess pid fun p => { p with stdout := taken },
          .ends (.value (.line p.stdout.buffer)))
      else
        let (kernel, stream, waiter) := p.stdout.await s.kernel
        ({ s with kernel }.updateProcess pid fun p => { p with stdout := stream },
          .waits (.readLine pid) waiter)
  | .value _, none => (s, .ends (.value (.line [])))
  | o, _ => (s, .ends o)

/-- Waits for the end of a process. -/
def reap (s : Supervisor) (pid : Nat) (input : Outcome Value Failure) :
    Supervisor × Course Routine :=
  match input, s.process? pid with
  | .value _, some p =>
    if p.reaped then (s, .ends (.value (.exitCode (p.exitCode.getD 0))))
    else
      let (kernel, waiter) := s.kernel.fresh
      ({ s with kernel }.updateProcess pid fun p =>
          { p with exitWaiters := p.exitWaiters ++ [waiter] },
        .waits (.reap pid) waiter)
  | .value _, none => (s, .ends (.value (.exitCode 0)))
  | o, _ => (s, .ends o)

/-- The largest number of bytes that are logged in one line. -/
def chunkSize : Nat := 4096

/-- The lines that log what a process wrote. The number bounds the chunks. -/
def chunkLines (key : Text) (output : Daemon.Output) : Nat → Bytes → List LogLine
  | 0, _ => []
  | fuel + 1, data =>
    if data.isEmpty then []
    else
      let text := Text.stripEnd (Utf8.decode (data.take chunkSize))
      let lines := chunkLines key output fuel (data.drop chunkSize)
      if text.isEmpty then lines
      else Log.debug ("[" ++ key ++ "] " ++ output.name ++ ": " ++ text) :: lines

/-- Logs what a process writes until the stream ends. -/
def drain (s : Supervisor) (key : Text) (pid : Nat) (output : Daemon.Output)
    (input : Outcome Value Failure) : Supervisor × Course Routine :=
  match input, s.process? pid with
  | .value _, some p =>
    let stream := p.output output
    let s := s.report (chunkLines key output stream.buffer.length stream.buffer)
    let stream := { stream with buffer := [] }
    if stream.ended then
      (s.updateProcess pid fun p => p.setOutput output stream, .ends (.value .unit))
    else
      let (kernel, stream, waiter) := stream.await s.kernel
      ({ s with kernel }.updateProcess pid fun p => p.setOutput output stream,
        .waits (.drain key pid output) waiter)
  | .value _, none => (s, .ends (.value .unit))
  | o, _ => (s, .ends o)

/-! ## Starting a daemon -/

/-- Gives a startup up: kills the process and waits for its end in the background. -/
def abandonStartup (s : Supervisor) (pid : Nat) (o : Outcome Value Failure) :
    Supervisor × Course Startup :=
  match s.kill pid with
  | (s, some f) => (s, .ends (.failure (.fault f)))
  | (s, none) => (s.track (.reap pid), .ends o)

/-- Fails a startup because of what the daemon announced. -/
def refuseStartup (s : Supervisor) (pid : Nat) (message : Text) : Supervisor × Course Startup :=
  s.abandonStartup pid (.failure (.handshake message))

/-- Opens a session over the port that a daemon announced. -/
def openSession (s : Supervisor) (project : Project) (pid : Nat) (port : Int) :
    Supervisor × Course Startup :=
  match s.connect port with
  | (s, .error f) => s.abandonStartup pid (.failure (.fault f))
  | (s, .ok link) =>
    let key := project.key s.cwd
    let n := s.opened.size
    let session : Session :=
      { project, key, pid, link, port, lastActivity := s.kernel.now }
    let s := { s with opened := s.opened.push session }
    let s := match s.links[link]? with
      | some l =>
        let (c, effects) := l.connection.withPeer (l.connection.peer.addCallback n)
        s.applyAll link c effects
      | none => s
    let s := s.track (.watch n)
    let s := s.track (.drain key pid .stdout)
    (s.report
      [Log.info ("nimsuggest for " ++ key ++ " running (pid " ++ Text.ofNat pid ++ ", port " ++
        Text.ofInt port ++ ")")],
      .ends (.value (.session n)))

/-- Goes on with the line that a daemon wrote. An empty one means that the process is about to
end. -/
def onLine (s : Supervisor) (project : Project) (pid : Nat) (line : Bytes) :
    Supervisor × Course Startup :=
  let text := Text.strip (Utf8.decode line)
  if text.isEmpty then
    let (kernel, step) :=
      Deadline.begin s.kernel s.settings.handshakeTimeout.toFloat (.reap pid)
    let s := { s with kernel }
    match step with
    | .waits d future => (s, .waits (.departing pid d) future)
    | .ends _ => (s, .ends .cancelled)
  else
    match Integer.read? text with
    | some port => s.openSession project pid port
    | none =>
      s.refuseStartup pid ("nimsuggest returned unknown port number: " ++ Text.quoted text)

/-- Goes on with a step of the wait for the line. -/
def afterAnnouncing (s : Supervisor) (project : Project) (pid : Nat)
    (step : Deadline.Step Value Failure) : Supervisor × Course Startup :=
  match step with
  | .waits d future => (s, .waits (.announcing pid d) future)
  | .ends .expired =>
    s.refuseStartup pid ("nimsuggest did not report a port within " ++
      s.settings.handshakeTimeout.text ++ "s")
  | .ends (.settled (.value (.line line))) => s.onLine project pid line
  | .ends (.settled (.value _)) => s.onLine project pid []
  | .ends (.settled o) => s.abandonStartup pid o

/-- Goes on with a step of the wait for the end of a process that announced nothing. -/
def afterDeparting (s : Supervisor) (pid : Nat) (step : Deadline.Step Value Failure) :
    Supervisor × Course Startup :=
  match step with
  | .waits d future => (s, .waits (.departing pid d) future)
  | .ends .expired =>
    s.refuseStartup pid "nimsuggest closed its output without reporting a port"
  | .ends (.settled (.value (.exitCode code))) =>
    s.refuseStartup pid ("nimsuggest exited before reporting a port (exit code " ++
      Text.ofInt code ++ ")")
  | .ends (.settled (.value _)) => s.abandonStartup pid .cancelled
  | .ends (.settled o) => s.abandonStartup pid o

/-- Begins the startup of a project's daemon. -/
def beginStartup (s : Supervisor) (project : Project) : Supervisor × Course Startup :=
  let key := project.key s.cwd
  let command := s.settings.arguments project
  let cwd := project.root.toText
  let s := s.report
    [Log.info ("Starting nimsuggest for " ++ key),
      Log.debug ("nimsuggest command: " ++ Text.quotedList command ++ " (cwd " ++ cwd ++ ")")]
  match s.launch command cwd with
  | (s, .error message) =>
    (s, .ends (.failure
      (.startup ("Failed to start " ++ command.headD [] ++ ": " ++ message))))
  | (s, .ok pid) =>
    let s := s.track (.drain key pid .stderr)
    let (kernel, step) :=
      Deadline.begin s.kernel s.settings.handshakeTimeout.toFloat (.readLine pid)
    { s with kernel }.afterAnnouncing project pid step

/-- Goes on with a startup. -/
def resumeStartup (s : Supervisor) (project : Project) (state : Startup)
    (input : Outcome Value Failure) : Supervisor × Course Startup :=
  match state with
  | .announcing pid d =>
    let (kernel, step) := Deadline.resume s.kernel d input
    { s with kernel }.afterAnnouncing project pid step
  | .departing pid d =>
    let (kernel, step) := Deadline.resume s.kernel d input
    { s with kernel }.afterDeparting pid step

/-- Takes note that a startup has ended. The slot of a failed one is emptied. -/
def onStartupEnded (s : Supervisor) (key : Text) (startup : Id) : Supervisor :=
  match s.kernel.outcome? startup with
  | some (.value _) | none => s
  | some .cancelled => { s with slots := s.slots.release key startup }
  | some (.failure e) =>
    { s with slots := s.slots.release key startup }.report
      [Log.warning ("nimsuggest for " ++ key ++ " failed to start: " ++ e.message)]

/-! ## Watching a daemon -/

/-- What is logged when the process of a session has ended. -/
def exitLine (key : Text) (closing : Bool) (code : Int) : LogLine :=
  let subject : Text := "nimsuggest for " ++ key
  if closing then
    Log.debug (subject ++ " stopped (exit code " ++ Text.ofInt code ++ ")")
  else if code < 0 then Log.warning (subject ++ " killed by signal " ++ Text.ofInt (-code))
  else if code ≠ 0 then Log.warning (subject ++ " exited with code " ++ Text.ofInt code)
  else Log.info (subject ++ " exited")

/-- Waits for the end of the process of a session, empties its slot, and closes its peer. -/
def watch (s : Supervisor) (n : Nat) (input : Outcome Value Failure) :
    Supervisor × Course Routine :=
  match s.opened[n]? with
  | none => (s, .ends (.value .unit))
  | some x =>
    Progress.andThen (s.reap x.pid input) (fun _ => .watch n) fun s o =>
      match o, s.opened[n]? with
      | .value (.exitCode code), some x =>
        let s := s.report [exitLine x.key x.closing code]
        ((s.evict n).stopPeer x.link, .ends (.value .unit))
      | o, _ => (s, .ends o)

end SuggestBridge.Supervisor
