import SuggestBridge.Supervisor.Asking

/-!
# Running a supervisor

The tasks of a supervisor run one at a time, in the order in which they were begun or woken. Time
passes only when every task waits. The operations of the last section are what callers and daemons
can do from outside, at any point of a run.
-/

namespace SuggestBridge.Supervisor

open SuggestBridge.Task

/-! ## Routines -/

/-- Ends an errand: the supervisor is ended, and then the errand has its result. -/
def leave (result : Outcome Value Failure) (r : Supervisor × Course Shutdown) :
    Supervisor × Course Routine :=
  Progress.andThen r (.leaving result) fun s o =>
    match o with
    | .value _ => (s, .ends result)
    | o => (s, .ends o)

/-- Ends an errand once its request has ended. -/
def afterAsking (r : Supervisor × Course Asking) : Supervisor × Course Routine :=
  Progress.andThen r .asking fun s o => leave o s.beginShutdown

/-- Says where a part of a routine is, as part of the whole. -/
def within {σ : Type} (wrap : σ → Routine) (r : Supervisor × Course σ) :
    Supervisor × Course Routine :=
  Progress.andThen r wrap fun s o => (s, .ends o)

/-- Goes on with a routine, or begins it. -/
def proceed (s : Supervisor) (task : Id) (r : Routine) (input : Outcome Value Failure) :
    Supervisor × Course Routine :=
  match r with
  | .startup project => within (.startingUp project) (s.beginStartup project)
  | .startingUp project state =>
    within (.startingUp project) (s.resumeStartup project state input)
  | .readLine pid => s.readLine pid input
  | .reap pid => s.reap pid input
  | .drain key pid output => s.drain key pid output input
  | .watch n => s.watch n input
  | .listen n => s.resumeListening n input
  | .acquire project => within (fun x => .acquiring x.1 x.2) (s.beginAcquiring project)
  | .acquiring key startup =>
    within (fun x => .acquiring x.1 x.2) (s.resumeAcquiring task key startup input)
  | .call n method args => within (.calling n) (s.beginCall n method args)
  | .calling n state => within (.calling n) (s.resumeCall n state input)
  | .close key => within .closing (s.beginClosing key)
  | .closing c => within .closing (s.resumeClosing c input)
  | .sweep now => within .sweeping (s.beginSweep now)
  | .sweeping state => within .sweeping (s.resumeSweep state input)
  | .sweeper => s.pauseSweeper
  | .sweeperPausing timer => s.resumeSweeper timer input
  | .sweeperSweeping state => afterSweep (s.resumeSweep state input)
  | .stop => within (fun _ => .stopping) s.beginStop
  | .stopping => within (fun _ => .stopping) (s.resumeStop input)
  | .shutdown => within .shuttingDown s.beginShutdown
  | .shuttingDown state => within .shuttingDown (s.resumeShutdown state input)
  | .ask c q => within .answering (s.beginAsking c q)
  | .answering state => within .answering (s.resumeAsking task state input)
  | .errand c q => afterAsking (s.start.beginAsking c q)
  | .asking state => afterAsking (s.resumeAsking task state input)
  | .leaving result state => leave result (s.resumeShutdown state input)

/-- Lets a task wait or ends it. -/
def follow (s : Supervisor) (task : Id) (progress : Course Routine) : Supervisor :=
  match progress with
  | .waits r future => { s with kernel := s.kernel.suspend task r future }
  | .ends o => { s with kernel := s.kernel.finish task o }

/-- Begins a routine. -/
def begin (s : Supervisor) (task : Id) (r : Routine) : Supervisor :=
  let (s, progress) := match r with
    | .listen n => s.beginListening n
    | r => s.proceed task r (.value .unit)
  s.follow task progress

/-- Goes on with a routine. -/
def resume (s : Supervisor) (task : Id) (r : Routine) (input : Outcome Value Failure) :
    Supervisor :=
  let (s, progress) := s.proceed task r input
  s.follow task progress

/-- Does what the kernel asks for. -/
def onHook (s : Supervisor) (h : Hook) (source : Option Id) : Supervisor :=
  match h, source with
  | .startupEnded key, some startup => s.onStartupEnded key startup
  | .startupEnded _, none => s
  | .act pid, _ => s.act pid
  | .exit pid code, _ => s.exit pid code
  | .deliver n message, _ => s.receiveMessage n message

/-! ## Running -/

/-- Does the next job, without letting time pass beyond a limit. -/
def step? (s : Supervisor) (limit : Float) : Option Supervisor :=
  match s.kernel.next? limit with
  | none => none
  | some (kernel, activation) =>
    let s := { s with kernel }
    match activation with
    | .done => some s
    | .begin task r => some (s.begin task r)
    | .resume task r input => some (s.resume task r input)
    | .hook h source => some (s.onHook h source)

/-- Does jobs until a condition holds or nothing is left to do, at most a number of them. -/
def runUntil (s : Supervisor) (condition : Supervisor → Bool) (limit : Float) : Nat → Supervisor
  | 0 => s
  | fuel + 1 =>
    if condition s then s
    else
      match s.step? limit with
      | none => s
      | some s => runUntil s condition limit fuel

/-- A number of jobs that no run reaches that ends at all. -/
def endless : Nat := 1000000000000

/-- Does everything that can be done without time passing. -/
def settle (s : Supervisor) : Supervisor := s.runUntil (fun _ => false) s.kernel.now endless

/-- Lets time pass. -/
def advance (s : Supervisor) (seconds : Float) : Supervisor :=
  let target := s.kernel.now + seconds
  let s := s.runUntil (fun _ => false) target endless
  { s with kernel := { s.kernel with now := target } }

/-! ## From outside -/

/-- Begins a task and gives its name. -/
def launchTask (s : Supervisor) (r : Routine) : Supervisor × Id :=
  let (kernel, task) := s.kernel.spawn r
  ({ s with kernel }, task)

/-- Runs a routine at once, and lets others run and time pass until it has ended. -/
def perform (s : Supervisor) (r : Routine) : Supervisor × Id :=
  let (kernel, task) := s.kernel.add { activity := some { body := none } }
  let s := { s with kernel }.begin task r
  (s.runUntil (fun s => s.kernel.isDone task) (1.0 / 0.0) endless, task)

/-- Asks a task to cancel. -/
def cancel (s : Supervisor) (task : Id) : Supervisor :=
  { s with kernel := (s.kernel.cancel task).1 }

/-- A process writes to one of its streams. -/
def write (s : Supervisor) (pid : Nat) (o : Daemon.Output) (data : Bytes) : Supervisor :=
  s.onOutput pid o fun k t => t.feed k data

/-- A process has ended, but nobody was told yet. -/
def markExited (s : Supervisor) (pid : Nat) (code : Int) : Supervisor :=
  s.updateProcess pid fun p => { p with exitCode := some code }

/-- A process closes its connection. -/
def hangUpProcess (s : Supervisor) (pid : Nat) : Supervisor :=
  match (s.process? pid).bind (·.connection) with
  | some n => s.hangUp n
  | none => s

/-- A process sends bytes over its connection. -/
def send (s : Supervisor) (pid : Nat) (data : Bytes) : Supervisor :=
  match (s.process? pid).bind (·.connection) with
  | some n => s.receive n data
  | none => s

end SuggestBridge.Supervisor
