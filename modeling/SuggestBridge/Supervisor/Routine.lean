import SuggestBridge.Client.Basic
import SuggestBridge.Daemon.Process
import SuggestBridge.Peer.Connection
import SuggestBridge.Supervisor.Slots
import SuggestBridge.Task.Deadline

/-!
# Routines of a supervisor

What the tasks of a supervisor do, as values that say where each of them goes on, and the values
that they end with.
-/

namespace SuggestBridge.Supervisor

/-- A running daemon and the connection to it. -/
structure Session where
  project : Project
  key : Text
  pid : Nat
  /-- The number of the connection. -/
  link : Nat
  port : Int
  lastActivity : Float
  /-- Whether the session is being closed on purpose. -/
  closing : Bool := false

/-- The seconds since the last activity of a session. -/
def Session.idle (s : Session) (now : Float) : Float := now - s.lastActivity

/-- What tasks end with. -/
inductive Value where
  | unit
  | reply (v : Sexp)
  /-- The number of a session. -/
  | session (n : Nat)
  | exitCode (code : Int)
  | line (data : Bytes)
  | keys (ks : List Text)
  | rows (rs : List Row)

instance : Inhabited Value := ⟨.unit⟩

/-- The reply that a value stands for. -/
def Value.sexp : Value → Sexp
  | .reply v => v
  | _ => .nil

/-- What a supervisor is told by its kernel. -/
inductive Hook where
  /-- The startup of a project has ended. -/
  | startupEnded (key : Text)
  /-- A daemon acts as its script says. -/
  | act (pid : Nat)
  /-- A process exits. -/
  | exit (pid : Nat) (code : Int)
  /-- A daemon sends a reply. -/
  | deliver (link : Nat) (message : Sexp)

/-- Where the startup of a daemon waits. -/
inductive Startup where
  /-- For the line with the port. -/
  | announcing (pid : Nat) (d : Task.Deadline)
  /-- For the end of a process that announced nothing. -/
  | departing (pid : Nat) (d : Task.Deadline)

/-- Where the end of a session waits. -/
inductive Closing where
  /-- For the end of a startup that was asked to cancel. -/
  | startup (task waiter : Task.Id)
  /-- For the end of the process. -/
  | process (session : Nat) (d : Task.Deadline)

/-- Where a sweep for idle sessions waits. -/
structure Sweep where
  now : Float
  /-- The sessions that are still to be looked at. -/
  rest : List (Text × Nat)
  /-- The keys of the sessions that were closed. -/
  closed : List Text
  /-- The key of the session that is being closed. -/
  key : Text
  closing : Closing

/-- Where the end of a supervisor waits. -/
inductive Shutdown where
  /-- For the end of the sweeper. -/
  | sweeper
  /-- For the end of all sessions. -/
  | sessions
  /-- For the end of the tasks in the background. -/
  | background (waiter : Task.Id) (timer : Nat) (tasks : List Task.Id)

/-- Where the request of a client waits. -/
inductive Asking where
  | opening (r : Client.Request) (key : Text) (startup : Task.Id)
  | calling (r : Client.Request) (session : SessionRef) (state : Connection.CallState)
  | timed (r : Client.Request) (session : SessionRef) (d : Task.Deadline)
  | closing (rows : List Row) (c : Closing)

/-- A routine, begun or about to begin. -/
inductive Routine where
  | startup (project : Project)
  | startingUp (project : Project) (state : Startup)
  /-- Reads a line from the standard output of a process. -/
  | readLine (pid : Nat)
  /-- Waits for the end of a process. -/
  | reap (pid : Nat)
  /-- Logs what a process writes. -/
  | drain (key : Text) (pid : Nat) (output : Daemon.Output)
  /-- Waits for the end of the process of a session and closes the session. -/
  | watch (session : Nat)
  | listen (link : Nat)
  | acquire (project : Project)
  | acquiring (key : Text) (startup : Task.Id)
  | call (session : Nat) (method : Text) (args : List Sexp)
  | calling (session : Nat) (state : Connection.CallState)
  | close (key : Text)
  | closing (c : Closing)
  | sweep (now : Option Float)
  | sweeping (s : Sweep)
  /-- Sweeps from time to time. -/
  | sweeper
  | sweeperPausing (timer : Nat)
  | sweeperSweeping (s : Sweep)
  | stop
  | stopping
  | shutdown
  | shuttingDown (s : Shutdown)
  /-- Carries out the request of a client. -/
  | ask (c : Client) (q : Query)
  | answering (a : Asking)
  /-- Starts the sweeper, carries out one request, and ends the supervisor. -/
  | errand (c : Client) (q : Query)
  | asking (a : Asking)
  | leaving (result : Task.Outcome Value Failure) (s : Shutdown)

end SuggestBridge.Supervisor
