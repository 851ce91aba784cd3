import SuggestBridge.Daemon.Script
import SuggestBridge.Task.Stream

/-!
# Processes of daemons

A process has a number, a command line, two output streams and an exit code once it has ended.
-/

namespace SuggestBridge.Daemon

/-- The two streams that a daemon writes to. -/
inductive Output where
  | stdout
  | stderr
  deriving DecidableEq

/-- The name of a stream. -/
def Output.name : Output → Text
  | stdout => "stdout"
  | stderr => "stderr"

/-- A process that was started. -/
structure Process where
  pid : Nat
  script : Script
  command : List Text
  cwd : Text
  stdout : Task.Stream Failure := {}
  stderr : Task.Stream Failure := {}
  exitCode : Option Int := none
  /-- Whether the end of the process was reported to those that wait for it. -/
  reaped : Bool := false
  /-- The futures of those that wait for the end. -/
  exitWaiters : List Task.Id := []
  /-- The connection that was opened to it last. -/
  connection : Option Nat := none

namespace Process

/-- The port that the process listens on. -/
def port (p : Process) : Int := p.script.port.getD (defaultPort p.pid)

/-- Whether the process has no exit code. -/
def isRunning (p : Process) : Bool := p.exitCode.isNone

/-- One of the streams. -/
def output (p : Process) : Output → Task.Stream Failure
  | .stdout => p.stdout
  | .stderr => p.stderr

/-- Replaces one of the streams. -/
def setOutput (p : Process) (o : Output) (s : Task.Stream Failure) : Process :=
  match o with
  | .stdout => { p with stdout := s }
  | .stderr => { p with stderr := s }

end Process

end SuggestBridge.Daemon
