import SuggestBridge.Failure
import SuggestBridge.Frame
import SuggestBridge.Sexp.Printer

/-!
# Scripts of daemons

What a daemon does is laid down in a script: whether it starts at all, how it announces its port,
how it takes a kill, and what it answers to which method.
-/

namespace SuggestBridge.Daemon

/-- What a daemon does once it acts. -/
inductive Mode where
  /-- It writes a line, by default its port, and serves. -/
  | serve (line : Option Bytes)
  | exit (code : Int)
  /-- It closes its standard output and runs on. -/
  | mute
  /-- It does nothing. -/
  | hang

/-- The script of a daemon. -/
structure Script where
  /-- Starting it fails with this message. -/
  startError : Option Text := none
  /-- The seconds until it acts. -/
  delay : Float := 0
  /-- What it writes to its standard error when it acts. -/
  stderr : Bytes := []
  mode : Mode := .serve none
  port : Option Int := none
  /-- Connecting to it fails with this message. -/
  connectError : Option Text := none
  ignoresKill : Bool := false
  /-- The fault that a kill reports. -/
  killFault : Option FaultKind := none
  /-- The values that it returns, by method. -/
  answers : List (Text × Sexp) := []

/-- The port of a daemon whose script names none. -/
def defaultPort (pid : Nat) : Int := 40000 + pid

/-- What a daemon does about a call. -/
inductive Reaction where
  | reply (message : Sexp)
  /-- It replies after some milliseconds. -/
  | late (milliseconds : Int) (message : Sexp)
  /-- It exits. -/
  | crash (code : Int)
  /-- It closes the connection. -/
  | hangUp
  /-- It sends bytes that are no reply. -/
  | noise (data : Bytes)
  | silence

/-- The reply that returns a value. -/
def returning (uid value : Sexp) : Sexp := .list [.symbol "return", uid, value]

/-- What a daemon does about the call of a method, given its process number, its working directory
and its command line. -/
def Script.react (s : Script) (pid : Nat) (cwd : Text) (command : List Text) (uid : Sexp)
    (method : Text) (args : List Sexp) : Reaction :=
  match s.answers.find? fun a => a.1 == method with
  | some (_, value) => .reply (returning uid value)
  | none =>
    match method.toString? with
    | some "echo" => .reply (returning uid (.list args))
    | some "sleep" =>
      let milliseconds := match args with
        | .int n :: _ => n
        | _ => 0
      .late milliseconds (returning uid (.string "slept"))
    | some "pid" => .reply (returning uid (.int pid))
    | some "cwd" => .reply (returning uid (.string cwd))
    | some "argv" => .reply (returning uid (.list (command.map .string)))
    | some "crash" => .crash 7
    | some "disconnect" => .hangUp
    | some "garbage" =>
      match Frame.encode "(return 1" with
      | .ok frame => .noise frame
      | .error _ => .silence
    | some "desync" => .noise [0x7A, 0x7A, 0x7A, 0x7A, 0x7A, 0x7A]
    | some "silent" => .silence
    | _ =>
      .reply (.list [.symbol "return-error", uid, .string ("unknown method " ++ method)])

/-- A call as a daemon reads it. -/
structure Request where
  uid : Sexp
  method : Text
  args : List Sexp

/-- Takes a message for a call. -/
def Request.ofMessage? : Sexp → Option Request
  | .list [_, uid, .symbol method, .list args] => some ⟨uid, method, args⟩
  | .list [_, uid, .symbol method, .nil] => some ⟨uid, method, []⟩
  | _ => none

end SuggestBridge.Daemon
