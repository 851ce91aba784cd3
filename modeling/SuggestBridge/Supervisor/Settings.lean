import SuggestBridge.Decimal.Seconds
import SuggestBridge.Path.Project

/-!
# Settings of a supervisor

The command that starts a daemon, and how long a supervisor waits for what.
-/

namespace SuggestBridge.Supervisor

/-- The settings of a supervisor. -/
structure Settings where
  command : List Text
  log : Bool := false
  refreshOnCheck : Bool := false
  /-- A session without activity for longer than this is closed; zero keeps all sessions. -/
  idleTimeout : Seconds := .real 300.0
  /-- The time between two sweeps for idle sessions. -/
  sweepInterval : Seconds := .real 5.0
  /-- The time in which a daemon has to announce its port. -/
  handshakeTimeout : Seconds := .real 10.0

/-- The command line that starts the daemon of a project. -/
def Settings.arguments (s : Settings) (p : Project) : List Text :=
  s.command ++ [Text.ofString "--epc", Text.ofString "--v2"] ++
    (if s.log then [Text.ofString "--log"] else []) ++
    (if s.refreshOnCheck then [Text.ofString "--refresh:on"] else []) ++ [p.file]

/-- The wording for settings without a command. -/
def missingCommandMessage : Text := "nimsuggest command is required"

/-- The seconds to wait for a daemon that was killed. -/
def killPatience : Float := 5.0

end SuggestBridge.Supervisor
