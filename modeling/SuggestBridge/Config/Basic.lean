import SuggestBridge.Log
import SuggestBridge.Path.Basic

/-!
# Configurations

What a user can configure: the projects, how daemons are run, and what is logged.
-/

namespace SuggestBridge

/-- How daemons are run. Times are in seconds. -/
structure DaemonConfig where
  /-- The command that starts a daemon; without one it is looked up on the search path. -/
  executable : Option (List Text) := none
  /-- Whether daemons are told to write a log. -/
  log : Bool := false
  /-- Whether a check reads the unsaved contents anew. -/
  refreshOnCheck : Bool := false
  /-- Whether calls and answers are logged. -/
  trace : Bool := false
  /-- Zero keeps daemons alive until they are closed. -/
  idleTimeout : Float := 300.0
  sweepInterval : Float := 5.0
  handshakeTimeout : Float := 10.0
  /-- The time after which a request is given up; without one it waits for ever. -/
  callTimeout : Option Float := none

/-- What is logged. -/
structure LoggingConfig where
  level : Level := .warning
  /-- Whether lines also go to files. -/
  file : Bool := false
  retentionDays : Int := 7

/-- A configuration. -/
structure Config where
  /-- The entry files of the projects; without any every file is a project of its own. -/
  projects : List Path := []
  suggest : DaemonConfig := {}
  logging : LoggingConfig := {}

namespace Config

/-- Whether files belong to configured projects. -/
def hasProjects (c : Config) : Bool := !c.projects.isEmpty

end Config

end SuggestBridge
