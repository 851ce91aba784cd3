import SuggestBridge.Client.Basic
import SuggestBridge.Config.Basic
import SuggestBridge.Supervisor.Settings

/-!
# From a configuration to a client

The settings of a supervisor and the client that a configuration describes.
-/

namespace SuggestBridge

/-- The settings of a supervisor that starts its daemons by a command. -/
def DaemonConfig.settings (c : DaemonConfig) (command : List Text) : Supervisor.Settings :=
  { command
    log := c.log
    refreshOnCheck := c.refreshOnCheck
    idleTimeout := .real c.idleTimeout
    sweepInterval := .real c.sweepInterval
    handshakeTimeout := .real c.handshakeTimeout }

/-- The configured projects. -/
def Config.projectFiles (c : Config) (cwd : Text) : List Project :=
  c.projects.map fun p => Project.ofPath cwd p.toText

/-- The client of a configuration. -/
def Config.client (c : Config) (cwd : Text) (available : Bool) : Client :=
  { available
    projects := c.projectFiles cwd
    callTimeout := c.suggest.callTimeout.map .real
    trace := c.suggest.trace
    cwd }

end SuggestBridge
