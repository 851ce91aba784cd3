import SuggestBridge.Config.Basic
import SuggestBridge.Config.Scalar
import SuggestBridge.System.Environment

/-!
# Checking a raw configuration

Every setting is checked, and the issues come in the order of the settings. Unknown entries are
ignored, missing ones have their default. Project paths are made absolute on the way.
-/

namespace SuggestBridge.Config

namespace Check

/-- Checks the entry of a name, if there is one. -/
def entry {α : Type} (t : Raw.Table) (name : Text) (default : α) (check : Raw → Checked α) :
    Checked α :=
  match t.get? name with
  | none => .valid default
  | some v => (check v).below name

/-- Checks the entry of a simple setting. -/
def setting {α : Type} (t : Raw.Table) (name : Text) (default : α)
    (check : Raw → Except Problem α) : Checked α :=
  entry t name default fun v => Checked.ofExcept (check v)

/-- Checks a list. -/
def list {α : Type} (check : Raw → Except Problem α) : Raw → Checked (List α)
  | .list items => Checked.items (fun v => Checked.ofExcept (check v)) 0 items
  | _ => Checked.fail .noList

/-- Checks the command that starts a daemon: a list of words, a path, or a command line. A command
line without words is no command. -/
def executable : Raw → Checked (Option (List Text))
  | .null => .valid none
  | .path p => .valid (some [p.toText])
  | .text t =>
    match Words.split t with
    | .ok [] => .valid none
    | .ok words => .valid (some words)
    | .error e => Checked.fail (.noCommandLine e)
  | v => (list text v).map some

/-- Checks how daemons are run. -/
def daemons : Raw → Checked DaemonConfig
  | .table t =>
    let d : DaemonConfig := {}
    (((((((Checked.map DaemonConfig.mk (entry t "executable" d.executable executable)).apply
      (setting t "log" d.log truth)).apply
      (setting t "refresh_on_check" d.refreshOnCheck truth)).apply
      (setting t "trace" d.trace truth)).apply
      (setting t "idle_timeout" d.idleTimeout nonNegative)).apply
      (setting t "sweep_interval" d.sweepInterval positive)).apply
      (setting t "handshake_timeout" d.handshakeTimeout positive)).apply
      (setting t "call_timeout" d.callTimeout optionalPositive)
  | _ => Checked.fail (.noTable .daemons)

/-- Checks what is logged. -/
def logging : Raw → Checked LoggingConfig
  | .table t =>
    let d : LoggingConfig := {}
    ((Checked.map LoggingConfig.mk (setting t "level" d.level level)).apply
      (setting t "file" d.file truth)).apply
      (setting t "retention_days" d.retentionDays atLeastOne)
  | _ => Checked.fail (.noTable .logging)

/-- A path with its home directory expanded, below the working directory. -/
def absolutePath (env : Environment) (p : Path) : Except Environment.HomeError Path :=
  (env.expand p).map (Path.absolute env.cwd)

/-- Checks the paths of the projects. An unknown home directory is no issue but ends the check. -/
def projects (env : Environment) (t : Raw.Table) :
    Except Environment.HomeError (Checked (List Path)) :=
  match entry t "projects" [] (list path) with
  | .valid paths => (paths.mapM (absolutePath env)).map .valid
  | .invalid issues => .ok (.invalid issues)

end Check

/-- Checks a configuration. -/
def ofRaw (env : Environment) : Raw → Except Environment.HomeError (Checked Config)
  | .table t =>
    (Check.projects env t).map fun paths =>
      ((Checked.map Config.mk paths).apply (Check.entry t "suggest" {} Check.daemons)).apply
        (Check.entry t "logging" {} Check.logging)
  | _ => .ok (Checked.fail (.noTable .root))

end SuggestBridge.Config
