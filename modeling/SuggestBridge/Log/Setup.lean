import SuggestBridge.Log
import SuggestBridge.System.Locations

/-!
# Setting up the log

Lines go to the console, plain or decorated, and if it is asked for to the files below the directory
of all state. The level is given, or taken from `NIMLINK_LOG_LEVEL`, or info.
-/

namespace SuggestBridge.Log

/-- Where lines go. -/
inductive Sink where
  | plainConsole
  | decoratedConsole
  | files
  deriving DecidableEq

/-- The form of the lines that go somewhere. -/
def Sink.format : Sink → Text
  | .plainConsole => "%(asctime)s | %(levelname)-8s | %(name)s | %(message)s"
  | .decoratedConsole => "%(component)s | %(message)s"
  | .files => "%(levelname)s:%(name)s:%(message)s"

/-- The least level of the lines that pass; nothing is kept back without one. -/
abbrev Threshold := Option Level

/-- How the log is set up. -/
structure Setup where
  level : Threshold
  sinks : List (Sink × Threshold)

/-- What can be asked for. -/
structure Options where
  level : Option Text := none
  decorated : Bool := false
  toFiles : Bool := false

/-- Why the log cannot be set up. -/
inductive SetupError where
  /-- No level has the given name. -/
  | unknownLevel (name : Text)
  /-- The directory of all state is not known. -/
  | home (e : Environment.HomeError)
  /-- The directory of the log files cannot be made. -/
  | directory (e : FileTree.CreateError)

/-- The wording of a failed setup. -/
def SetupError.message : SetupError → Text
  | .unknownLevel name => "module 'logging' has no attribute '" ++ name ++ "'"
  | .home e => e.message
  | .directory e => e.message

/-- The levels that can be given by name. -/
def namedLevels : List (Text × Threshold) :=
  [("DEBUG", some .debug), ("INFO", some .info), ("WARNING", some .warning),
    ("WARN", some .warning), ("ERROR", some .error), ("CRITICAL", some .critical),
    ("FATAL", some .critical), ("NOTSET", none)]

/-- Upper case as far as it can lead to the name of a level: ASCII letters, and the small letter i
without its dot. -/
def upperCase (c : CodePoint) : CodePoint :=
  if c.val = 0x131 then CodePoint.ofChar 'I' else c.toAsciiUpper

/-- The levels that the environment can name. -/
def environmentLevels : List Level := [.debug, .info, .warning, .error]

/-- The level that the environment names; any other name means info. -/
def levelOf (env : Environment) : Level :=
  match env.get? "NIMLINK_LOG_LEVEL" with
  | none => .info
  | some name => (environmentLevels.find? fun l => l.name == name.map upperCase).getD .info

/-- The level to use. -/
def threshold (env : Environment) (o : Options) : Except SetupError Threshold :=
  match o.level with
  | none => .ok (some (levelOf env))
  | some name =>
    match namedLevels.find? fun l => l.1 == name with
    | some l => .ok l.2
    | none => .error (.unknownLevel name)

/-- Makes the directory of the log files. -/
def makeDirectory (env : Environment) (tree : FileTree) : Except SetupError FileTree :=
  match Locations.find env tree with
  | .error e => .error (.home e)
  | .ok l =>
    match tree.createDirectory env.cwd l.logs with
    | .error e => .error (.directory e)
    | .ok tree => .ok tree

/-- Sets up the log. -/
def configure (env : Environment) (tree : FileTree) (o : Options) :
    Except SetupError (Setup × FileTree) :=
  match threshold env o with
  | .error e => .error e
  | .ok level =>
    let console : Sink × Threshold :=
      (if o.decorated then .decoratedConsole else .plainConsole, none)
    if o.toFiles then
      (makeDirectory env tree).map fun tree => (⟨level, [console, (.files, level)]⟩, tree)
    else .ok (⟨level, [console]⟩, tree)

/-- The level of the logger for the traffic of daemons. -/
def traceLevel (enabled : Bool) : Threshold := if enabled then some .debug else none

end SuggestBridge.Log
