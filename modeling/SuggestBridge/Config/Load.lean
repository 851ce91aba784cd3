import SuggestBridge.Config.Validation
import SuggestBridge.System.Locations
import SuggestBridge.Text.Utf8
import SuggestBridge.Toml.Reader

/-!
# Loading a configuration

A configuration comes from a named file, or else from `nimlink.toml` in the working directory, or
else from the directory of all state; without any file every setting has its default. The variable
`NIMLINK_NIMSUGGEST` replaces the command that starts a daemon.
-/

namespace SuggestBridge.Config

/-- Why no configuration could be loaded. -/
inductive LoadError where
  /-- The named file does not exist. -/
  | missing (path : Path)
  /-- The file is a directory. -/
  | directory (path : Path)
  /-- The file is no UTF-8. -/
  | undecodable (e : Utf8.Undecodable)
  /-- The file breaks a rule of its format. -/
  | malformed (path : Path)
  /-- The file holds an integer beyond the limit on digits. -/
  | digits (e : DigitLimit)
  /-- A home directory is not known. -/
  | home (e : Environment.HomeError)
  /-- The variable for the command is no command line. -/
  | commandLine (e : Words.SplitError)
  /-- The command cannot be put into what stands in the place of its table. -/
  | unassignable (v : Raw)
  /-- Values have problems. -/
  | invalid (issues : List Issue)

/-- The name of the kind of a raw value that takes no entries. -/
def kindName : Raw → Text
  | .null => "NoneType"
  | .bool _ => "bool"
  | .int _ => "int"
  | .real _ => "float"
  | .text _ => "str"
  | .path _ => "Path"
  | .moment .date => "datetime.date"
  | .moment .time => "datetime.time"
  | .moment .dateTime => "datetime.datetime"
  | .list _ => "list"
  | .table _ => "dict"

/-- The wording of a failed load. -/
def LoadError.message : LoadError → Text
  | .missing p => "Config file not found: " ++ p.toText
  | .directory p => "[Errno 21] Is a directory: " ++ p.toText.quoted
  | .undecodable e => e.message
  | .malformed p => "Invalid TOML in " ++ p.toText
  | .digits e => e.message
  | .home e => e.message
  | .commandLine e => e.message
  | .unassignable (.list _) => "list indices must be integers or slices, not str"
  | .unassignable v => "'" ++ kindName v ++ "' object does not support item assignment"
  | .invalid _ => "Configuration validation failed:"

/-- The name of the configuration file of a directory. -/
def localFile : Path := Path.ofText "nimlink.toml"

/-- The variable that replaces the command that starts a daemon. -/
def commandVariable : Text := "NIMLINK_NIMSUGGEST"

/-- The file to load, if there is one. -/
def locate (env : Environment) (tree : FileTree) (path : Option Path) :
    Except LoadError (Option Path) :=
  match path with
  | some p =>
    match env.expand p with
    | .error e => .error (.home e)
    | .ok p => if tree.pathExists env.cwd p.toText then .ok (some p) else .error (.missing p)
  | none =>
    match Locations.find env tree with
    | .error e => .error (.home e)
    | .ok l => .ok ([localFile, l.config].find? fun p => tree.pathExists env.cwd p.toText)

/-- The raw configuration of a file. -/
def readFile (env : Environment) (tree : FileTree) (p : Path) : Except LoadError Raw.Table :=
  match tree.find? env.cwd p.toText with
  | some (.file content _) =>
    match Utf8.decodeStrictly content with
    | .error e => .error (.undecodable e)
    | .ok t =>
      match Toml.read t with
      | .ok table => .ok table
      | .error .malformed => .error (.malformed p)
      | .error (.digits e) => .error (.digits e)
  | some _ => .error (.directory p)
  | none => .error (.missing p)

/-- Replaces the command that starts a daemon by the one of the variable, if it is set. -/
def overrideCommand (env : Environment) (t : Raw.Table) : Except LoadError Raw.Table :=
  match env.nonEmpty? commandVariable with
  | none => .ok t
  | some line =>
    match Words.split line with
    | .error e => .error (.commandLine e)
    | .ok words =>
      let command : Raw := .list (words.map .text)
      match (t.get? "suggest").getD (.table []) with
      | .table inner => .ok (t.put "suggest" (.table (Raw.Table.put inner "executable" command)))
      | v => .error (.unassignable v)

/-- Checks the raw configuration, the command replaced. -/
def finish (env : Environment) (t : Raw.Table) : Except LoadError Config :=
  match overrideCommand env t with
  | .error e => .error e
  | .ok t =>
    match ofRaw env (.table t) with
    | .error e => .error (.home e)
    | .ok (.valid c) => .ok c
    | .ok (.invalid issues) => .error (.invalid issues)

/-- Loads the configuration of a file, or of the file that is found. -/
def load (env : Environment) (tree : FileTree) (path : Option Path) : Except LoadError Config :=
  match locate env tree path with
  | .error e => .error e
  | .ok none => finish env []
  | .ok (some p) =>
    match readFile env tree p with
    | .error e => .error e
    | .ok t => finish env t

/-- The configuration without any file. -/
def loadDefault (env : Environment) : Except LoadError Config := finish env []

end SuggestBridge.Config
