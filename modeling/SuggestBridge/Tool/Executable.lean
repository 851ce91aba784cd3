import SuggestBridge.Log
import SuggestBridge.System.Environment
import SuggestBridge.System.FileTree
import SuggestBridge.Text.Quoted
import SuggestBridge.Tool.Version

/-!
# Finding the daemon's executable

The configured command comes first, its first word looked up on the search path if it is a bare
name; then the executable beside the compiler that the search path leads to; then the executable on
the search path itself.
-/

namespace SuggestBridge.Tool

/-- The file name of an executable on a platform. -/
def binaryName (platform name : Text) : Text :=
  if platform = Text.ofString "win32" then name ++ ".exe" else name

/-- The first entry of the search path that holds an executable file of a name. -/
def which (env : Environment) (tree : FileTree) (name : Text) : Option Text :=
  match env.nonEmpty? "PATH" with
  | none => none
  | some path =>
    ((Text.splitAt ':' path).map fun dir => Path.join dir name).find?
      (tree.isExecutableFile env.cwd)

/-- The path of the executable beside a compiler, if something stands there. -/
def beside (env : Environment) (tree : FileTree) (compiler : Text) : Option Text :=
  let candidate := (tree.resolve env.cwd compiler).parent.below "nimsuggest"
  if tree.pathExists env.cwd candidate.toText then some candidate.toText else none

/-- The command that starts a daemon, where one can be found. -/
def find (env : Environment) (tree : FileTree) (configured : List Text) :
    Option (List Text) × List LogLine :=
  match configured with
  | executable :: arguments =>
    if executable.contains Path.separator then (some configured, [])
    else
      match which env tree executable with
      | some found => (some (found :: arguments), [])
      | none =>
        (none, [Log.warning ("Configured nimsuggest not found on PATH: " ++ executable)])
  | [] =>
    match (which env tree "nim").bind (beside env tree) with
    | some found => (some [found], [])
    | none => ((which env tree "nimsuggest").map ([·]), [])

/-- How a run of a tool ended. -/
inductive ProbeResult where
  | finished (stdout stderr : Text)
  | failed (message : Text)
  | timedOut

/-- The command line that asks a tool for its version. -/
def probeCommand (command : List Text) : List Text := command ++ [Text.ofString "--version"]

/-- The wording for a probe that took too long. -/
def timeoutMessage (command : List Text) : Text :=
  "Command '" ++ Text.quotedList command ++ "' timed out after 10.0 seconds"

/-- The version that a run of a tool reported. -/
def detectVersion (command : List Text) (result : ProbeResult) : Option Text × List LogLine :=
  let failure (message : Text) : Option Text × List LogLine :=
    (none, [Log.warning ("Could not run " ++ command.headD [] ++ " --version: " ++ message)])
  match result with
  | .failed message => failure message
  | .timedOut => failure (timeoutMessage (probeCommand command))
  | .finished stdout stderr =>
    let version := Version.find? (stdout ++ stderr)
    (version, [Log.debug ("nimsuggest version: " ++ version.getD "None")])

end SuggestBridge.Tool
