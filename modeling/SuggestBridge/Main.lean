import SuggestBridge.Cli.Run

/-!
# The program

Gathers what the commands look at, runs one, and shows what it printed. Commands that only read the
configuration and the search path work in full; no daemon is started from here, so every question
about a file ends as it does where a daemon cannot be started.
-/

namespace SuggestBridge.Program

/-- The variables that the commands look at. -/
def variableNames : List String :=
  ["HOME", "PATH", "NIMLINK_HOME", "NIMLINK_NIMSUGGEST", "NIMLINK_LOG_LEVEL"]

/-- The message for a process that is not started. -/
def notStarted : Text := "processes cannot be started"

/-- The environment of the program. -/
def readEnvironment : IO Environment := do
  let settings ← variableNames.filterMapM fun name => do
    let value ← IO.getEnv name
    pure (value.map fun v => (Text.ofString name, Text.ofString v))
  let cwd ← IO.currentDir
  pure ⟨settings, cwd.toString⟩

/-- Adds the file or directory of a path to a tree, if there is one. -/
def addPath (env : Environment) (tree : FileTree) (path : Text) : IO FileTree := do
  let place := (Path.ofText (Path.normalize env.cwd path)).parts
  match Text.toString? (Path.join env.cwd path) with
  | none => pure tree
  | some name =>
    try
      let content ← IO.FS.readBinFile name
      pure ((tree.makeDirectories place.dropLast).put place (.file content.toList false))
    catch _ =>
      try
        let _ ← ((← IO.currentDir) / name).readDir
        pure (tree.makeDirectories place)
      catch _ => pure tree

/-- Adds the files of a directory of the search path to a tree, all as executable ones. -/
def addTools (env : Environment) (tree : FileTree) (directory : Text) : IO FileTree := do
  let place := (Path.ofText (Path.normalize env.cwd directory)).parts
  match Text.toString? (Path.join env.cwd directory) with
  | none => pure tree
  | some name =>
    try
      let entries ← ((← IO.currentDir) / name).readDir
      let tree := tree.makeDirectories place
      pure (entries.foldl
        (fun tree e => tree.put (place ++ [Text.ofString e.fileName]) (.file [] true)) tree)
    catch _ => pure tree

/-- The paths that a command line may lead to. -/
def candidates (env : Environment) (arguments : List Text) : List Text :=
  let expanded := arguments.filterMap fun a => (env.expand (Path.ofText a)).toOption
  let home := (Locations.find env FileTree.empty).toOption.toList
  (Config.localFile :: home.map Locations.config ++ expanded).map Path.toText

/-- The part of the file system that a command line may lead to. -/
def readTree (env : Environment) (arguments : List Text) : IO FileTree := do
  let tree ← (candidates env arguments).foldlM (addPath env) FileTree.empty
  match env.nonEmpty? "PATH" with
  | none => pure tree
  | some path => (Text.splitAt ':' path).foldlM (addTools env) tree

/-- Prints a line. -/
def printLine (t : Text) : IO Unit := IO.println ((Text.toString? t).getD "")

/-- Runs a command line and gives its exit code. -/
def run (arguments : List Text) : IO UInt32 := do
  let env ← readEnvironment
  let tree ← readTree env arguments
  let transcript := Cli.run
    { env, tree, scripts := [{ startError := some notStarted }], probe := .failed notStarted }
    arguments
  for item in transcript.printed do
    item.plainLines.forM printLine
  transcript.lines.forM printLine
  match transcript.ending with
  | .crash c => IO.eprintln ((Text.toString? c.message).getD "")
  | .exit _ => pure ()
  pure transcript.ending.code.toUInt32

end SuggestBridge.Program

/-- Runs the command line of the program. -/
def main (arguments : List String) : IO UInt32 :=
  SuggestBridge.Program.run (arguments.map SuggestBridge.Text.ofString)
