import SuggestBridge.System.Environment
import SuggestBridge.System.FileTree

/-!
# Where state is kept

Configuration and logs live below one directory: the value of `NIMLINK_HOME` if it is set, or
`.nimlink` in the home directory.
-/

namespace SuggestBridge

/-- The directory of all state. -/
structure Locations where
  home : Path
  deriving DecidableEq

namespace Locations

/-- The configuration file. -/
def config (l : Locations) : Path := l.home.below "config.toml"

/-- The directory of the logs. -/
def logs (l : Locations) : Path := l.home.below "logs"

/-- The standard places, by name. -/
def all (l : Locations) : List (Text × Path) :=
  [("home", l.home), ("config", l.config), ("logs", l.logs)]

/-- Finds the directory of all state. -/
def find (env : Environment) (tree : FileTree) : Except Environment.HomeError Locations :=
  match env.nonEmpty? "NIMLINK_HOME" with
  | some home => (env.expand (Path.ofText home)).map fun p => ⟨tree.resolve env.cwd p.toText⟩
  | none => (env.expand (Path.ofText "~")).map fun p => ⟨p.below ".nimlink"⟩

/-- Finds the directory of all state unless it was found before: the first success is kept. -/
def findOnce (known : Option Locations) (env : Environment) (tree : FileTree) :
    Except Environment.HomeError Locations :=
  match known with
  | some l => .ok l
  | none => find env tree

end Locations

end SuggestBridge
