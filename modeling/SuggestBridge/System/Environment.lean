import SuggestBridge.Path.Basic

/-!
# The environment of a run

Variables and the working directory. A path that begins with `~` is expanded with the home
directory that the environment names; no other account has one.
-/

namespace SuggestBridge

/-- The variables that are set, and the working directory. -/
structure Environment where
  settings : List (Text × Text)
  cwd : Text

namespace Environment

/-- The value of a variable. -/
def get? (env : Environment) (name : Text) : Option Text :=
  (env.settings.find? fun v => v.1 == name).map Prod.snd

/-- The value of a variable that is set and not empty. -/
def nonEmpty? (env : Environment) (name : Text) : Option Text :=
  match env.get? name with
  | some v => if v.isEmpty then none else some v
  | none => none

/-- The home directory: the variable `HOME` without slashes at its end, or the root. -/
def home? (env : Environment) : Option Text :=
  (env.get? "HOME").map fun h =>
    let h := Text.dropEndWhile (· == Path.separator) h
    if h.isEmpty then [Path.separator] else h

/-- A home directory that is not known. -/
inductive HomeError where
  | unknown
  deriving DecidableEq

/-- The wording for an unknown home directory. -/
def HomeError.message : HomeError → Text
  | .unknown => "Could not determine home directory."

/-- Replaces a leading `~` by the home directory. -/
def expand (env : Environment) (p : Path) : Except HomeError Path :=
  if p.isRooted then .ok p
  else match p.parts with
    | [] => .ok p
    | first :: rest =>
      if first.head? ≠ some (CodePoint.ofChar '~') then .ok p
      else if first ≠ Text.ofString "~" then .error .unknown
      else match env.home? with
        | none => .error .unknown
        | some h =>
          if h.head? = some (CodePoint.ofChar '~') then .error .unknown
          else .ok ⟨(Path.ofText h).slashes, (Path.ofText h).parts ++ rest⟩

end Environment

end SuggestBridge
