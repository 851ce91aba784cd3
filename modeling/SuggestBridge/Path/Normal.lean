import SuggestBridge.Text.Basic

/-!
# Normal forms of paths

A path is made absolute against a working directory and then loses its empty, `.` and `..`
components. Exactly two leading slashes are kept; any other number counts as one.
-/

namespace SuggestBridge.Path

/-- The code point between the components of a path. -/
def separator : CodePoint := '/'

/-- The name of the directory itself. -/
def here : Text := "."

/-- The name of the directory above. -/
def above : Text := ".."

/-- Whether a path starts at the root. -/
def isAbsolute (p : Text) : Bool := p.head? == some separator

/-- How many leading slashes a path keeps: none, one, or exactly two. -/
def leadingSlashes (p : Text) : Nat :=
  match (p.takeWhile (· == separator)).length with
  | 0 => 0
  | 2 => 2
  | _ => 1

/-- A path with its parent put before it, unless it starts at the root. -/
def join (parent p : Text) : Text :=
  if isAbsolute p then p
  else if parent.isEmpty || parent.getLast? == some separator then parent ++ p
  else parent ++ separator :: p

/-- Adds a component to a stack of components, last one first: `..` removes one, unless there is
none that it could remove. -/
def pushComponent (rooted : Bool) (stack : List Text) (c : Text) : List Text :=
  if c.isEmpty || c == here then stack
  else if c ≠ above then c :: stack
  else match stack with
    | [] => if rooted then [] else [c]
    | top :: rest => if top == above then c :: stack else rest

/-- The components of a path without empty, `.` and removable `..` components. -/
def normalComponents (rooted : Bool) (p : Text) : List Text :=
  ((Text.splitAt separator p).foldl (pushComponent rooted) []).reverse

/-- Leading slashes and components as a path; nothing at all is the directory itself. -/
def assemble (slashes : Nat) (components : List Text) : Text :=
  let t := List.replicate slashes separator ++ Text.join [separator] components
  if t.isEmpty then here else t

/-- The normal form of a path, relative paths staying relative. -/
def normalForm (p : Text) : Text :=
  let slashes := leadingSlashes p
  assemble slashes (normalComponents (slashes ≠ 0) p)

/-- The normal form of a path below a working directory. -/
def normalize (cwd p : Text) : Text := normalForm (join cwd p)

end SuggestBridge.Path
