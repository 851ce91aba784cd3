import SuggestBridge.Path.Normal

/-!
# Paths as components

A path is a number of leading slashes (none, one or two) and a list of components. Empty and `.`
components are dropped when a path is read; `..` components stay.
-/

namespace SuggestBridge

/-- A path as leading slashes and components. -/
structure Path where
  slashes : Nat
  parts : List Text
  deriving DecidableEq

namespace Path

/-- Reads a path. -/
def ofText (t : Text) : Path :=
  ⟨leadingSlashes t, (Text.splitAt separator t).filter fun c => !c.isEmpty && c != here⟩

/-- Writes a path. -/
def toText (p : Path) : Text := assemble p.slashes p.parts

/-- Whether a path starts at the root. -/
def isRooted (p : Path) : Bool := p.slashes ≠ 0

/-- The path of an entry below a path; an entry that starts at the root replaces it. -/
def below (p : Path) (t : Text) : Path :=
  let q := ofText t
  if q.isRooted then q else ⟨p.slashes, p.parts ++ q.parts⟩

/-- The path without its last component. -/
def parent (p : Path) : Path := ⟨p.slashes, p.parts.dropLast⟩

/-- The last component; empty for a root. -/
def name (p : Path) : Text := p.parts.getLast?.getD []

/-- The part of the last component from its last dot on, unless that dot is its first or last code
point. -/
def suffix (p : Path) : Text :=
  let n := p.name
  let tail := (n.reverse.takeWhile (· != CodePoint.ofChar '.')).reverse
  if tail.isEmpty || n.length ≤ tail.length + 1 then [] else CodePoint.ofChar '.' :: tail

/-- The path below a working directory, its `..` components kept. -/
def absolute (cwd : Text) (p : Path) : Path :=
  if p.isRooted then p else ⟨(ofText cwd).slashes, (ofText cwd).parts ++ p.parts⟩

end Path

end SuggestBridge
