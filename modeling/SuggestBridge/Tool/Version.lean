import SuggestBridge.Text.Integer

/-!
# Versions

A tool reports its version on a line such as `Nim Compiler Version 2.0.8 (2024-07-03)`. Versions are
compared number by number as far as both go.
-/

namespace SuggestBridge.Version

/-- The word before a version. -/
def keyword : Text := "Version"

/-- The version behind the keyword: a blank, digits and dots, a blank, an opening bracket, and at
least one further code point on the line. -/
def afterKeyword : Text → Option Text
  | [] => none
  | blank :: r =>
    let version := r.takeWhile fun c => c.isDigit || c = CodePoint.ofChar '.'
    match r.drop version.length with
    | space :: bracket :: next :: _ =>
      if blank.isBlank && !version.isEmpty && space.isBlank && bracket = CodePoint.ofChar '(' &&
          next ≠ CodePoint.ofChar '\n' then some version
      else none
    | _ => none

/-- The version behind the last keyword of a line that is followed by one. -/
def lastInLine : Text → Option Text
  | [] => none
  | c :: r =>
    if c = '\n' then none
    else
      match lastInLine r with
      | some version => some version
      | none =>
        if Text.startsWith (c :: r) keyword then afterKeyword ((c :: r).drop keyword.length)
        else none

/-- The texts that begin with each line of a text. -/
def lineStarts (lineStart : Bool) : Text → List Text
  | [] => []
  | c :: r =>
    if lineStart then (c :: r) :: lineStarts (c = '\n') r else lineStarts (c = '\n') r

/-- The version in the output of a tool: the first line with one decides. The keyword must not be
the first word of its line. -/
def find? (output : Text) : Option Text :=
  (lineStarts true output).findSome? fun
    | [] => none
    | c :: r => if c = '\n' then none else lastInLine r

/-- Compares two lists of components number by number; a component that is no number decides
against the first list. -/
def atLeastComponents : List Text → List Text → Bool
  | have' :: hs, want :: ws =>
    match Integer.read? have', Integer.read? want with
    | some h, some w => if h = w then atLeastComponents hs ws else w < h
    | _, _ => false
  | _, _ => true

/-- Whether a version is at least another one, on the components that both have. An unknown version
never is. -/
def atLeast (current : Option Text) (required : Text) : Bool :=
  match current with
  | none => false
  | some v =>
    !v.isEmpty && atLeastComponents (Text.splitAt '.' v) (Text.splitAt '.' required)

end SuggestBridge.Version
