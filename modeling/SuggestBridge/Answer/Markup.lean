import SuggestBridge.Text.Alphanumeric

/-!
# Documentation markup

Daemons document symbols in a structured markup of which three kinds are turned into Markdown:
inline literals between two backticks, code blocks, and links. Each kind is replaced in the whole
text, in this order, so a later kind sees the output of an earlier one.
-/

namespace SuggestBridge.Markup

/-- Replaces the matches of a pattern, found from the left and without overlap. The pattern gives
the replacement and how many code points it matched; the number counts the code points of the last
match that are still to be passed over. -/
def replaceMatches (pattern : Text → Option (Text × Nat)) : Nat → Text → Text
  | _, [] => []
  | 0, c :: r =>
    match pattern (c :: r) with
    | some (replacement, matched) => replacement ++ replaceMatches pattern (matched - 1) r
    | none => c :: replaceMatches pattern 0 r
  | n + 1, _ :: r => replaceMatches pattern n r

/-- How many code points the indented lines at the front of a text hold. The flag tells whether a
line begins here. -/
def indentedLength (lineStart : Bool) : Text → Nat
  | [] => 0
  | c :: r =>
    if lineStart && c ≠ ' ' then 0
    else indentedLength (c = '\n') r + 1

/-- The start of a code block. -/
def blockMarker : Text := ".. code-block:: "

/-- The line end at the front of a text: its length, or nothing. -/
def lineEndLength : Text → Option Nat
  | [] => none
  | c :: r =>
    if c = '\n' then some 1
    else if c = '\r' then (if r.head? = some (CodePoint.ofChar '\n') then some 2 else none)
    else none

/-- A code block at the front of a text: the marker, a word, a line end, and indented lines. -/
def codeBlock (t : Text) : Option (Text × Nat) :=
  if !Text.startsWith t blockMarker then none
  else
    let afterMarker := t.drop blockMarker.length
    let language := afterMarker.takeWhile CodePoint.isWord
    let afterWord := afterMarker.drop language.length
    match lineEndLength afterWord with
    | none => none
    | some lineEnd =>
      let body := afterWord.drop lineEnd
      let size := indentedLength true body
      if language.isEmpty || size = 0 then none
      else
        some ("```" ++ language ++ "\n" ++ body.take size ++ "\n```\n",
          blockMarker.length + language.length + lineEnd + size)

/-- A link at the front of a text: a backtick, a label, a target between angle brackets, a backtick
and an underscore. -/
def link : Text → Option (Text × Nat)
  | [] => none
  | c :: r =>
    if c ≠ '`' then none
    else
      let label := r.takeWhile fun c => c ≠ CodePoint.ofChar '<' && c ≠ CodePoint.ofChar '`'
      let afterLabel := r.drop label.length
      if label.isEmpty || afterLabel.head? ≠ some (CodePoint.ofChar '<') then none
      else
        let target := (afterLabel.drop 1).takeWhile (· ≠ CodePoint.ofChar '>')
        let afterTarget := (afterLabel.drop 1).drop target.length
        if target.isEmpty || !Text.startsWith afterTarget ">`_" then none
        else some ("[" ++ label ++ "](" ++ target ++ ")", label.length + target.length + 5)

/-- Markdown for a text of documentation. -/
def toMarkdown (doc : Text) : Text :=
  replaceMatches link 0 (replaceMatches codeBlock 0 (Text.replace doc "``" "`"))

end SuggestBridge.Markup
