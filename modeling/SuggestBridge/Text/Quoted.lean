import SuggestBridge.Text.Printable

/-!
# Quoted forms

A quoted text stands between single quotes, or between double quotes where it holds a single quote
and no double one. The backslash, the chosen quote, line feed, carriage return and tab are escaped
by a backslash; other code points that are not printable are written by number. A quoted byte
string begins with `b` and writes every byte outside printable ASCII by number.
-/

namespace SuggestBridge.Text

/-- The quote that stands around a text. -/
def quoteFor (t : Text) : CodePoint :=
  if t.contains (CodePoint.ofChar '\'') && !t.contains (CodePoint.ofChar '"') then '"' else '\''

/-- One code point inside a quoted form. -/
def quotedCodePoint (quote c : CodePoint) : Text :=
  if c = quote ∨ c = '\\' then ['\\', c]
  else if c = '\n' then "\\n"
  else if c = '\r' then "\\r"
  else if c = '\t' then "\\t"
  else if c.isPrintable then [c]
  else if c.val < 0x100 then "\\x" ++ hexPadded 2 c.val
  else if c.val < 0x10000 then "\\u" ++ hexPadded 4 c.val
  else "\\U" ++ hexPadded 8 c.val

/-- The quoted form of a text. -/
def quoted (t : Text) : Text :=
  let q := quoteFor t
  [q] ++ t.flatMap (quotedCodePoint q) ++ [q]

/-- One byte inside a quoted byte string. -/
def quotedByte (quote : CodePoint) (b : UInt8) : Text :=
  let c := CodePoint.ofNat b.toNat
  if c = quote ∨ c = '\\' then ['\\', c]
  else if c = '\n' then "\\n"
  else if c = '\r' then "\\r"
  else if c = '\t' then "\\t"
  else if 0x20 ≤ c.val ∧ c.val < 0x7F then [c]
  else "\\x" ++ hexPadded 2 c.val

/-- The quoted form of a byte string. -/
def quotedBytes (bs : Bytes) : Text :=
  let q := quoteFor (bs.map fun b => CodePoint.ofNat b.toNat)
  CodePoint.ofChar 'b' :: q :: bs.flatMap (quotedByte q) ++ [q]

/-- The quoted form of a list of texts. -/
def quotedList (ts : List Text) : Text := "[" ++ join ", " (ts.map quoted) ++ "]"

end SuggestBridge.Text
