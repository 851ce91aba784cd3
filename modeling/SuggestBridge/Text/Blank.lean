import SuggestBridge.Text.Basic

/-!
# Blank code points

The blank code points are the separators of Unicode together with the controls that separate
lines, fields and records: U+0009 to U+000D, U+001C to U+001F and U+0085.
-/

namespace SuggestBridge

/-- Whether a code point counts as blank when a text is trimmed or searched for blanks. -/
def CodePoint.isBlank (c : CodePoint) : Bool :=
  (0x9 ≤ c.val && c.val ≤ 0xD) || (0x1C ≤ c.val && c.val ≤ 0x20) || c.val == 0x85 ||
  c.val == 0xA0 || c.val == 0x1680 || (0x2000 ≤ c.val && c.val ≤ 0x200A) || c.val == 0x2028 ||
  c.val == 0x2029 || c.val == 0x202F || c.val == 0x205F || c.val == 0x3000

namespace Text

/-- Drops the blanks at both ends. -/
def strip (t : Text) : Text := trim CodePoint.isBlank t

/-- Drops the blanks at the end. -/
def stripEnd (t : Text) : Text := dropEndWhile CodePoint.isBlank t

end Text

end SuggestBridge
