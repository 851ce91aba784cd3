import SuggestBridge.Text.Basic

/-!
# Tables of code point ranges

A class of code points is a table of closed ranges, in increasing order and apart from each other.
-/

namespace SuggestBridge.Text

/-- Whether a code point lies in one of the ranges of a table. -/
def inRanges (table : Array (Nat × Nat)) (n : Nat) : Bool :=
  table.any fun r => r.1 ≤ n && n ≤ r.2

end SuggestBridge.Text
