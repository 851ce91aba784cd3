import SuggestBridge.Decimal.Format

/-!
# Spans of time

A span of time in seconds is given as a whole number or as a floating-point number, and messages
write it in the way it was given.
-/

namespace SuggestBridge

/-- A span of time in seconds. -/
inductive Seconds where
  | whole (n : Int)
  | real (x : Float)

namespace Seconds

/-- The span as a floating-point number. -/
def toFloat : Seconds → Float
  | whole n => Float.ofInt n
  | real x => x

/-- The written form of a span. -/
def text : Seconds → Text
  | whole n => Text.ofInt n
  | real x => Decimal.shortestText x

end Seconds

end SuggestBridge
