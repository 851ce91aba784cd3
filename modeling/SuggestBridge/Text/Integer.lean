import SuggestBridge.Text.Blank
import SuggestBridge.Text.Digit

/-!
# Integers in texts

Conversions between integers and decimal texts stop at 4300 digits, so that no text can make a
conversion arbitrarily slow. The sign is not counted; leading zeros are.
-/

namespace SuggestBridge

/-- A conversion between text and integer that exceeds the limit on digits. -/
inductive DigitLimit where
  /-- A text with this many digits was to be read. -/
  | reading (digits : Nat)
  /-- An integer with too many digits was to be written. -/
  | writing
  deriving DecidableEq

/-- The wording of an exceeded limit. -/
def DigitLimit.message : DigitLimit → Text
  | .reading digits =>
    "Exceeds the limit (4300 digits) for integer string conversion: value has " ++
      Text.ofNat digits ++ " digits; use sys.set_int_max_str_digits() to increase the limit"
  | .writing =>
    "Exceeds the limit (4300 digits) for integer string conversion; " ++
      "use sys.set_int_max_str_digits() to increase the limit"

namespace Integer

/-- The largest number of digits that a conversion accepts. -/
def digitLimit : Nat := 4300

/-- The number with the given digits, most significant first. -/
def ofDigits (digits : List Nat) : Nat := digits.foldl (fun n d => 10 * n + d) 0

/-- The sign at the head of a text, and what follows it. -/
def splitSign : Text → Bool × Text
  | [] => (false, [])
  | c :: r => if c = '-' then (true, r) else if c = '+' then (false, r) else (false, c :: r)

/-- A magnitude with its sign. -/
def signed (negative : Bool) (n : Nat) : Int := if negative then -(n : Int) else n

/-- The values of a run of digits in which single underscores may stand between two digits. The
flag tells whether a digit stands right before. -/
def digitRun (value? : CodePoint → Option Nat) (afterDigit : Bool) : Text → Option (List Nat)
  | [] => if afterDigit then some [] else none
  | c :: r =>
    match value? c with
    | some d => (digitRun value? true r).map (d :: ·)
    | none => if afterDigit && c = '_' then digitRun value? false r else none

/-- Blanks that may surround an integer: all but the controls U+001C to U+001F. -/
def isPadding (c : CodePoint) : Bool := c.isBlank && !(0x1C ≤ c.val && c.val ≤ 0x1F)

/-- Reads an integer: surrounding blanks, a sign, digits of any script, single underscores between
digits. Texts of any other form, or beyond the limit on digits, are no integers. -/
def read? (t : Text) : Option Int :=
  let (negative, body) := splitSign (Text.trim isPadding t)
  match digitRun CodePoint.digitValue? false body with
  | none => none
  | some digits =>
    if digits.length ≤ digitLimit then some (signed negative (ofDigits digits)) else none

/-- Writes an integer in decimal. -/
def write (n : Int) : Except DigitLimit Text :=
  if n.natAbs < Nat.pow 10 digitLimit then .ok (Text.ofInt n) else .error .writing

end Integer

end SuggestBridge
