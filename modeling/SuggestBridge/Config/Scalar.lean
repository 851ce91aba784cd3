import SuggestBridge.Config.Issue
import SuggestBridge.Config.Raw
import SuggestBridge.Decimal.Binary64
import SuggestBridge.Decimal.Nearest
import SuggestBridge.Log

/-!
# Numbers, truth values and texts of a configuration

A setting accepts every spelling that leaves no doubt: numbers may be given as texts or truth
values, whole numbers as floating-point numbers without a fraction, and truth values as the usual
words or as zero and one.
-/

namespace SuggestBridge.Config.Check

/-- Checks a value that must also be within bounds. -/
def bounded {α : Type} (check : Raw → Except Problem α) (isWithin : α → Bool) (p : Problem)
    (v : Raw) : Except Problem α :=
  match check v with
  | .ok a => if isWithin a then .ok a else .error p
  | .error e => .error e

/-! ## Numbers -/

/-- Drops the underscores that stand between two ASCII digits. The flag tells whether a digit stands
right before. -/
def joinDigits (afterDigit : Bool) : Text → Text
  | [] => []
  | c :: r =>
    if afterDigit && c = '_' && r.head?.any CodePoint.isAsciiDigit then joinDigits false r
    else c :: joinDigits c.isAsciiDigit r

/-- Reads a number: blanks around it, a sign, a decimal or the word for an infinite or undefined
number in any case. -/
def number? (t : Text) : Option Float :=
  let (negative, r) := Integer.splitSign (joinDigits false (Text.trim Integer.isPadding t))
  let word := r.toAsciiLower
  if word = Text.ofString "inf" ∨ word = Text.ofString "infinity" then
    some (Decimal.infinity negative)
  else if word = Text.ofString "nan" then some Decimal.undefinedValue
  else Decimal.magnitude? negative r

/-- Checks a number. -/
def number : Raw → Except Problem Float
  | .real x => .ok x
  | .bool b => .ok (if b then 1.0 else 0.0)
  | .int n =>
    match Decimal.ofInt? n with
    | some x => .ok x
    | none => .error .noNumber
  | .text t =>
    match number? t with
    | some x => .ok x
    | none => .error .unreadableNumber
  | _ => .error .noNumber

/-- Checks a number that must not be negative. -/
def nonNegative : Raw → Except Problem Float := bounded number (fun x => 0.0 ≤ x) .notBelowZero

/-- Checks a number that must be positive. -/
def positive : Raw → Except Problem Float := bounded number (fun x => 0.0 < x) .notAboveZero

/-- Checks a positive number that may be missing. -/
def optionalPositive : Raw → Except Problem (Option Float)
  | .null => .ok none
  | v => (positive v).map some

/-! ## Integers -/

/-- The bound of the integers of 63 bits and a sign. -/
def wordBound : Nat := Nat.pow 2 63

/-- The integer that a floating-point number stands for, within 63 bits and a sign. -/
def wholeNumber (x : Float) : Except Problem Int :=
  match Binary64.ofFloat x with
  | .nan => .error .infiniteInteger
  | .infinite _ => .error .infiniteInteger
  | .finite negative significand exponent =>
    let (num, den) := Binary64.fraction significand exponent
    if num % den ≠ 0 then .error .fractionalInteger
    else if wordBound ≤ num / den then .error .hugeInteger
    else .ok (Integer.signed negative (num / den))

/-- Reads an integer: blanks around it, a sign, ASCII digits with single underscores between them,
and places that are all zero. -/
def integer? (t : Text) : Option (Bool × Text) :=
  let (negative, r) := Integer.splitSign (joinDigits false (Text.trim Integer.isPadding t))
  let digits := r.takeWhile CodePoint.isAsciiDigit
  if digits.isEmpty then none
  else
    match r.drop digits.length with
    | [] => some (negative, digits)
    | [_] => none
    | c :: zeros => if c = '.' ∧ zeros.all (· = '0') then some (negative, digits) else none

/-- Checks an integer. -/
def integer : Raw → Except Problem Int
  | .int n => .ok n
  | .bool b => .ok (if b then 1 else 0)
  | .real x => wholeNumber x
  | .text t =>
    match integer? t with
    | none => .error .unreadableInteger
    | some (negative, digits) =>
      if digits.length ≤ Integer.digitLimit then
        .ok (Integer.signed negative (Integer.ofDigits (Decimal.digitValues digits)))
      else .error .hugeInteger
  | _ => .error .noInteger

/-- Checks an integer that must be at least one. -/
def atLeastOne : Raw → Except Problem Int := bounded integer (fun n => 1 ≤ n) .notBelowOne

/-! ## Truth values -/

/-- The words for yes. -/
def yesWords : List Text := ["1", "on", "t", "true", "y", "yes"]

/-- The words for no. -/
def noWords : List Text := ["0", "off", "f", "false", "n", "no"]

/-- The truth value of an integer. -/
def truthOfInt (n : Int) : Except Problem Bool :=
  if n = 0 then .ok false else if n = 1 then .ok true else .error .unreadableTruthValue

/-- Checks a truth value. -/
def truth : Raw → Except Problem Bool
  | .bool b => .ok b
  | .int n => if -wordBound ≤ n ∧ n < wordBound then truthOfInt n else .error .noTruthValue
  | .real x =>
    match wholeNumber x with
    | .ok n => truthOfInt n
    | .error _ => .error .noTruthValue
  | .text t =>
    if yesWords.contains t.toAsciiLower then .ok true
    else if noWords.contains t.toAsciiLower then .ok false
    else .error .unreadableTruthValue
  | _ => .error .noTruthValue

/-! ## Texts -/

/-- Checks a text. -/
def text : Raw → Except Problem Text
  | .text t => .ok t
  | _ => .error .noText

/-- Checks a path. -/
def path : Raw → Except Problem Path
  | .text t => .ok (Path.ofText t)
  | .path p => .ok p
  | _ => .error .noPath

/-- Checks the level of the log. -/
def level : Raw → Except Problem Level
  | .text t =>
    match [Level.debug, .info, .warning, .error].find? fun l => l.name == t with
    | some l => .ok l
    | none => .error .noLevel
  | _ => .error .noLevel

end SuggestBridge.Config.Check
