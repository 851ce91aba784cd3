import SuggestBridge.Text.Integer

/-!
# Reading decimals

The floating-point number nearest to a decimal. Exponents that put a number beyond all
floating-point numbers, or below them, are decided without computing the power of ten.
-/

namespace SuggestBridge.Decimal

/-- The number of decimal digits of a natural number. -/
def digitCount (n : Nat) : Nat := (Text.ofNat n).length

/-- The number nearest to `digits · 10 ^ exponent`. -/
def nearest (negative : Bool) (digits : Nat) (exponent : Int) : Float :=
  let magnitude : Float :=
    if digits = 0 then 0.0
    else
      let top := (digitCount digits : Int) + exponent
      if 400 < top then 1.0 / 0.0
      else if top < -400 then 0.0
      else match exponent with
        | .ofNat e => Float.ofScientific digits false e
        | .negSucc e => Float.ofScientific digits true (e + 1)
  if negative then -magnitude else magnitude

/-- The values of ASCII digits. -/
def digitValues (t : Text) : List Nat := t.map fun c => c.val - 0x30

/-- The number nearest to a decimal that is given by its ASCII digits before and behind the point
and by an exponent. -/
def nearestOfDigits (negative : Bool) (whole places : Text) (exponent : Int) : Float :=
  nearest negative (Integer.ofDigits (digitValues (whole ++ places)))
    (exponent - (places.length : Int))

/-- The decimal exponent that a text ends with; nothing at all is zero. -/
def exponent? (t : Text) : Option Int :=
  match t with
  | [] => some 0
  | c :: r =>
    let (negative, digits) := Integer.splitSign r
    if (c = 'e' ∨ c = 'E') ∧ !digits.isEmpty ∧ digits.all CodePoint.isAsciiDigit then
      some (Integer.signed negative (Integer.ofDigits (digitValues digits)))
    else none

/-- Reads a decimal without a sign: digits with at most one point among or around them, and an
exponent. -/
def magnitude? (negative : Bool) (t : Text) : Option Float :=
  let whole := t.takeWhile CodePoint.isAsciiDigit
  let r := t.drop whole.length
  let (places, r) := match r with
    | c :: s =>
      if c = '.' then (s.takeWhile CodePoint.isAsciiDigit, s.dropWhile CodePoint.isAsciiDigit)
      else ([], r)
    | [] => ([], [])
  if whole.isEmpty && places.isEmpty then none
  else (exponent? r).map (nearestOfDigits negative whole places)

/-- The number nearest to an integer, unless that is infinite. -/
def ofInt? (n : Int) : Option Float :=
  let x := nearest (n < 0) n.natAbs 0
  if x.isFinite then some x else none

/-- Infinity of either sign. -/
def infinity (negative : Bool) : Float := if negative then -1.0 / 0.0 else 1.0 / 0.0

/-- The value of an undefined operation. -/
def undefinedValue : Float := 0.0 / 0.0

end SuggestBridge.Decimal
