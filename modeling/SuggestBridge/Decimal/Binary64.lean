import SuggestBridge.Text.Basic

/-!
# Binary64 numbers as exact fractions

A finite number of 64 bits is `significand · 2 ^ exponent` with a sign. The texts of numbers are
computed from this form in exact integer arithmetic.
-/

namespace SuggestBridge

/-- What a 64-bit floating-point number stands for. -/
inductive Binary64 where
  | nan
  | infinite (negative : Bool)
  /-- The number `significand · 2 ^ exponent`. -/
  | finite (negative : Bool) (significand : Nat) (exponent : Int)
  deriving DecidableEq

namespace Binary64

/-- Decodes the bits of a number. -/
def ofBits (bits : Nat) : Binary64 :=
  let negative : Bool := bits / Nat.pow 2 63 % 2 = 1
  let field : Nat := bits / Nat.pow 2 52 % Nat.pow 2 11
  let mantissa : Nat := bits % Nat.pow 2 52
  if field = 0x7FF then (if mantissa = 0 then infinite negative else nan)
  else if field = 0 then finite negative mantissa (-1074)
  else finite negative (Nat.pow 2 52 + mantissa) ((field : Int) - 1075)

/-- Decodes a number. -/
def ofFloat (x : Float) : Binary64 := ofBits x.toBits.toNat

/-- The magnitude of a finite number as a fraction: numerator and denominator. -/
def fraction (significand : Nat) (exponent : Int) : Nat × Nat :=
  match exponent with
  | .ofNat e => (significand * Nat.pow 2 e, 1)
  | .negSucc e => (significand, Nat.pow 2 (e + 1))

/-- The quotient of two naturals, rounded to the nearest; a tie goes to the even neighbour. -/
def divideToEven (num den : Nat) : Nat :=
  let q := num / den
  let r := num % den
  if 2 * r < den then q
  else if den < 2 * r then q + 1
  else if q % 2 = 0 then q else q + 1

end Binary64

end SuggestBridge
