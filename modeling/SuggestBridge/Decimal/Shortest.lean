import SuggestBridge.Decimal.Binary64

/-!
# The shortest decimal that reads back

Of the decimals with the fewest significant digits that round to a given binary64 number, the
nearest one is chosen. The decimals with `k` digits form a grid; the number's two neighbours on it
are tested for `k` from 1 to 17.
-/

namespace SuggestBridge.Decimal

/-- The decimal `digits · 10 ^ exponent`. -/
structure Decimal where
  digits : Nat
  exponent : Int
  deriving DecidableEq

/-- The fraction of a decimal: numerator and denominator. -/
def Decimal.fraction (d : Decimal) : Nat × Nat :=
  match d.exponent with
  | .ofNat e => (d.digits * Nat.pow 10 e, 1)
  | .negSucc e => (d.digits, Nat.pow 10 (e + 1))

/-- The interval of fractions that round to `significand · 2 ^ exponent`, times four: its ends as
multiples of `2 ^ (exponent - 2)`. Below a power of two the grid is twice as fine. -/
def quarterBounds (significand : Nat) (exponent : Int) : Nat × Nat :=
  if significand = Nat.pow 2 52 ∧ exponent ≠ -1074 then (4 * significand - 1, 4 * significand + 2)
  else (4 * significand - 2, 4 * significand + 2)

/-- Whether a decimal rounds to the number `significand · 2 ^ exponent`; the ends of the interval
count if the significand is even. -/
def readsBack (significand : Nat) (exponent : Int) (d : Decimal) : Bool :=
  let (num, den) := d.fraction
  let (low, high) := quarterBounds significand exponent
  let scale (n : Nat) : Nat × Nat := Binary64.fraction n (exponent - 2)
  let (lowNum, lowDen) := scale low
  let (highNum, highDen) := scale high
  if significand % 2 = 0 then lowNum * den ≤ num * lowDen && num * highDen ≤ highNum * den
  else lowNum * den < num * lowDen && num * highDen < highNum * den

/-- The exponent `e` with `10 ^ e ≤ num / den < 10 ^ (e + 1)`, found upwards from a start below. -/
def decimalExponent (num den : Nat) : Nat → Int → Int
  | 0, e => e
  | fuel + 1, e =>
    let next := e + 1
    let reached : Bool := match next with
      | .ofNat k => den * Nat.pow 10 k ≤ num
      | .negSucc k => den ≤ num * Nat.pow 10 (k + 1)
    if reached then decimalExponent num den fuel next else e

/-- The two neighbours of a fraction among the multiples of `10 ^ exponent`, the nearer one first;
an exact tie puts the even one first. -/
def neighbours (num den : Nat) (exponent : Int) : List Decimal :=
  let (n, d) := match exponent with
    | .ofNat e => (num, den * Nat.pow 10 e)
    | .negSucc e => (num * Nat.pow 10 (e + 1), den)
  let below := n / d
  let nearest := Binary64.divideToEven n d
  if nearest = below then [⟨below, exponent⟩, ⟨below + 1, exponent⟩]
  else [⟨below + 1, exponent⟩, ⟨below, exponent⟩]

/-- The shortest decimal of `significand · 2 ^ exponent`, for a positive significand. -/
def shortest (significand : Nat) (exponent : Int) : Decimal :=
  let (num, den) := Binary64.fraction significand exponent
  let top := decimalExponent num den 700 (-330)
  let candidates := (List.range 17).flatMap fun (k : Nat) => neighbours num den (top - k)
  (candidates.find? (readsBack significand exponent)).getD ⟨0, 0⟩

/-- Drops trailing zeros of the digits. -/
def Decimal.normalize (d : Decimal) : Nat → Decimal
  | 0 => d
  | fuel + 1 =>
    if d.digits ≠ 0 ∧ d.digits % 10 = 0 then
      Decimal.normalize ⟨d.digits / 10, d.exponent + 1⟩ fuel
    else d

end SuggestBridge.Decimal
