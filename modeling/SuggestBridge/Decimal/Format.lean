import SuggestBridge.Decimal.Shortest

/-!
# The texts of floating-point numbers

Four formats are used: the shortest text that reads back, a fixed number of places, the scientific
form with a fixed number of places, and the general form with a number of significant digits. The
last three have a full variant, with a point even if nothing follows it and, in the general form,
with the zeros at the end.
-/

namespace SuggestBridge.Decimal

/-- The sign of a negative number. -/
def signText (negative : Bool) : Text := if negative then "-" else ""

/-- Digits with the decimal point at a position counted from their front; zeros fill gaps. -/
def positional (digits : Text) (point : Int) : Text × Text :=
  match point with
  | .ofNat p =>
    if p < digits.length then (digits.take p, digits.drop p)
    else (digits ++ List.replicate (p - digits.length) (CodePoint.ofChar '0'), [])
  | .negSucc p => ([], List.replicate (p + 1) (CodePoint.ofChar '0') ++ digits)

/-- A decimal exponent with its sign and at least two digits. -/
def exponentText (e : Int) : Text :=
  let digits := Text.ofNat e.natAbs
  "e" ++ (if e < 0 then "-" else "+") ++ (if digits.length < 2 then "0" else "") ++ digits

/-- Digits and the ones behind the point. -/
def pointed (whole places : Text) (full : Bool) : Text :=
  if places.isEmpty && !full then whole else whole ++ CodePoint.ofChar '.' :: places

/-- Digits in scientific form, the point behind the first one. -/
def scientific (digits : Text) (e : Int) (full : Bool := false) : Text :=
  pointed (digits.take 1) (digits.drop 1) full ++ exponentText e

/-- The shortest text that reads back: positional for decimal exponents from -4 to 15, always with
a point, scientific otherwise. -/
def shortestText (x : Float) : Text :=
  match Binary64.ofFloat x with
  | .nan => "nan"
  | .infinite negative => signText negative ++ "inf"
  | .finite negative 0 _ => signText negative ++ "0.0"
  | .finite negative significand exponent =>
    let d := (shortest significand exponent).normalize 400
    let digits := Text.ofNat d.digits
    let e := d.exponent + digits.length - 1
    signText negative ++
      if -4 ≤ e ∧ e < 16 then
        let (whole, places) := positional digits (e + 1)
        (if whole.isEmpty then Text.ofString "0" else whole) ++ "." ++
          (if places.isEmpty then Text.ofString "0" else places)
      else scientific digits e

/-- A number with a fixed count of places; a tie goes to the even digit. -/
def fixedText (places : Nat) (x : Float) (full : Bool := false) : Text :=
  match Binary64.ofFloat x with
  | .nan => "nan"
  | .infinite negative => signText negative ++ "inf"
  | .finite negative significand exponent =>
    let (num, den) := Binary64.fraction significand exponent
    let scaled := Binary64.divideToEven (num * Nat.pow 10 places) den
    let part := if places = 0 then [] else Text.ofNat (scaled % Nat.pow 10 places)
    let gap := List.replicate (places - part.length) (CodePoint.ofChar '0')
    signText negative ++ pointed (Text.ofNat (scaled / Nat.pow 10 places)) (gap ++ part) full

/-- Drops the zeros at the end of the places. -/
def dropZeros (t : Text) : Text := Text.dropEndWhile (· = '0') t

/-- The quotient of a fraction by a power of ten, rounded to the nearest. -/
def scaledDown (num den : Nat) (exponent : Int) : Nat :=
  match exponent with
  | .ofNat k => Binary64.divideToEven num (den * Nat.pow 10 k)
  | .negSucc k => Binary64.divideToEven (num * Nat.pow 10 (k + 1)) den

/-- A count of leading digits of a positive fraction, rounded, and its decimal exponent. -/
def leadingDigits (count num den : Nat) : Nat × Int :=
  let top := decimalExponent num den 700 (-330)
  let rounded := scaledDown num den (top - ((count : Int) - 1))
  if rounded = Nat.pow 10 count then (Nat.pow 10 (count - 1), top + 1) else (rounded, top)

/-- A number in scientific form with a fixed count of places. -/
def scientificText (places : Nat) (x : Float) (full : Bool := false) : Text :=
  match Binary64.ofFloat x with
  | .nan => "nan"
  | .infinite negative => signText negative ++ "inf"
  | .finite negative 0 _ =>
    signText negative ++ scientific (List.replicate (places + 1) (CodePoint.ofChar '0')) 0 full
  | .finite negative significand exponent =>
    let (num, den) := Binary64.fraction significand exponent
    let (digits, e) := leadingDigits (places + 1) num den
    signText negative ++ scientific (Text.ofNat digits) e full

/-- The general form with a count of significant digits, trailing zeros dropped; positional for
decimal exponents from -4 to below the count, scientific otherwise. -/
def generalText (count : Nat) (x : Float) (full : Bool := false) : Text :=
  let count := max 1 count
  match Binary64.ofFloat x with
  | .nan => "nan"
  | .infinite negative => signText negative ++ "inf"
  | .finite negative 0 _ =>
    let zeros := if full then List.replicate (count - 1) (CodePoint.ofChar '0') else []
    signText negative ++ pointed "0" zeros full
  | .finite negative significand exponent =>
    let (num, den) := Binary64.fraction significand exponent
    let (digits, e) := leadingDigits count num den
    let digits := if full then Text.ofNat digits else dropZeros (Text.ofNat digits)
    signText negative ++
      if -4 ≤ e ∧ e < count then
        let (whole, places) := positional digits (e + 1)
        pointed (if whole.isEmpty then Text.ofString "0" else whole) places full
      else scientific digits e full

/-- The compact form: the general form with six significant digits. -/
def compactText (x : Float) : Text := generalText 6 x

end SuggestBridge.Decimal
