import SuggestBridge.Decimal.Nearest
import SuggestBridge.Sexp.Display

/-!
# Message templates

A message may be a template with arguments. A template is cut into pieces: code points that stand
for themselves, and directives that begin with a percent sign, each of which takes an argument. Two
percent signs stand for one.
Filling fails if a directive is malformed or does not fit its argument, if arguments are missing,
or if arguments are left.
-/

namespace SuggestBridge.Log

/-- A number in a directive. -/
inductive Count where
  | given (n : Nat)
  /-- The next argument is the number. -/
  | argument

/-- A directive. -/
structure Directive where
  leftAligned : Bool := false
  plus : Bool := false
  blank : Bool := false
  alternate : Bool := false
  zeros : Bool := false
  width : Count := .given 0
  precision : Option Count := none
  /-- What is done with the argument. -/
  letter : CodePoint := 's'

/-- A piece of a template. -/
inductive Piece where
  | plain (c : CodePoint)
  | directive (d : Directive)

/-! ## Cutting a template into pieces -/

/-- Where a directive is being read: each part may be left out. -/
inductive Part where
  /-- Right behind the percent sign. -/
  | start
  | flags
  | width
  | afterWidth
  | precision
  | afterPrecision
  | letter
  deriving DecidableEq

/-- What a code point means for a directive that is being read. -/
inductive Outcome where
  | goesOn (p : Part) (d : Directive)
  | ends (d : Directive)
  | malformed

namespace Directive

/-- The value of an ASCII digit behind a number. -/
def moreDigits (n : Count) (c : CodePoint) : Count :=
  match n with
  | .given n => .given (10 * n + (c.val - 0x30))
  | .argument => .argument

/-- The directive with a flag. -/
def withFlag? (d : Directive) (c : CodePoint) : Option Directive :=
  if c = '-' then some { d with leftAligned := true }
  else if c = '+' then some { d with plus := true }
  else if c = ' ' then some { d with blank := true }
  else if c = '#' then some { d with alternate := true }
  else if c = '0' then some { d with zeros := true }
  else none

/-- The letters of directives. -/
def letters : Text := "sracdiuoxXeEfFgG"

/-- Reads a letter. -/
def endAt (d : Directive) (c : CodePoint) : Outcome :=
  if letters.contains c then .ends { d with letter := c } else .malformed

/-- Reads what may follow the numbers: a size, which means nothing, or the letter. -/
def sizeOrLetter (d : Directive) (c : CodePoint) : Outcome :=
  if c = 'h' ∨ c = 'l' ∨ c = 'L' then .goesOn .letter d else d.endAt c

/-- Reads what may follow the width. -/
def afterWidth (d : Directive) (c : CodePoint) : Outcome :=
  if c = '.' then .goesOn .precision { d with precision := some (.given 0) }
  else d.sizeOrLetter c

/-- Reads a code point of a directive. -/
def read (p : Part) (d : Directive) (c : CodePoint) : Outcome :=
  match p with
  | .start | .flags =>
    match d.withFlag? c with
    | some d => .goesOn .flags d
    | none =>
      if c = '*' then .goesOn .afterWidth { d with width := .argument }
      else if c.isAsciiDigit then .goesOn .width { d with width := moreDigits d.width c }
      else d.afterWidth c
  | .width =>
    if c.isAsciiDigit then .goesOn .width { d with width := moreDigits d.width c }
    else d.afterWidth c
  | .afterWidth => d.afterWidth c
  | .precision =>
    if c = '*' then .goesOn .afterPrecision { d with precision := some .argument }
    else if c.isAsciiDigit then
      .goesOn .precision { d with precision := d.precision.map (moreDigits · c) }
    else d.sizeOrLetter c
  | .afterPrecision => d.sizeOrLetter c
  | .letter => d.endAt c

end Directive

/-- The pieces of a template, given the directive that is being read. -/
def pieces (open? : Option (Part × Directive)) : Text → Option (List Piece)
  | [] => if open?.isSome then none else some []
  | c :: r =>
    match open? with
    | none =>
      if c = '%' then pieces (some (.start, {})) r
      else (pieces none r).map (Piece.plain c :: ·)
    | some (p, d) =>
      if p = .start ∧ c = '%' then (pieces none r).map (Piece.plain c :: ·)
      else
        match d.read p c with
        | .goesOn p d => pieces (some (p, d)) r
        | .ends d => (pieces none r).map (Piece.directive d :: ·)
        | .malformed => none

/-! ## Filling -/

/-- A number with a sign, a mark of its base, and digits. -/
structure Numeral where
  negative : Bool
  base : Text
  digits : Text

/-- A run of one code point. -/
def run (n : Nat) (c : CodePoint) : Text := List.replicate n c

/-- Puts a text into its field. -/
def align (left : Bool) (width : Nat) (t : Text) : Text :=
  if left then t ++ run (width - t.length) ' ' else run (width - t.length) ' ' ++ t

/-- Puts a number into its field. Zeros stand between the sign and the digits. -/
def Numeral.align (n : Numeral) (d : Directive) (left : Bool) (width : Nat) : Text :=
  let sign : Text :=
    if n.negative then "-" else if d.plus then "+" else if d.blank then " " else ""
  let bare := sign ++ n.base ++ n.digits
  if d.zeros && !left then sign ++ n.base ++ run (width - bare.length) '0' ++ n.digits
  else Log.align left width bare

/-- The digits of a number in a base up to 16. -/
def digitsIn (base : Nat) : Nat → Nat → Text
  | 0, _ => []
  | fuel + 1, n =>
    if n < base then [CodePoint.hexDigit n]
    else digitsIn base fuel (n / base) ++ [CodePoint.hexDigit (n % base)]

/-- The integer that an argument is. -/
def integer? : Sexp → Option Int
  | .int n => some n
  | .bool b => some (if b then 1 else 0)
  | _ => none

/-- The integer that an argument is or that a number has before its point. -/
def truncated? : Sexp → Option Int
  | .alien (.float x) =>
    match Binary64.ofFloat x with
    | .finite negative significand exponent =>
      let (num, den) := Binary64.fraction significand exponent
      some (Integer.signed negative (num / den))
    | _ => none
  | v => integer? v

/-- The number that an argument is. -/
def real? : Sexp → Option Float
  | .alien (.float x) => some x
  | v => (integer? v).bind Decimal.ofInt?

/-- An integer in decimal, with at least a number of digits. -/
def decimal? (least : Nat) (v : Sexp) : Option Numeral := do
  let n ← truncated? v
  let digits ← (Integer.write n.natAbs).toOption
  pure ⟨n < 0, [], run (least - digits.length) '0' ++ digits⟩

/-- An integer in a base that is a power of two. -/
def based? (letter : CodePoint) (marked : Bool) (least : Nat) (v : Sexp) : Option Numeral := do
  let n ← integer? v
  let digits := digitsIn (if letter = 'o' then 8 else 16) (n.natAbs.log2 + 1) n.natAbs
  let digits := if letter = 'X' then digits.toAsciiUpper else digits
  pure ⟨n < 0, if marked then ['0', letter] else [], run (least - digits.length) '0' ++ digits⟩

/-- A real number in the form that a letter names. -/
def realNumeral? (letter : CodePoint) (full : Bool) (precision : Nat) (v : Sexp) :
    Option Numeral := do
  let x ← real? v
  let lower := CodePoint.toAsciiLower letter
  let t :=
    if lower = 'e' then Decimal.scientificText precision x full
    else if lower = 'f' then Decimal.fixedText precision x full
    else Decimal.generalText precision x full
  let t := if letter = lower then t else t.toAsciiUpper
  match t with
  | [] => none
  | c :: r => if c = '-' then pure ⟨true, [], r⟩ else pure ⟨false, [], t⟩

/-- The code point that an argument names. -/
def codePoint? : Sexp → Option CodePoint
  | .string [c] => some c
  | v => (integer? v).bind fun n => if 0 ≤ n then CodePoint.ofNat? n.toNat else none

/-- A code point in ASCII, other ones by their number. -/
def inAscii (c : CodePoint) : Text :=
  if c.val < 0x80 then [c]
  else if c.val < 0x100 then "\\x" ++ Text.hexPadded 2 c.val
  else if c.val < 0x10000 then "\\u" ++ Text.hexPadded 4 c.val
  else "\\U" ++ Text.hexPadded 8 c.val

/-- Puts an argument into its field. -/
def Directive.fill (d : Directive) (left : Bool) (width : Nat) (precision : Option Nat)
    (v : Sexp) : Option Text :=
  let letter := d.letter
  let text (t : Except DigitLimit Text) : Option Text :=
    t.toOption.map fun t => align left width (match precision with
      | some n => t.take n
      | none => t)
  let numeral (n : Option Numeral) : Option Text := n.map (Numeral.align · d left width)
  if letter = 's' then text v.display
  else if letter = 'r' then text v.shown
  else if letter = 'a' then text (v.shown.map (List.flatMap inAscii))
  else if letter = 'c' then (codePoint? v).map fun c => align left width [c]
  else if letter = 'd' ∨ letter = 'i' ∨ letter = 'u' then numeral (decimal? (precision.getD 0) v)
  else if letter = 'o' ∨ letter = 'x' ∨ letter = 'X' then
    numeral (based? letter d.alternate (precision.getD 0) v)
  else numeral (realNumeral? letter d.alternate (precision.getD 6) v)

/-- The largest number in a directive. -/
def largestCount : Nat := 2147483647

/-- A number that is given or taken from the arguments, unless it is too large. -/
def Count.take (n : Count) (args : List Sexp) : Option (Int × List Sexp) :=
  let taken : Option (Int × List Sexp) :=
    match n, args with
    | .given n, args => some (n, args)
    | .argument, v :: args => (integer? v).map (·, args)
    | .argument, [] => none
  taken.filter fun p => p.1.natAbs ≤ largestCount

/-- The precision of a directive; a negative one counts as zero. -/
def Directive.takePrecision (d : Directive) (args : List Sexp) :
    Option (Option Nat × List Sexp) :=
  match d.precision with
  | none => some (none, args)
  | some n => (n.take args).map fun p => (some p.1.toNat, p.2)

/-- Fills the pieces of a template. A negative width aligns to the left. -/
def fillPieces : List Piece → List Sexp → Option Text
  | [], args => if args.isEmpty then some [] else none
  | .plain c :: ps, args => (fillPieces ps args).map (c :: ·)
  | .directive d :: ps, args => do
    let (width, args) ← d.width.take args
    let (precision, args) ← d.takePrecision args
    match args with
    | [] => none
    | v :: args =>
      let t ← d.fill (d.leftAligned || width < 0) width.natAbs precision v
      let r ← fillPieces ps args
      pure (t ++ r)

/-- The message of a template. Without arguments it is the message as it stands. -/
def message? (template : Text) (args : List Sexp) : Option Text :=
  if args.isEmpty then some template
  else (pieces none template).bind fun ps => fillPieces ps args

end SuggestBridge.Log
