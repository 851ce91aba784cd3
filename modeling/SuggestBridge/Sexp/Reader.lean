import SuggestBridge.Json.Literal
import SuggestBridge.Sexp.Basic

/-!
# Reading symbolic expressions

The reader consumes a text one code point at a time. Its state holds the lists that are still open
and the lexeme that is being read, so reading a text is folding one step over it, and what a text
means does not depend on what stands behind it.

A bare lexeme runs to the next blank, bracket or double quote; a backslash right before a space
lets it hold that space. It is an integer, `nil`, the dot of a pair, or a symbol. A string runs to
the next double quote that no backslash escapes; with a backslash in it, it is read as a literal.
-/

namespace SuggestBridge.Sexp

/-- Why a text is no symbolic expression. -/
inductive Malformation where
  | emptyInput
  | dataAfterValue
  | unbalancedClose
  | invalidCons
  | prematureEnd
  | endAfterBackslash
  | unterminatedString
  | invalidEscape (cause : Json.LiteralError)
  deriving DecidableEq

/-- The wording of a malformation. -/
def Malformation.message : Malformation → Text
  | .emptyInput => "Empty input"
  | .dataAfterValue => "Unexpected data after value"
  | .unbalancedClose => "Unbalanced closing bracket"
  | .invalidCons => "Invalid cons cell syntax"
  | .prematureEnd => "Premature end, expected closing bracket"
  | .endAfterBackslash => "Expected character after escape backslash"
  | .unterminatedString => "Unterminated string"
  | .invalidEscape cause => "Invalid string escape: " ++ cause.message

/-- A malformation with the offset at which it was found. -/
structure Malformed where
  reason : Malformation
  position : Nat
  deriving DecidableEq

/-- The wording of a malformation with its offset. -/
def Malformed.message (e : Malformed) : Text :=
  e.reason.message ++ " (at offset " ++ Text.ofNat e.position ++ ")"

/-- Why a text could not be read. -/
inductive ReadError where
  /-- The text is malformed. -/
  | malformed (e : Malformed)
  /-- The text holds an integer beyond the limit on digits. -/
  | digits (e : DigitLimit)
  deriving DecidableEq

namespace Reader

/-- A list that is being read: its items, last one first, and whether a dot is among them. -/
structure Open where
  items : List Sexp
  dotted : Bool

/-- The lexeme that is being read. -/
inductive Lexeme where
  /-- Between two lexemes. -/
  | between
  /-- A bare lexeme that began at `start`; `name` holds what was read of it, last code point
  first, and `escaping` tells that a backslash stands right before. -/
  | bare (start : Nat) (name : Text) (escaping : Bool)
  /-- A string whose quote stands at `start`; `raw` holds what was read of it, last code point
  first. -/
  | quoted (start : Nat) (raw : Text) (escapes escaping : Bool)

/-- A text that has been read in part. -/
structure State where
  /-- How many code points have been read. -/
  position : Nat
  /-- The innermost list; the outermost one stands for the whole text. -/
  current : Open
  /-- The lists around it, innermost first. -/
  outer : List Open
  lexeme : Lexeme

/-- Nothing has been read. -/
def State.initial : State := ⟨0, ⟨[], false⟩, [], .between⟩

/-- The blanks between lexemes: space, tab, line feed and carriage return. -/
def isBlank (c : CodePoint) : Bool := c = ' ' || c = '\t' || c = '\r' || c = '\n'

/-- The code points at which a bare lexeme ends. -/
def isDelimiter (c : CodePoint) : Bool := isBlank c || c = '(' || c = ')' || c = '"'

/-- The digits of an optional minus sign and ASCII digits, sign first. -/
def integerDigits? (name : Text) : Option (Bool × List Nat) :=
  let (negative, digits) := match name with
    | c :: r => if c = '-' then (true, r) else (false, name)
    | [] => (false, [])
  if !digits.isEmpty && digits.all CodePoint.isAsciiDigit then
    some (negative, digits.map fun c => c.val - 0x30)
  else none

/-- The value of a bare lexeme. -/
def atom (name : Text) : Except ReadError Sexp :=
  match integerDigits? name with
  | some (negative, digits) =>
    if digits.length ≤ Integer.digitLimit then
      .ok (.int (Integer.signed negative (Integer.ofDigits digits)))
    else .error (.digits (.reading digits.length))
  | none => .ok (if name = Text.ofString "nil" then .nil else .symbol name)

/-- A malformation found at an offset. -/
def refuse {α : Type} (reason : Malformation) (position : Nat) : Except ReadError α :=
  .error (.malformed ⟨reason, position⟩)

/-- Adds an item to the innermost list. -/
def State.push (st : State) (v : Sexp) : State :=
  { st with current := { st.current with items := v :: st.current.items }, lexeme := .between }

/-- Ends a bare lexeme. A dot is accepted only as the second item of a list, once. -/
def State.endBare (st : State) (start : Nat) (name : Text) : Except ReadError State :=
  if name = Text.ofString "." then
    if st.outer.isEmpty || st.current.dotted || st.current.items.length ≠ 1 then
      refuse .invalidCons start
    else
      let st := st.push (.symbol ".")
      .ok { st with current := { st.current with dotted := true } }
  else (atom name).map st.push

/-- Ends a string. With a backslash in it, it is read as a literal from quote to quote. -/
def State.endQuoted (st : State) (start : Nat) (raw : Text) (escapes : Bool) :
    Except ReadError State :=
  if escapes then
    match Json.decode (raw.reverse ++ [CodePoint.ofChar '"']) with
    | .ok t => .ok (st.push (.string t))
    | .error cause => refuse (.invalidEscape cause) start
  else .ok (st.push (.string raw.reverse))

/-- The value of a closed list: a pair if its second item is the dot. -/
def Open.close (o : Open) : Option Sexp :=
  if o.dotted then
    match o.items with
    | [cdr, _, car] => some (.cons car cdr)
    | _ => none
  else some (.list o.items.reverse)

/-- Ends the innermost list at its closing bracket. -/
def State.close (st : State) : Except ReadError State :=
  match st.outer with
  | [] => refuse .unbalancedClose st.position
  | parent :: outer =>
    match st.current.close with
    | none => refuse .invalidCons (st.position + 1)
    | some v => .ok (State.push { st with current := parent, outer := outer } v)

/-- Reads a code point between two lexemes. -/
def State.begin (st : State) (c : CodePoint) : Except ReadError State :=
  if isBlank c then .ok { st with lexeme := .between }
  else if c = ')' then st.close
  else if c = '(' then
    .ok { st with current := ⟨[], false⟩, outer := st.current :: st.outer, lexeme := .between }
  else if c = '"' then .ok { st with lexeme := .quoted st.position [] false false }
  else if c = '\\' then .ok { st with lexeme := .bare st.position [] true }
  else .ok { st with lexeme := .bare st.position [c] false }

/-- Reads a code point of a bare lexeme, or the first one behind it. -/
def State.continueBare (st : State) (start : Nat) (name : Text) (c : CodePoint) :
    Except ReadError State :=
  if isDelimiter c then
    match st.endBare start name.reverse with
    | .ok st => st.begin c
    | .error e => .error e
  else if c = '\\' then .ok { st with lexeme := .bare start name true }
  else .ok { st with lexeme := .bare start (c :: name) false }

/-- Reads a code point. -/
def State.accept (st : State) (c : CodePoint) : Except ReadError State :=
  match st.lexeme with
  | .between => st.begin c
  | .bare start name false => st.continueBare start name c
  | .bare start name true =>
    if c = ' ' then .ok { st with lexeme := .bare start (c :: name) false }
    else st.continueBare start (CodePoint.ofChar '\\' :: name) c
  | .quoted start raw _ true => .ok { st with lexeme := .quoted start (c :: raw) true false }
  | .quoted start raw escapes false =>
    if c = '"' then st.endQuoted start raw escapes
    else .ok { st with lexeme := .quoted start (c :: raw) escapes (c = '\\') }

/-- Reads a code point and counts it. -/
def State.step (st : State) (c : CodePoint) : Except ReadError State :=
  (st.accept c).map fun st' => { st' with position := st.position + 1 }

/-- Reads the rest of a text. -/
def State.run (st : State) : Text → Except ReadError State
  | [] => .ok st
  | c :: r =>
    match st.step c with
    | .ok st => st.run r
    | .error e => .error e

/-- Ends the lexeme that the end of the text cuts off. -/
def State.endLexeme (st : State) : Except ReadError State :=
  match st.lexeme with
  | .between => .ok st
  | .bare start name false => st.endBare start name.reverse
  | .bare start name true => st.endBare start (CodePoint.ofChar '\\' :: name).reverse
  | .quoted _ _ _ true => refuse .endAfterBackslash (st.position - 1)
  | .quoted start _ _ false => refuse .unterminatedString start

/-- The value of the whole text. -/
def State.finish (st : State) : Except ReadError Sexp :=
  match st.endLexeme with
  | .error e => .error e
  | .ok st =>
    if !st.outer.isEmpty then refuse .prematureEnd st.position
    else match st.current.items with
      | [] => refuse .emptyInput st.position
      | [v] => .ok v
      | _ => refuse .dataAfterValue st.position

end Reader

/-- Reads a text that holds exactly one value. -/
def read (t : Text) : Except ReadError Sexp :=
  match Reader.State.initial.run t with
  | .ok st => st.finish
  | .error e => .error e

end SuggestBridge.Sexp
