import SuggestBridge.Decimal.Format
import SuggestBridge.Decimal.Nearest
import SuggestBridge.Json.Literal

/-!
# JSON documents

A document is read from a text and written on one line, in ASCII. Numbers with a point or an
exponent are real, all others are integers of any size. The fields of an object keep their order.
-/

namespace SuggestBridge

/-- A JSON document. -/
inductive Json where
  | null
  | bool (b : Bool)
  | int (n : Int)
  | real (x : Float)
  | text (t : Text)
  | list (items : List Json)
  | object (fields : List (Text × Json))

instance : Inhabited Json := ⟨.null⟩

namespace Json

/-! ## Access -/

/-- The field of a name, if there is one. -/
def get? (j : Json) (name : Text) : Option Json :=
  match j with
  | object fields => (fields.find? fun f => f.1 == name).map Prod.snd
  | _ => none

/-- The field of a name, or null. -/
def get (j : Json) (name : Text) : Json := (j.get? name).getD .null

/-- The items of a list; nothing else has any. -/
def items : Json → List Json
  | list items => items
  | _ => []

/-- The fields of an object; nothing else has any. -/
def fields : Json → List (Text × Json)
  | object fields => fields
  | _ => []

/-! ## Writing -/

mutual

/-- Writes a document. -/
def render : Json → Text
  | null => "null"
  | bool b => if b then "true" else "false"
  | int n => Text.ofInt n
  | real x => Decimal.shortestText x
  | text t => narrowLiteral t
  | list items => "[" ++ Text.join ", " (renderItems items) ++ "]"
  | object fields => "\x7b" ++ Text.join ", " (renderFields fields) ++ "\x7d"

/-- Writes the items of a list. -/
def renderItems : List Json → List Text
  | [] => []
  | j :: js => render j :: renderItems js

/-- Writes the fields of an object. -/
def renderFields : List (Text × Json) → List Text
  | [] => []
  | f :: fs => (narrowLiteral f.1 ++ ": " ++ render f.2) :: renderFields fs

end

/-! ## Reading -/

/-- Drops the blanks at the front. -/
def skipBlanks (t : Text) : Text := t.dropWhile isBlank

/-- Reads a literal whose opening quote was read. -/
def literal? (t : Text) : Option (Text × Text) := (scan t).toOption

/-- The code points of a number. -/
def isNumeric (c : CodePoint) : Bool :=
  c.isAsciiDigit || c = '-' || c = '+' || c = '.' || c = 'e' || c = 'E'

/-- The number of a text. -/
def number? (t : Text) : Option Json :=
  let (negative, digits) := Integer.splitSign t
  if digits.isEmpty then none
  else if digits.all CodePoint.isAsciiDigit then
    some (.int (Integer.signed negative (Integer.ofDigits (Decimal.digitValues digits))))
  else (Decimal.magnitude? negative digits).map .real

/-- The words of a document. -/
def words : List (Text × Json) := [("null", .null), ("true", .bool true), ("false", .bool false)]

/-- Reads a word or a number. -/
def atom? (t : Text) : Option (Json × Text) :=
  match words.find? fun w => Text.startsWith t w.1 with
  | some w => some (w.2, t.drop w.1.length)
  | none => (number? (t.takeWhile isNumeric)).map (·, t.dropWhile isNumeric)

/-- What follows a code point at the front. -/
def after? (c : CodePoint) : Text → Option Text
  | [] => none
  | d :: r => if d = c then some r else none

mutual

/-- Reads a value. -/
def value? : Nat → Text → Option (Json × Text)
  | 0, _ => none
  | fuel + 1, t =>
    match skipBlanks t with
    | [] => none
    | c :: r =>
      if c = '"' then (literal? r).map fun p => (.text p.1, p.2)
      else if c = '[' then
        match after? ']' (skipBlanks r) with
        | some r => some (.list [], r)
        | none => (items? fuel r).map fun p => (.list p.1, p.2)
      else if c = '\x7b' then
        match after? '\x7d' (skipBlanks r) with
        | some r => some (.object [], r)
        | none => (fields? fuel r).map fun p => (.object p.1, p.2)
      else atom? (c :: r)

/-- Reads the items of a list and its closing bracket. -/
def items? : Nat → Text → Option (List Json × Text)
  | 0, _ => none
  | fuel + 1, t => do
    let (v, r) ← value? fuel t
    match skipBlanks r with
    | [] => none
    | c :: r =>
      if c = ']' then some ([v], r)
      else if c = ',' then
        let (vs, r) ← items? fuel r
        some (v :: vs, r)
      else none

/-- Reads the fields of an object and its closing brace. -/
def fields? : Nat → Text → Option (List (Text × Json) × Text)
  | 0, _ => none
  | fuel + 1, t => do
    let (name, r) ← literal? (← after? '"' (skipBlanks t))
    let (v, r) ← value? fuel (← after? ':' (skipBlanks r))
    match skipBlanks r with
    | [] => none
    | c :: r =>
      if c = '\x7d' then some ([(name, v)], r)
      else if c = ',' then
        let (fs, r) ← fields? fuel r
        some ((name, v) :: fs, r)
      else none

end

/-- Reads a document with nothing but blanks around it. -/
def read? (t : Text) : Option Json :=
  match value? (2 * t.length + 2) t with
  | some (j, r) => if (skipBlanks r).isEmpty then some j else none
  | none => none

end Json

end SuggestBridge
