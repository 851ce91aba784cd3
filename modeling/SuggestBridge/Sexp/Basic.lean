import SuggestBridge.Text.Integer

/-!
# Symbolic expressions

The values that calls and replies carry: nil, integers, strings, symbols, lists and dotted pairs.
Callers may also pass truth values and tuples, which have a written form, and a few objects that
have none.
-/

namespace SuggestBridge

/-- An object without a written form. -/
inductive Alien where
  | float (x : Float)
  | bytes (bs : Bytes)
  | emptyDict
  | emptySet

/-- A symbolic expression. -/
inductive Sexp where
  | nil
  | bool (b : Bool)
  | int (n : Int)
  | string (t : Text)
  | symbol (name : Text)
  | list (items : List Sexp)
  | cons (car cdr : Sexp)
  | tuple (items : List Sexp)
  | alien (x : Alien)

namespace Sexp

instance : Inhabited Sexp := ⟨.nil⟩

/-- The word for the kind of an object without a written form. -/
def Alien.kindName : Alien → Text
  | .float _ => "float"
  | .bytes _ => "bytes"
  | .emptyDict => "dict"
  | .emptySet => "set"

/-- The word for the kind of a value in messages. -/
def kindName : Sexp → Text
  | nil => "NoneType"
  | bool _ => "bool"
  | int _ => "int"
  | string _ => "str"
  | symbol _ => "Symbol"
  | list _ => "list"
  | cons _ _ => "Cons"
  | tuple _ => "tuple"
  | alien x => Alien.kindName x

mutual

/-- The value that is read back after a value was written: truth values become the symbol `t` and
nil, tuples become lists. -/
def canon : Sexp → Sexp
  | bool true => symbol "t"
  | bool false => nil
  | list items => list (canonAll items)
  | tuple items => list (canonAll items)
  | cons car cdr => cons (canon car) (canon cdr)
  | v => v

/-- The values that are read back after a sequence of values was written. -/
def canonAll : List Sexp → List Sexp
  | [] => []
  | v :: vs => canon v :: canonAll vs

end

mutual

/-- Structural equality of values that have a written form and hold neither truth values nor
tuples; any other value equals nothing. -/
def same : Sexp → Sexp → Bool
  | nil, nil => true
  | int a, int b => a == b
  | string a, string b => a == b
  | symbol a, symbol b => a == b
  | list xs, list ys => sameAll xs ys
  | cons a b, cons c d => same a c && same b d
  | _, _ => false

/-- Structural equality of two sequences. -/
def sameAll : List Sexp → List Sexp → Bool
  | [], [] => true
  | x :: xs, y :: ys => same x y && sameAll xs ys
  | _, _ => false

end

end Sexp

end SuggestBridge
