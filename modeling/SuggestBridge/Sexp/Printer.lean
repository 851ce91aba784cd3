import SuggestBridge.Sexp.Reader
import SuggestBridge.Text.Quoted

/-!
# Writing symbolic expressions

Every value with a written form is written on one line, a single space between neighbours. A symbol
is refused if reading its name would give anything else; spaces in a name are escaped.
-/

namespace SuggestBridge.Sexp

/-- Why a value cannot be written. -/
inductive WriteError where
  /-- The name of a symbol would be read as something else. -/
  | symbol (name : Text)
  /-- The value is of a kind that has no written form. -/
  | kind (name : Text)
  /-- An integer exceeds the limit on digits. -/
  | digits (e : DigitLimit)
  deriving DecidableEq

/-- The wording of a refusal to write. -/
def WriteError.message : WriteError → Text
  | .symbol name => "Symbol " ++ Text.quoted name ++ " cannot be written as an S-expression"
  | .kind name => "Cannot serialize " ++ name ++ " as S-expression"
  | .digits e => e.message

/-- Whether reading a name, its spaces escaped, gives the symbol of that name. -/
def isWritableName (name : Text) : Bool :=
  !name.isEmpty && name ≠ Text.ofString "nil" && name ≠ Text.ofString "." &&
  !Text.endsWith name "\\" && (Reader.integerDigits? name).isNone &&
  !name.any fun c => Reader.isDelimiter c && c ≠ ' '

/-- One code point of a written name. -/
def nameCodePoint (c : CodePoint) : Text := if c = ' ' then "\\ " else [c]

/-- Writes the name of a symbol. -/
def writeName (name : Text) : Except WriteError Text :=
  if isWritableName name then .ok (name.flatMap nameCodePoint) else .error (.symbol name)

mutual

/-- Writes a value. -/
def write : Sexp → Except WriteError Text
  | nil => .ok "nil"
  | bool false => .ok "nil"
  | bool true => .ok "t"
  | int n => (Integer.write n).mapError .digits
  | string t => .ok (Json.wideLiteral t)
  | symbol name => writeName name
  | cons car cdr => do
    let a ← write car
    let d ← write cdr
    pure ("(" ++ a ++ " . " ++ d ++ ")")
  | list items => (writeAll items).map fun ts => "(" ++ Text.join " " ts ++ ")"
  | tuple items => (writeAll items).map fun ts => "(" ++ Text.join " " ts ++ ")"
  | alien x => .error (.kind (Alien.kindName x))

/-- Writes the values of a sequence; the first one that cannot be written decides the failure. -/
def writeAll : List Sexp → Except WriteError (List Text)
  | [] => .ok []
  | v :: vs => do
    let t ← write v
    let ts ← writeAll vs
    pure (t :: ts)

end

end SuggestBridge.Sexp
