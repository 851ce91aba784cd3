import SuggestBridge.Decimal.Format
import SuggestBridge.Sexp.Basic
import SuggestBridge.Text.Quoted

/-!
# Showing values in messages

A value is shown in full form, with quotes around strings and the parts of symbols and pairs named;
alone in a message, a string or a symbol is shown as its bare text.
-/

namespace SuggestBridge.Sexp

/-- Shows an object without a written form. -/
def Alien.shown : Alien → Text
  | .float x => Decimal.shortestText x
  | .bytes bs => Text.quotedBytes bs
  | .emptyDict => "\x7b\x7d"
  | .emptySet => "set()"

mutual

/-- Shows a value in full form; an integer beyond the limit on digits cannot be shown. -/
def shown : Sexp → Except DigitLimit Text
  | nil => .ok "None"
  | bool b => .ok (if b then "True" else "False")
  | int n => Integer.write n
  | string t => .ok (Text.quoted t)
  | symbol name => .ok ("Symbol(name=" ++ Text.quoted name ++ ")")
  | cons car cdr => do
    let a ← shown car
    let d ← shown cdr
    pure ("Cons(car=" ++ a ++ ", cdr=" ++ d ++ ")")
  | list items => (shownAll items).map fun ts => "[" ++ Text.join ", " ts ++ "]"
  | tuple items => (shownAll items).map fun ts =>
    "(" ++ Text.join ", " ts ++ (if ts.length = 1 then ",)" else ")")
  | alien x => .ok (Alien.shown x)

/-- Shows the values of a sequence. -/
def shownAll : List Sexp → Except DigitLimit (List Text)
  | [] => .ok []
  | v :: vs => do
    let t ← shown v
    let ts ← shownAll vs
    pure (t :: ts)

end

/-- Shows a value that stands alone in a message. -/
def display : Sexp → Except DigitLimit Text
  | string t => .ok t
  | symbol name => .ok name
  | v => shown v

end SuggestBridge.Sexp
