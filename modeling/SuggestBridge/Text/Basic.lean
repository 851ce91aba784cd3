/-!
# Texts as sequences of code points

A text is a list of Unicode code points. Lone surrogates (U+D800 to U+DFFF) are allowed, since
daemons and callers may hand them over; only encoding to UTF-8 refuses them. Every length, offset
and order of this library counts code points.
-/

namespace SuggestBridge

/-- A Unicode code point, surrogates included. -/
structure CodePoint where
  val : Nat
  isLt : val < 0x110000
  deriving DecidableEq

namespace CodePoint

/-- The code point of a character. -/
def ofChar (c : Char) : CodePoint :=
  ⟨c.toNat, by
    have h := c.valid
    simp only [UInt32.isValidChar, Nat.isValidChar] at h
    simp only [Char.toNat]
    omega⟩

instance : Coe Char CodePoint := ⟨ofChar⟩
instance : Inhabited CodePoint := ⟨'\x00'⟩
instance : LT CodePoint := ⟨fun a b => a.val < b.val⟩
instance (a b : CodePoint) : Decidable (a < b) := inferInstanceAs (Decidable (a.val < b.val))
instance : Ord CodePoint := ⟨fun a b => compare a.val b.val⟩
instance : Hashable CodePoint := ⟨fun c => hash c.val⟩

@[ext] theorem ext {a b : CodePoint} (h : a.val = b.val) : a = b := by
  cases a; cases b; simp_all

/-- The code point with a given number, if there is one. -/
def ofNat? (n : Nat) : Option CodePoint :=
  if h : n < 0x110000 then some ⟨n, h⟩ else none

/-- The code point with a given number; numbers beyond the last one become U+FFFD. -/
def ofNat (n : Nat) : CodePoint :=
  if h : n < 0x110000 then ⟨n, h⟩ else ⟨0xFFFD, by decide⟩

/-- Half of a surrogate pair, which no UTF-8 text can hold. -/
def isSurrogate (c : CodePoint) : Bool := 0xD800 ≤ c.val && c.val ≤ 0xDFFF

/-- The character of a code point that is no surrogate. -/
def toChar? (c : CodePoint) : Option Char :=
  if h : c.val.isValidChar then some (Char.ofNatAux c.val h) else none

/-- The digits `0` to `9`. -/
def isAsciiDigit (c : CodePoint) : Bool := 0x30 ≤ c.val && c.val ≤ 0x39

/-- The letters `a` to `z` and `A` to `Z`. -/
def isAsciiLetter (c : CodePoint) : Bool :=
  (0x61 ≤ c.val && c.val ≤ 0x7A) || (0x41 ≤ c.val && c.val ≤ 0x5A)

/-- Lower case for the letters `A` to `Z`; every other code point stays. -/
def toAsciiLower (c : CodePoint) : CodePoint :=
  if 0x41 ≤ c.val ∧ c.val ≤ 0x5A then ofNat (c.val + 32) else c

/-- Upper case for the letters `a` to `z`; every other code point stays. -/
def toAsciiUpper (c : CodePoint) : CodePoint :=
  if 0x61 ≤ c.val ∧ c.val ≤ 0x7A then ofNat (c.val - 32) else c

/-- The value of a hexadecimal digit of either case. -/
def hexValue? (c : CodePoint) : Option Nat :=
  if 0x30 ≤ c.val ∧ c.val ≤ 0x39 then some (c.val - 0x30)
  else if 0x61 ≤ c.val ∧ c.val ≤ 0x66 then some (c.val - 0x61 + 10)
  else if 0x41 ≤ c.val ∧ c.val ≤ 0x46 then some (c.val - 0x41 + 10)
  else none

/-- The lower-case digit of a value below 16. -/
def hexDigit (n : Nat) : CodePoint := ofNat (if n < 10 then 0x30 + n else 0x61 + n - 10)

end CodePoint

/-- A sequence of code points. -/
abbrev Text := List CodePoint

/-- A sequence of bytes. -/
abbrev Bytes := List UInt8

namespace Text

/-- The text of a string. -/
def ofString (s : String) : Text := s.toList.map CodePoint.ofChar

instance : Coe String Text := ⟨ofString⟩

/-- The string of a text without surrogates. -/
def toString? (t : Text) : Option String :=
  (t.mapM CodePoint.toChar?).map String.ofList

/-- The decimal digits of a natural number, most significant first. -/
def ofNat (n : Nat) : Text :=
  if n < 10 then [CodePoint.ofNat (0x30 + n)]
  else ofNat (n / 10) ++ [CodePoint.ofNat (0x30 + n % 10)]

/-- The decimal form of an integer, with a minus sign where it is negative. -/
def ofInt (n : Int) : Text :=
  match n with
  | .ofNat n => ofNat n
  | .negSucc n => CodePoint.ofChar '-' :: ofNat (n + 1)

/-- The lower-case hexadecimal form of a number, padded with zeros to a width. -/
def hexPadded (width n : Nat) : Text :=
  match width with
  | 0 => []
  | w + 1 => hexPadded w (n / 16) ++ [CodePoint.hexDigit (n % 16)]

/-- Whether a text begins with another. -/
def startsWith (t head : Text) : Bool := head.isPrefixOf t

/-- Whether a text ends with another. -/
def endsWith (t tail : Text) : Bool := tail.reverse.isPrefixOf t.reverse

/-- Whether a text holds another as a run of consecutive code points. -/
def holds (t part : Text) : Bool :=
  match t with
  | [] => part.isEmpty
  | _ :: r => part.isPrefixOf t || holds r part

/-- The pieces between the occurrences of one code point; always at least one piece. -/
def splitAt (sep : CodePoint) : Text → List Text
  | [] => [[]]
  | c :: r =>
    if c = sep then [] :: splitAt sep r
    else match splitAt sep r with
      | [] => [[c]]
      | p :: ps => (c :: p) :: ps

/-- The lines of a text; the last one may lack its end. -/
def lines (t : Text) : List Text :=
  let pieces := splitAt '\n' t
  if pieces.getLast? = some [] then pieces.dropLast else pieces

/-- The texts one after the other, a separator between neighbours. -/
def join (sep : Text) : List Text → Text
  | [] => []
  | [t] => t
  | t :: ts => t ++ sep ++ join sep ts

/-- Replaces the occurrences of a text that do not overlap, found from the left. The first
argument counts the code points of the last occurrence that are still to be passed over. -/
def replaceFrom (old new : Text) : Nat → Text → Text
  | _, [] => []
  | 0, c :: r =>
    if old.isPrefixOf (c :: r) then new ++ replaceFrom old new (old.length - 1) r
    else c :: replaceFrom old new 0 r
  | n + 1, _ :: r => replaceFrom old new n r

/-- Replaces every occurrence of a non-empty text, from the left and without overlap. -/
def replace (t old new : Text) : Text := replaceFrom old new 0 t

/-- Drops the code points of a class from the end. -/
def dropEndWhile (p : CodePoint → Bool) (t : Text) : Text :=
  (t.reverse.dropWhile p).reverse

/-- Drops the code points of a class from both ends. -/
def trim (p : CodePoint → Bool) (t : Text) : Text := dropEndWhile p (t.dropWhile p)

/-- ASCII letters in lower case. -/
def toAsciiLower (t : Text) : Text := t.map CodePoint.toAsciiLower

/-- ASCII letters in upper case. -/
def toAsciiUpper (t : Text) : Text := t.map CodePoint.toAsciiUpper

/-- Order by code points; a text comes before its extensions. -/
def precedes : Text → Text → Bool
  | [], _ => true
  | _ :: _, [] => false
  | a :: s, b :: t => if a.val < b.val then true else if b.val < a.val then false else precedes s t

/-- Texts in the order of their code points. -/
def sorted (ts : List Text) : List Text := ts.mergeSort precedes

end Text

end SuggestBridge
