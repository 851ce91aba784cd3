import SuggestBridge.Text.Basic

/-!
# String literals of JSON

Writing escapes quotes, backslashes and control characters; a narrow literal escapes everything
outside ASCII as well, by UTF-16 units. Reading goes from the left to the closing quote and is strict:
raw control characters, unknown escapes and malformed numbers are refused, and two escaped surrogates
that form a pair become one code point.
-/

namespace SuggestBridge.Json

/-- The short escape of a control character, a quote or a backslash, without its backslash. -/
def shortEscape? (c : CodePoint) : Option CodePoint :=
  if c = '"' ∨ c = '\\' then some c
  else if c = '\n' then some 'n'
  else if c = '\r' then some 'r'
  else if c = '\t' then some 't'
  else if c.val = 0x0C then some 'f'
  else if c.val = 0x08 then some 'b'
  else none

/-- An escape by number. -/
def numericEscape (n : Nat) : Text := "\\u" ++ Text.hexPadded 4 n

/-- One code point inside a literal that escapes only what it must. -/
def wideCodePoint (c : CodePoint) : Text :=
  match shortEscape? c with
  | some e => ['\\', e]
  | none => if c.val < 0x20 then numericEscape c.val else [c]

/-- One code point inside a literal that holds printable ASCII only. -/
def narrowCodePoint (c : CodePoint) : Text :=
  match shortEscape? c with
  | some e => ['\\', e]
  | none =>
    if 0x20 ≤ c.val ∧ c.val < 0x7F then [c]
    else if c.val < 0x10000 then numericEscape c.val
    else
      let n := c.val - 0x10000
      numericEscape (0xD800 + n / 0x400) ++ numericEscape (0xDC00 + n % 0x400)

/-- A literal that escapes only what it must. -/
def wideLiteral (t : Text) : Text :=
  CodePoint.ofChar '"' :: t.flatMap wideCodePoint ++ [CodePoint.ofChar '"']

/-- A literal that holds printable ASCII only. -/
def narrowLiteral (t : Text) : Text :=
  CodePoint.ofChar '"' :: t.flatMap narrowCodePoint ++ [CodePoint.ofChar '"']

/-- Why a literal cannot be read. -/
inductive LiteralError where
  /-- A backslash before a code point that names no escape. -/
  | unknownEscape
  /-- An escape by number without four hexadecimal digits. -/
  | malformedNumber
  /-- A raw control character. -/
  | controlCharacter
  /-- No quote ends the literal. -/
  | unfinished
  /-- Something follows the literal. -/
  | dataBehind
  deriving DecidableEq

/-- The wording of a refused literal. -/
def LiteralError.message : LiteralError → Text
  | .unknownEscape => "Invalid \\escape"
  | .malformedNumber => "Invalid \\uXXXX escape"
  | .controlCharacter => "Invalid control character at"
  | .unfinished => "Unterminated string starting at"
  | .dataBehind => "Extra data"

/-- What a one-letter escape stands for. -/
def unescape? (c : CodePoint) : Option CodePoint :=
  if c = '"' ∨ c = '\\' ∨ c = '/' then some c
  else if c = 'n' then some '\n'
  else if c = 'r' then some '\r'
  else if c = 't' then some '\t'
  else if c = 'f' then some '\x0c'
  else if c = 'b' then some '\x08'
  else none

/-- The number of four hexadecimal digits. -/
def fourDigits? (a b c d : CodePoint) : Option Nat := do
  let a ← a.hexValue?
  let b ← b.hexValue?
  let c ← c.hexValue?
  let d ← d.hexValue?
  pure (0x1000 * a + 0x100 * b + 0x10 * c + d)

/-- The code point of two escapes by number, the second one given by its six code points, if they are
the halves of a surrogate pair. -/
def joined? (n : Nat) (b u l₁ l₂ l₃ l₄ : CodePoint) : Option CodePoint :=
  if 0xD800 ≤ n ∧ n ≤ 0xDBFF ∧ b = '\\' ∧ u = 'u' then
    match fourDigits? l₁ l₂ l₃ l₄ with
    | none => none
    | some low =>
      if 0xDC00 ≤ low ∧ low ≤ 0xDFFF then
        some (CodePoint.ofNat (0x10000 + (n - 0xD800) * 0x400 + (low - 0xDC00)))
      else none
  else none

/-- Puts a code point before the text of what was read. -/
def prepend (c : CodePoint) (r : Text × Text) : Text × Text := (c :: r.1, r.2)

/-- Reads a literal whose opening quote was read: the text that it stands for, and what follows its
closing quote. -/
def scan : Text → Except LiteralError (Text × Text)
  | [] => .error .unfinished
  | c :: r =>
    if c = '"' then .ok ([], r)
    else if c = '\\' then
      match r with
      | [] => .error .unfinished
      | e :: r =>
        if e = 'u' then
          match r with
          | h₁ :: h₂ :: h₃ :: h₄ :: r =>
            match fourDigits? h₁ h₂ h₃ h₄ with
            | none => .error .malformedNumber
            | some n =>
              match r with
              | b :: u :: l₁ :: l₂ :: l₃ :: l₄ :: s =>
                match joined? n b u l₁ l₂ l₃ l₄ with
                | some x => (scan s).map (prepend x)
                | none => (scan (b :: u :: l₁ :: l₂ :: l₃ :: l₄ :: s)).map (prepend (CodePoint.ofNat n))
              | r => (scan r).map (prepend (CodePoint.ofNat n))
          | _ => .error .malformedNumber
        else match unescape? e with
          | none => .error .unknownEscape
          | some x => (scan r).map (prepend x)
    else if c.val < 0x20 then .error .controlCharacter
    else (scan r).map (prepend c)

/-- The blanks between the parts of a document. -/
def isBlank (c : CodePoint) : Bool := c = ' ' || c = '\t' || c = '\n' || c = '\r'

/-- Reads a literal whose opening quote was read and that nothing but blanks may follow. -/
def decode (t : Text) : Except LiteralError Text :=
  match scan t with
  | .error e => .error e
  | .ok (text, rest) => if rest.all isBlank then .ok text else .error .dataBehind

end SuggestBridge.Json
