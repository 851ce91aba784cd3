import SuggestBridge.Decimal.Nearest
import SuggestBridge.Time.Calendar
import SuggestBridge.Toml.Document

/-!
# Reading TOML

The readers here take the part of a text that they read from its front and hand back the rest. What
a document may hold where is the business of `Toml.Document`; the order of the lines is kept, so a
later line is checked against the earlier ones.
-/

namespace SuggestBridge.Toml

/-- Why a text is no TOML document. -/
inductive ReadError where
  /-- The text breaks a rule of the format. -/
  | malformed
  /-- The text holds an integer beyond the limit on digits. -/
  | digits (e : DigitLimit)
  deriving DecidableEq

/-- A text that breaks a rule of the format. -/
def refuse {α : Type} : Except ReadError α := .error .malformed

/-- A reading of something that may be missing. -/
def required {α : Type} : Option α → Except ReadError α
  | some a => .ok a
  | none => refuse

/-- Blanks within a line. -/
def isBlank (c : CodePoint) : Bool := c = ' ' || c = '\t'

/-- Blanks within a line and ends of lines. -/
def isGap (c : CodePoint) : Bool := isBlank c || c = '\n'

/-- Control characters that no text or comment may hold. -/
def isForbidden (c : CodePoint) : Bool := (c.val < 0x20 && c ≠ '\t') || c.val = 0x7F

/-- Drops the blanks at the front. -/
def skipBlanks (t : Text) : Text := t.dropWhile isBlank

/-- Drops a comment up to the end of its line. -/
def skipComment (t : Text) : Except ReadError Text :=
  match t with
  | [] => .ok []
  | c :: r =>
    if c ≠ '#' then .ok t
    else if (r.takeWhile (· ≠ CodePoint.ofChar '\n')).any isForbidden then refuse
    else .ok (r.dropWhile (· ≠ CodePoint.ofChar '\n'))

/-- Drops blanks, comments and ends of lines. -/
def skipGaps (inComment : Bool) : Text → Except ReadError Text
  | [] => .ok []
  | c :: r =>
    if c = '\n' then skipGaps false r
    else if inComment then (if isForbidden c then refuse else skipGaps true r)
    else if isBlank c then skipGaps false r
    else if c = '#' then skipGaps true r
    else .ok (c :: r)

/-! ## Texts -/

/-- What a one-letter escape stands for. -/
def unescape? (c : CodePoint) : Option CodePoint :=
  if c = '"' ∨ c = '\\' then some c
  else if c = 'b' then some '\x08'
  else if c = 't' then some '\t'
  else if c = 'n' then some '\n'
  else if c = 'f' then some '\x0c'
  else if c = 'r' then some '\r'
  else none

/-- Where a text between double quotes is being read. -/
inductive Within where
  | plain
  /-- Behind a backslash. -/
  | escape
  /-- Within an escape by number: how many digits are missing, and the value so far. -/
  | number (missing value : Nat)
  /-- Behind a backslash and blanks that must be followed by the end of the line. -/
  | lineEnd
  /-- Behind a backslash at the end of a line: blanks and ends of lines are dropped. -/
  | trimming

/-- Puts a code point before the text that was read. -/
def keep (c : CodePoint) (reading : Except ReadError (Text × Text)) :
    Except ReadError (Text × Text) :=
  reading.map fun p => (c :: p.1, p.2)

/-- Where a text goes on at a code point: blanks and ends of lines keep a trim alive. -/
def Within.at (st : Within) (c : CodePoint) : Within :=
  match st with
  | .trimming => if isGap c then .trimming else .plain
  | st => st

/-- Reads the rest of a text between double quotes. With `long` the text may hold ends of lines and
runs to three double quotes. -/
def quotedText (long : Bool) (st : Within) : Text → Except ReadError (Text × Text)
  | [] => refuse
  | c :: r =>
    match st.at c with
    | .trimming => quotedText long .trimming r
    | .lineEnd =>
      if isBlank c then quotedText long .lineEnd r
      else if c = '\n' then quotedText long .trimming r
      else refuse
    | .number missing value =>
      match c.hexValue? with
      | none => refuse
      | some d =>
        let value := 16 * value + d
        if 1 < missing then quotedText long (.number (missing - 1) value) r
        else
          match CodePoint.ofNat? value with
          | some x => if x.isSurrogate then refuse else keep x (quotedText long .plain r)
          | none => refuse
    | .escape =>
      if long && c = '\n' then quotedText long .trimming r
      else if long && isBlank c then quotedText long .lineEnd r
      else if c = 'u' then quotedText long (.number 4 0) r
      else if c = 'U' then quotedText long (.number 8 0) r
      else match unescape? c with
        | some x => keep x (quotedText long .plain r)
        | none => refuse
    | .plain =>
      if c = '"' then
        if !long then .ok ([], r)
        else if Text.startsWith r "\"\"" then .ok ([], r.drop 2)
        else keep c (quotedText long .plain r)
      else if c = '\\' then quotedText long .escape r
      else if isForbidden c && !(long && c = '\n') then refuse
      else keep c (quotedText long .plain r)

/-- Reads the rest of a text between single quotes, in which a backslash is nothing special. -/
def literalText (long : Bool) : Text → Except ReadError (Text × Text)
  | [] => refuse
  | c :: r =>
    if c = '\'' && (!long || Text.startsWith r "''") then .ok ([], r.drop (if long then 2 else 0))
    else if isForbidden c && !(long && c = '\n') then refuse
    else keep c (literalText long r)

/-- Up to two quotes more than the three that end a long text belong to it. -/
def withFurtherQuotes (quote : CodePoint) (reading : Except ReadError (Text × Text)) :
    Except ReadError (Text × Text) :=
  reading.map fun p =>
    let further := (p.2.takeWhile (· == quote)).take 2
    (p.1 ++ further, p.2.drop further.length)

/-- A long text may begin with the end of its first line. -/
def skipFirstLineEnd (t : Text) : Text :=
  match t with
  | c :: r => if c = '\n' then r else t
  | [] => []

/-- Reads a text, its opening quote included. -/
def text (t : Text) : Except ReadError (Text × Text) :=
  if Text.startsWith t "\"\"\"" then
    withFurtherQuotes '"' (quotedText true .plain (skipFirstLineEnd (t.drop 3)))
  else if Text.startsWith t "'''" then
    withFurtherQuotes '\'' (literalText true (skipFirstLineEnd (t.drop 3)))
  else
    match t with
    | [] => refuse
    | c :: r =>
      if c = '"' then quotedText false .plain r
      else if c = '\'' then literalText false r
      else refuse

/-! ## Keys -/

/-- The code points of a key without quotes. -/
def isBare (c : CodePoint) : Bool := c.isAsciiLetter || c.isAsciiDigit || c = '-' || c = '_'

/-- Whether a code point is a quote. -/
def isQuote (c : CodePoint) : Bool := c = '"' || c = '\''

/-- Reads one part of a key. Three quotes begin no long text here. -/
def keyPart (t : Text) : Except ReadError (Text × Text) :=
  match t with
  | [] => refuse
  | c :: r =>
    if isBare c then .ok (t.takeWhile isBare, t.dropWhile isBare)
    else if c = '"' then quotedText false .plain r
    else if c = '\'' then literalText false r
    else refuse

/-- Reads a dotted key and the blanks behind it. -/
def key : Nat → Text → Except ReadError (Key × Text)
  | 0, _ => refuse
  | fuel + 1, t => do
    let (part, r) ← keyPart t
    match skipBlanks r with
    | [] => pure ([part], [])
    | c :: r =>
      if c = '.' then
        let (parts, r) ← key fuel (skipBlanks r)
        pure (part :: parts, r)
      else pure ([part], c :: r)

/-! ## Numbers -/

/-- Reads further digits; an underscore may stand between two of them. -/
def furtherDigits (isDigit : CodePoint → Bool) : Text → Text × Text
  | [] => ([], [])
  | c :: r =>
    if isDigit c then
      let (digits, rest) := furtherDigits isDigit r
      (c :: digits, rest)
    else
      match r with
      | [] => ([], [c])
      | d :: r =>
        if c = '_' && isDigit d then
          let (digits, rest) := furtherDigits isDigit r
          (d :: digits, rest)
        else ([], c :: d :: r)

/-- Reads digits, at least one. -/
def digits? (isDigit : CodePoint → Bool) : Text → Option (Text × Text)
  | [] => none
  | c :: r =>
    if isDigit c then
      let (digits, rest) := furtherDigits isDigit r
      some (c :: digits, rest)
    else none

/-- The base of an integer by the letter behind its zero. -/
def baseOf? (c : CodePoint) : Option Nat :=
  if c = 'x' then some 16 else if c = 'o' then some 8 else if c = 'b' then some 2 else none

/-- Reads an integer with a base. -/
def basedInteger? (t : Text) : Option (Raw × Text) :=
  match t with
  | zero :: letter :: r => do
    guard (zero = CodePoint.ofChar '0')
    let base ← baseOf? letter
    let (digits, rest) ← digits? (fun c => c.hexValue?.any (· < base)) r
    let n : Nat := digits.foldl (fun n c => base * n + c.hexValue?.getD 0) 0
    some (.int n, rest)
  | _ => none

/-- Reads the whole part of a decimal number: a zero, or digits that begin with no zero. -/
def wholePart? (t : Text) : Option (Text × Text) :=
  match t with
  | [] => none
  | c :: r => if c = '0' then some ([c], r) else digits? CodePoint.isAsciiDigit t

/-- Reads the places of a number, if there are any. -/
def places (t : Text) : Option Text × Text :=
  match t with
  | [] => (none, [])
  | c :: r =>
    if c ≠ '.' then (none, t)
    else match digits? CodePoint.isAsciiDigit r with
      | some (digits, rest) => (some digits, rest)
      | none => (none, t)

/-- Reads the exponent of a number, if there is one. -/
def exponent (t : Text) : Option Int × Text :=
  match t with
  | [] => (none, [])
  | c :: r =>
    if c ≠ 'e' ∧ c ≠ 'E' then (none, t)
    else
      let (negative, r) := Integer.splitSign r
      match digits? CodePoint.isAsciiDigit r with
      | some (digits, rest) =>
        (some (Integer.signed negative (Integer.ofDigits (Decimal.digitValues digits))), rest)
      | none => (none, t)

/-- Reads a decimal number. Without places and exponent it is an integer. -/
def decimal? (t : Text) : Option (Except ReadError (Raw × Text)) := do
  let (negative, r) := Integer.splitSign t
  let (whole, r) ← wholePart? r
  let (places, r) := places r
  let (exponent, r) := exponent r
  if places.isNone && exponent.isNone then
    if whole.length ≤ Integer.digitLimit then
      let n := Integer.ofDigits (Decimal.digitValues whole)
      some (.ok (.int (Integer.signed negative n), r))
    else some (.error (.digits (.reading whole.length)))
  else
    let x := Decimal.nearestOfDigits negative whole (places.getD []) (exponent.getD 0)
    some (.ok (.real x, r))

/-- Reads an infinite or undefined number. -/
def specialNumber? (t : Text) : Option (Raw × Text) :=
  let (negative, r) := Integer.splitSign t
  if Text.startsWith r "inf" then some (.real (Decimal.infinity negative), r.drop 3)
  else if Text.startsWith r "nan" then some (.real Decimal.undefinedValue, r.drop 3)
  else none

/-! ## Moments -/

/-- Reads a number with a fixed count of digits, within bounds. -/
def field? (width low high : Nat) (t : Text) : Option (Nat × Text) :=
  let digits := t.take width
  let n := Integer.ofDigits (Decimal.digitValues digits)
  if digits.length = width && digits.all CodePoint.isAsciiDigit && low ≤ n && n ≤ high then
    some (n, t.drop width)
  else none

/-- Reads one code point. -/
def mark? (c : CodePoint) : Text → Option Text
  | [] => none
  | d :: r => if d = c then some r else none

/-- Passes over a time of day. -/
def timeOfDay? (t : Text) : Option Text := do
  let (_, t) ← field? 2 0 23 t
  let (_, t) ← field? 2 0 59 (← mark? ':' t)
  let (_, t) ← field? 2 0 59 (← mark? ':' t)
  match t with
  | c :: d :: r =>
    if c = '.' && d.isAsciiDigit then some (r.dropWhile CodePoint.isAsciiDigit) else some t
  | _ => some t

/-- Passes over the offset of a zone with a sign. -/
def signedOffset? (t : Text) : Option Text := do
  let (_, t) ← field? 2 0 23 t
  let (_, t) ← field? 2 0 59 (← mark? ':' t)
  pure t

/-- Passes over the offset of a zone, if there is one. -/
def skipOffset (t : Text) : Text :=
  match t with
  | [] => []
  | c :: r =>
    if c = 'Z' ∨ c = 'z' then r
    else if c = '+' ∨ c = '-' then (signedOffset? r).getD t
    else t

/-- Reads a date, alone or with a time of day. A day that the calendar does not have is refused. -/
def dated? (t : Text) : Option (Except ReadError (Raw × Text)) := do
  let (year, t) ← field? 4 0 9999 t
  let (month, t) ← field? 2 1 12 (← mark? '-' t)
  let (day, t) ← field? 2 1 31 (← mark? '-' t)
  let time := match t with
    | c :: r => if c = 'T' ∨ c = 't' ∨ c = ' ' then timeOfDay? r else none
    | [] => none
  if !(Date.isValid ⟨year, month, day⟩) then some refuse
  else match time with
    | some r => some (.ok (.moment .dateTime, skipOffset r))
    | none => some (.ok (.moment .date, t))

/-- Reads a time of day. -/
def time? (t : Text) : Option (Raw × Text) := (timeOfDay? t).map fun r => (.moment .time, r)

/-! ## Values -/

/-- Reads a value that holds no other values. -/
def scalar (t : Text) : Except ReadError (Raw × Text) :=
  if t.head?.any isQuote then (text t).map fun p => (.text p.1, p.2)
  else if Text.startsWith t "true" then .ok (.bool true, t.drop 4)
  else if Text.startsWith t "false" then .ok (.bool false, t.drop 5)
  else
    match dated? t with
    | some reading => reading
    | none =>
      match (time? t).or (basedInteger? t) with
      | some p => .ok p
      | none =>
        match decimal? t with
        | some reading => reading
        | none => required (specialNumber? t)

mutual

/-- Reads a value. -/
def value : Nat → Text → Except ReadError (Raw × Text)
  | 0, _ => refuse
  | fuel + 1, t => do
    match t with
    | [] => refuse
    | c :: r =>
      if c = '[' then
        let (items, r) ← arrayItems fuel (← skipGaps false r)
        pure (.list items, r)
      else if c = '\x7b' then
        match skipBlanks r with
        | [] => refuse
        | d :: s =>
          if d = '\x7d' then pure (.table [], s)
          else
            let (entries, s) ← inlineEntries fuel {} (d :: s)
            pure (.table entries, s)
      else scalar t

/-- Reads the items of an array and its closing bracket. A comma may stand behind the last item. -/
def arrayItems : Nat → Text → Except ReadError (List Raw × Text)
  | 0, _ => refuse
  | fuel + 1, t => do
    match mark? ']' t with
    | some r => pure ([], r)
    | none =>
      let (v, r) ← value fuel t
      match ← skipGaps false r with
      | [] => refuse
      | c :: r =>
        if c = ']' then pure ([v], r)
        else if c = ',' then
          let (vs, r) ← arrayItems fuel (← skipGaps false r)
          pure (v :: vs, r)
        else refuse

/-- Reads further entries of an inline table and its closing brace. -/
def inlineEntries : Nat → Inline → Text → Except ReadError (Raw.Table × Text)
  | 0, _, _ => refuse
  | fuel + 1, table, t => do
    let (name, r) ← key fuel t
    let (v, r) ← value fuel (skipBlanks (← required (mark? '=' r)))
    let table ← required (table.add name v)
    match skipBlanks r with
    | [] => refuse
    | c :: r =>
      if c = '\x7d' then pure (table.entries, r)
      else if c = ',' then inlineEntries fuel table (skipBlanks r)
      else refuse

end

/-! ## Documents -/

/-- Reads a header or an entry. -/
def statement (fuel : Nat) (d : Document) (t : Text) : Except ReadError (Document × Text) :=
  match t with
  | [] => refuse
  | c :: r => do
    if c = '[' then
      match mark? '[' r with
      | some r =>
        let (name, r) ← key fuel (skipBlanks r)
        let d ← required (d.openFurther name)
        let r ← required (mark? ']' r)
        pure (d, ← required (mark? ']' r))
      | none =>
        let (name, r) ← key fuel (skipBlanks r)
        let d ← required (d.openTable name)
        pure (d, ← required (mark? ']' r))
    else if isBare c || isQuote c then
      let (name, r) ← key fuel t
      let (v, r) ← value fuel (skipBlanks (← required (mark? '=' r)))
      pure (← required (d.add name v), r)
    else refuse

/-- Reads the lines of a document. -/
def lines : Nat → Document → Text → Except ReadError Document
  | 0, _, _ => refuse
  | fuel + 1, d, t => do
    let t := skipBlanks t
    let isEmptyLine := t.head?.all fun c => c = CodePoint.ofChar '\n' || c = CodePoint.ofChar '#'
    let (d, r) ← if isEmptyLine then pure (d, t) else statement fuel d t
    match ← skipComment (skipBlanks r) with
    | [] => pure d
    | c :: r => if c = '\n' then lines fuel d r else refuse

/-- Reads a document. -/
def read (t : Text) : Except ReadError Raw.Table :=
  let t := Text.replace t "\r\n" "\n"
  (lines (2 * t.length + 2) {} t).map Document.root

end SuggestBridge.Toml
