import SuggestBridge.Text.Basic

/-!
# Words of a command line

A command line is cut into words at blanks. Quotes of either kind hold blanks together; a backslash
takes the next code point as it is, inside double quotes only a backslash or a double quote, and
inside single quotes none. Quotes that hold nothing make an empty word.
-/

namespace SuggestBridge.Words

/-- Why a command line cannot be cut into words. -/
inductive SplitError where
  /-- A quote is still open at the end. -/
  | openQuote
  /-- Nothing follows a backslash. -/
  | danglingEscape
  deriving DecidableEq

/-- The wording of a command line that cannot be cut. -/
def SplitError.message : SplitError → Text
  | .openQuote => "No closing quotation"
  | .danglingEscape => "No escaped character"

/-- The two kinds of quotes. -/
inductive Quote where
  | single
  | double
  deriving DecidableEq

/-- The code point of a quote. -/
def Quote.mark : Quote → CodePoint
  | .single => '\''
  | .double => '"'

/-- The quote that a code point opens. -/
def Quote.of? (c : CodePoint) : Option Quote :=
  if c = Quote.mark .single then some .single
  else if c = Quote.mark .double then some .double
  else none

/-- Where a command line is being read. What was read of a word stands last code point first. -/
inductive State where
  /-- Between two words. -/
  | between
  /-- In a word, outside quotes. -/
  | bare (word : Text)
  /-- Behind a backslash outside quotes. -/
  | escaped (word : Text)
  | quoted (word : Text) (q : Quote)
  /-- Behind a backslash inside double quotes. -/
  | quotedEscape (word : Text)

/-- The code points between words. -/
def isBlank (c : CodePoint) : Bool := c = ' ' || c = '\t' || c = '\r' || c = '\n'

/-- Reads a code point outside quotes, behind a part of a word. -/
def advance (word : Text) (c : CodePoint) : State :=
  match Quote.of? c with
  | some q => .quoted word q
  | none => if c = '\\' then .escaped word else .bare (c :: word)

/-- Cuts a command line into words, given where it is being read. -/
def splitFrom (st : State) : Text → Except SplitError (List Text)
  | [] =>
    match st with
    | .between => .ok []
    | .bare word => .ok [word.reverse]
    | .escaped _ => .error .danglingEscape
    | .quoted _ _ => .error .openQuote
    | .quotedEscape _ => .error .danglingEscape
  | c :: r =>
    match st with
    | .between => if isBlank c then splitFrom .between r else splitFrom (advance [] c) r
    | .bare word =>
      if isBlank c then (splitFrom .between r).map (word.reverse :: ·)
      else splitFrom (advance word c) r
    | .escaped word => splitFrom (.bare (c :: word)) r
    | .quoted word q =>
      if c = q.mark then splitFrom (.bare word) r
      else if q = .double ∧ c = '\\' then splitFrom (.quotedEscape word) r
      else splitFrom (.quoted (c :: word) q) r
    | .quotedEscape word =>
      if c = '\\' ∨ c = Quote.mark .double then splitFrom (.quoted (c :: word) .double) r
      else splitFrom (.quoted (c :: CodePoint.ofChar '\\' :: word) .double) r

/-- The words of a command line. -/
def split (t : Text) : Except SplitError (List Text) := splitFrom .between t

end SuggestBridge.Words
