import SuggestBridge.Sexp.Display

/-!
# Commands

The commands that a daemon understands, each with the word that is sent for it.
-/

namespace SuggestBridge

/-- A command of a daemon. -/
inductive Command where
  | suggest
  | context
  | definition
  | usages
  | projectUsages
  | check
  /-- Every token of a file, as symbol kind, line, column and length. -/
  | highlight
  | outline
  /-- Whether a file belongs to the project; the answer is `true` or `false`. -/
  | known
  deriving DecidableEq

namespace Command

/-- All commands. -/
def all : List Command :=
  [suggest, context, definition, usages, projectUsages, check, highlight, outline, known]

/-- The word that is sent for a command. -/
def word : Command → Text
  | suggest => "sug"
  | context => "con"
  | definition => "def"
  | usages => "use"
  | projectUsages => "dus"
  | check => "chk"
  | highlight => "highlight"
  | outline => "outline"
  | known => "known"

/-- The name of a command. -/
def name : Command → Text
  | suggest => "SUGGEST"
  | context => "CONTEXT"
  | definition => "DEFINITION"
  | usages => "USAGES"
  | projectUsages => "PROJECT_USAGES"
  | check => "CHECK"
  | highlight => "HIGHLIGHT"
  | outline => "OUTLINE"
  | known => "KNOWN"

/-- The command of a word. -/
def ofWord? (w : Text) : Option Command := all.find? fun c => c.word == w

/-- The command that a value names. -/
def ofValue? : Sexp → Option Command
  | .string w => ofWord? w
  | _ => none

/-- The wording for a value that names no command. -/
def unknownMessage (v : Sexp) : Except DigitLimit Text :=
  v.shown.map (· ++ " is not a valid SuggestType")

end Command

end SuggestBridge
