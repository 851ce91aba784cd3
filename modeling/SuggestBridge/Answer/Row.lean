import SuggestBridge.Answer.Markup
import SuggestBridge.Sexp.Display

/-!
# Rows of answers

A daemon answers with rows of positional fields: answer kind, symbol kind, qualified name, path,
signature, line, column, documentation. Text fields may be nil, strings or symbols. A row that is
too short or holds a field of the wrong kind is malformed; further fields are ignored.
-/

namespace SuggestBridge

/-- One row of an answer. Lines start at 1 and columns at 0. -/
structure Row where
  /-- The kind of answer, such as `def`. -/
  answerKind : Text := []
  /-- The kind of symbol; for scalar answers the answer itself. -/
  symbolKind : Text := []
  /-- The parts of the qualified name. -/
  names : List Text := []
  /-- The type or the full signature. -/
  signature : Text := []
  path : Text := []
  line : Int := 1
  column : Int := 0
  documentation : Text := []
  deriving DecidableEq

namespace Row

/-- The qualified name. -/
def fullName (r : Row) : Text := Text.join "." r.names

/-- The name of the symbol itself. -/
def symbolName (r : Row) : Text := r.names.getLast?.getD []

/-- The first part of the qualified name. -/
def moduleName (r : Row) : Text := r.names.head?.getD []

/-- The qualified name without its last part. -/
def containerName (r : Row) : Text := Text.join "." r.names.dropLast

/-- The number of fields that a row must have. -/
def fieldCount : Nat := 8

/-- What is wrong with a row. -/
inductive Malformed where
  | notAList (kind : Text)
  | tooShort (fields : Nat)
  | notText (field kind : Text)
  | notAnInteger (field shown : Text)
  | namesNotAList (kind : Text)
  deriving DecidableEq

/-- The wording of a malformed row. -/
def Malformed.message : Malformed → Text
  | .notAList kind => "row must be a list, got " ++ kind
  | .tooShort fields =>
    "row has " ++ Text.ofNat fields ++ " fields, expected at least " ++ Text.ofNat fieldCount
  | .notText field kind => field ++ " must be text, got " ++ kind
  | .notAnInteger field shown => field ++ " must be an integer, got " ++ shown
  | .namesNotAList kind => "names must be a list, got " ++ kind

/-- Why a value could not be taken for a row. -/
inductive DecodeError where
  | malformed (e : Malformed)
  /-- The wording of the malformation would show an integer beyond the limit on digits. -/
  | digits (e : DigitLimit)
  deriving DecidableEq

/-- The text of a field. -/
def textField (field : Text) : Sexp → Except DecodeError Text
  | .nil => .ok []
  | .symbol name => .ok name
  | .string t => .ok t
  | v => .error (.malformed (.notText field v.kindName))

/-- The integer of a field. -/
def integerField (field : Text) : Sexp → Except DecodeError Int
  | .int n => .ok n
  | v =>
    match v.shown with
    | .ok shown => .error (.malformed (.notAnInteger field shown))
    | .error e => .error (.digits e)

/-- The qualified name: a list of texts, or a single text. -/
def namesField : Sexp → Except DecodeError (List Text)
  | .nil => .ok []
  | .string t => .ok [t]
  | .symbol name => .ok [name]
  | .list parts => parts.mapM (textField "names")
  | v => .error (.malformed (.namesNotAList v.kindName))

/-- The fields of a value that is a sequence. -/
def fields? : Sexp → Option (List Sexp)
  | .list items => some items
  | .tuple items => some items
  | .alien (.bytes bs) => some (bs.map fun b => .int b.toNat)
  | _ => none

/-- Takes a value for a row. The first field in error decides the failure, lines and columns being
checked after all texts but the documentation. -/
def decode (v : Sexp) : Except DecodeError Row :=
  match fields? v with
  | none => .error (.malformed (.notAList v.kindName))
  | some items =>
    match items with
    | kind :: symbol :: names :: path :: signature :: line :: column :: documentation :: _ => do
      let answerKind ← textField "answer_type" kind
      let symbolKind ← textField "suggest" symbol
      let names ← namesField names
      let path ← textField "path" path
      let signature ← textField "type" signature
      let line ← integerField "line" line
      let column ← integerField "column" column
      let documentation ← textField "documentation" documentation
      pure
        { answerKind, symbolKind, names, signature, line, column
          path := Text.replace path "\\,\\" "\\"
          documentation := Markup.toMarkdown documentation }
    | _ => .error (.malformed (.tooShort items.length))

end Row

end SuggestBridge
