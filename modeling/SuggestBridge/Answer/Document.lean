import SuggestBridge.Answer.Row
import SuggestBridge.Json.Document

/-!
# Rows as documents

A row in JSON, all of its fields by name.
-/

namespace SuggestBridge.Row

/-- A row as an object. -/
def document (r : Row) : Json :=
  .object [("answer_type", .text r.answerKind), ("suggest", .text r.symbolKind),
    ("names", .list (r.names.map .text)), ("type", .text r.signature), ("path", .text r.path),
    ("line", .int r.line), ("column", .int r.column), ("documentation", .text r.documentation)]

/-- A row as a line of JSON, unless a number exceeds the limit on digits. -/
def line? (r : Row) : Except DigitLimit Text := do
  let _ ← Integer.write r.line
  let _ ← Integer.write r.column
  pure r.document.render

/-- Where a row points to; nothing for a row without a path. -/
def location (r : Row) : Except DigitLimit Text :=
  if r.path.isEmpty then .ok []
  else do
    let line ← Integer.write r.line
    let column ← Integer.write r.column
    pure (r.path ++ ":" ++ line ++ ":" ++ column)

end SuggestBridge.Row
