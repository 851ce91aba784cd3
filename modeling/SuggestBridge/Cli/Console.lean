import SuggestBridge.Text.Basic

/-!
# What is shown on the console

A command shows lines with markup, tables and highlighted files, and it may write plain lines.
-/

namespace SuggestBridge.Cli

/-- A table with a title. -/
structure Table where
  title : Text
  columns : List Text
  rows : List (List Text)

/-- Something shown on the console. -/
inductive Item where
  | line (markup : Text)
  | table (t : Table)
  /-- A highlighted configuration file. -/
  | source (content : Text)

/-- A text in a style. -/
def styled (style t : Text) : Text := "[" ++ style ++ "]" ++ t ++ "[/" ++ style ++ "]"

/-- A line that tells of an error. -/
def Item.error (t : Text) : Item := .line (styled "red" t)

/-- A line that warns. -/
def Item.warning (t : Text) : Item := .line (styled "yellow" t)

/-- A line that tells of a success. -/
def Item.success (t : Text) : Item := .line (styled "green" t)

/-- A line that stays in the background. -/
def Item.dim (t : Text) : Item := .line (styled "dim" t)

/-- The styles of lines and cells. -/
def styles : List Text := ["red", "yellow", "green", "dim", "bold"]

/-- A text without the marks of its styles. -/
def plain (t : Text) : Text :=
  styles.foldl (fun t style =>
    Text.replace (Text.replace t ("[" ++ style ++ "]") []) ("[/" ++ style ++ "]") []) t

/-- What is shown, as lines of plain text. -/
def Item.plainLines : Item → List Text
  | .line markup => [plain markup]
  | .source content => content.lines
  | .table t =>
    let cells (row : List Text) : Text := Text.join "  " (row.map plain)
    t.title :: cells t.columns :: t.rows.map cells

end SuggestBridge.Cli
