import SuggestBridge.Json.Document
import SuggestBridge.Log
import SuggestBridge.Log.Template
import SuggestBridge.Time.Moment

/-!
# Log records

A record names the logger that it comes from, and so the component: the part of the library, or the
first part of the name for other loggers. In a log file a record is one line, an object in JSON.
-/

namespace SuggestBridge.Log

/-- The name of the library's own loggers. -/
def library : Text := "nimlink"

/-- The component that a logger belongs to. -/
def component (logger : Text) : Text :=
  match Text.splitAt '.' logger with
  | [] => []
  | [name] => name
  | first :: second :: _ => if first = library then second else first

/-- A message with its component in front. -/
def withComponent (logger message : Text) : Text := component logger ++ " | " ++ message

/-- A fault that a record reports. -/
structure Reported where
  kind : Text
  message : Text
  deriving DecidableEq

/-- The wording of a reported fault. -/
def Reported.text (e : Reported) : Text :=
  if e.message.isEmpty then e.kind else e.kind ++ ": " ++ e.message

/-- The level of a record: one of the common ones, or one that a program has named itself. -/
inductive RecordLevel where
  | common (l : Level)
  | named (name : Text)
  deriving DecidableEq

instance : Coe Level RecordLevel := ⟨.common⟩

/-- The name of the level of a record. -/
def RecordLevel.name : RecordLevel → Text
  | .common l => l.name
  | .named name => name

/-- A record. -/
structure Record where
  logger : Text
  level : RecordLevel
  template : Text
  arguments : List Sexp := []
  exception : Option Reported := none

/-- The message of a record, if its arguments fit. -/
def Record.message? (r : Record) : Option Text := Log.message? r.template r.arguments

/-- A record as an object. -/
def Record.document (r : Record) (now : Moment) (message : Text) : Json :=
  let always : List (Text × Json) :=
    [("ts", .text now.isoText), ("level", .text r.level.name),
      ("component", .text (component r.logger)), ("logger", .text r.logger),
      ("message", .text message)]
  match r.exception with
  | some e => .object (always ++ [(Text.ofString "exception", .text e.text)])
  | none => .object always

/-- The line of a record, without its end. -/
def Record.line (r : Record) (now : Moment) (message : Text) : Text :=
  (r.document now message).render

end SuggestBridge.Log
