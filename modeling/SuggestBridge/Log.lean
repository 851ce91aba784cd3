import SuggestBridge.Text.Basic

/-!
# Log lines

What the library reports while it works: a level and a message.
-/

namespace SuggestBridge

/-- The weight of a log line. -/
inductive Level where
  | debug
  | info
  | warning
  | error
  | critical
  deriving DecidableEq

namespace Level

/-- The name of a level. -/
def name : Level → Text
  | debug => "DEBUG"
  | info => "INFO"
  | warning => "WARNING"
  | error => "ERROR"
  | critical => "CRITICAL"

/-- The number of a level. -/
def number : Level → Nat
  | debug => 10
  | info => 20
  | warning => 30
  | error => 40
  | critical => 50

end Level

/-- A line of the log. -/
structure LogLine where
  level : Level
  message : Text
  deriving DecidableEq

namespace LogLine

/-- A line with its level in front. -/
def render (l : LogLine) : Text := l.level.name ++ " " ++ l.message

end LogLine

/-- A line of level debug. -/
def Log.debug (message : Text) : LogLine := ⟨.debug, message⟩

/-- A line of level info. -/
def Log.info (message : Text) : LogLine := ⟨.info, message⟩

/-- A line of level warning. -/
def Log.warning (message : Text) : LogLine := ⟨.warning, message⟩

/-- A line of level error. -/
def Log.error (message : Text) : LogLine := ⟨.error, message⟩

end SuggestBridge
