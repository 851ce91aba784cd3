import SuggestBridge.Text.Words

/-!
# Issues of a raw configuration

What can be wrong with a raw value, and checks that collect the issues of several values.
-/

namespace SuggestBridge.Config

/-- The parts of a configuration. -/
inductive Section where
  | root
  | daemons
  | logging
  deriving DecidableEq

/-- The name of a part in messages. -/
def Section.name : Section → Text
  | root => "NimlinkConfig"
  | daemons => "SuggestConfig"
  | logging => "LoggingConfig"

/-- What is wrong with a raw value. -/
inductive Problem where
  | noNumber
  | unreadableNumber
  | notBelowZero
  | notAboveZero
  | noInteger
  | unreadableInteger
  | fractionalInteger
  | infiniteInteger
  | hugeInteger
  /-- An integer below one. -/
  | notBelowOne
  | noTruthValue
  | unreadableTruthValue
  | noList
  | noText
  | noPath
  | noLevel
  | noTable (s : Section)
  | noCommandLine (e : Words.SplitError)
  deriving DecidableEq

namespace Problem

/-- The short name of a problem. -/
def code : Problem → Text
  | noNumber => "float_type"
  | unreadableNumber => "float_parsing"
  | notBelowZero => "greater_than_equal"
  | notAboveZero => "greater_than"
  | noInteger => "int_type"
  | unreadableInteger => "int_parsing"
  | fractionalInteger => "int_from_float"
  | infiniteInteger => "finite_number"
  | hugeInteger => "int_parsing_size"
  | notBelowOne => "greater_than_equal"
  | noTruthValue => "bool_type"
  | unreadableTruthValue => "bool_parsing"
  | noList => "list_type"
  | noText => "string_type"
  | noPath => "path_type"
  | noLevel => "literal_error"
  | noTable _ => "model_type"
  | noCommandLine _ => "value_error"

/-- The wording of a problem. -/
def message : Problem → Text
  | noNumber => "Input should be a valid number"
  | unreadableNumber => "Input should be a valid number, unable to parse string as a number"
  | notBelowZero => "Input should be greater than or equal to 0"
  | notAboveZero => "Input should be greater than 0"
  | noInteger => "Input should be a valid integer"
  | unreadableInteger => "Input should be a valid integer, unable to parse string as an integer"
  | fractionalInteger => "Input should be a valid integer, got a number with a fractional part"
  | infiniteInteger => "Input should be a finite number"
  | hugeInteger => "Unable to parse input string as an integer, exceeded maximum size"
  | notBelowOne => "Input should be greater than or equal to 1"
  | noTruthValue => "Input should be a valid boolean"
  | unreadableTruthValue => "Input should be a valid boolean, unable to interpret input"
  | noList => "Input should be a valid list"
  | noText => "Input should be a valid string"
  | noPath => "Input is not a valid path for <class 'pathlib.Path'>"
  | noLevel => "Input should be 'DEBUG', 'INFO', 'WARNING' or 'ERROR'"
  | noTable s => "Input should be a valid dictionary or instance of " ++ s.name
  | noCommandLine e => "Value error, " ++ e.message

end Problem

/-- A problem with the place of the value that has it. -/
structure Issue where
  /-- The names and indices that lead to the value. -/
  place : List Text
  problem : Problem
  deriving DecidableEq

/-- The place of an issue as one text. -/
def Issue.location (i : Issue) : Text := Text.join "." i.place

/-- A checked value, or what is wrong with it. -/
inductive Checked (α : Type) where
  | valid (a : α)
  | invalid (issues : List Issue)

namespace Checked

/-- A value with one problem. -/
def fail {α : Type} (p : Problem) : Checked α := .invalid [⟨[], p⟩]

/-- A value from an attempt that names its problem. -/
def ofExcept {α : Type} : Except Problem α → Checked α
  | .ok a => .valid a
  | .error p => fail p

/-- Changes a valid value. -/
def map {α β : Type} (f : α → β) : Checked α → Checked β
  | .valid a => .valid (f a)
  | .invalid issues => .invalid issues

/-- Applies a function to an argument; the issues of both are collected. -/
def apply {α β : Type} (f : Checked (α → β)) (a : Checked α) : Checked β :=
  match f, a with
  | .valid f, .valid a => .valid (f a)
  | .valid _, .invalid issues => .invalid issues
  | .invalid issues, .valid _ => .invalid issues
  | .invalid issues, .invalid more => .invalid (issues ++ more)

/-- Puts a value below a name or an index. -/
def below {α : Type} (name : Text) : Checked α → Checked α
  | .valid a => .valid a
  | .invalid issues => .invalid (issues.map fun i => { i with place := name :: i.place })

/-- Checks the items of a list; each stands below its index, counted from a start. -/
def items {α β : Type} (check : α → Checked β) (start : Nat) : List α → Checked (List β)
  | [] => .valid []
  | a :: as =>
    apply (((check a).below (Text.ofNat start)).map List.cons) (items check (start + 1) as)

end Checked

end SuggestBridge.Config
