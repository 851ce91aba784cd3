import SuggestBridge.Path.Basic

/-!
# Raw configuration values

A configuration before it is checked: the values that a configuration file can hold, and those that
a host hands over directly.
-/

namespace SuggestBridge

/-- The kinds of moments that a configuration file can name. -/
inductive MomentKind where
  | date
  | time
  | dateTime
  deriving DecidableEq

/-- A raw configuration value. No setting accepts a moment, so only its kind is kept. -/
inductive Raw where
  | null
  | bool (b : Bool)
  | int (n : Int)
  | real (x : Float)
  | text (t : Text)
  | path (p : Path)
  | moment (kind : MomentKind)
  | list (items : List Raw)
  /-- Entries in the order in which they were added, each name once. -/
  | table (entries : List (Text × Raw))

instance : Inhabited Raw := ⟨.null⟩

namespace Raw

/-- The entries of a table. -/
abbrev Table := List (Text × Raw)

/-- The entry of a name. -/
def Table.get? (t : Table) (name : Text) : Option Raw :=
  (t.find? fun e => e.1 == name).map Prod.snd

/-- Sets the entry of a name; a new name goes to the end. -/
def Table.put (t : Table) (name : Text) (v : Raw) : Table :=
  if t.any fun e => e.1 == name then t.map fun e => if e.1 == name then (name, v) else e
  else t ++ [(name, v)]

end Raw

end SuggestBridge
