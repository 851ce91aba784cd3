import SuggestBridge.Config.Raw

/-!
# Documents under construction

A document is a table of nested tables. Besides the values it keeps marks on the names in use: what
was declared by a header cannot be declared again, and what was written as a whole (an array or an
inline table) cannot be extended. Names that a dotted key opened count as declared from the next
header on.
-/

namespace SuggestBridge.Toml

/-- A dotted name. -/
abbrev Key := List Text

/-- The marks on the names of a document. -/
structure Marks where
  /-- Names of values that were written as a whole. -/
  whole : List Key := []
  /-- Names of tables that cannot be declared again. -/
  declared : List Key := []
  /-- Names that count as declared from the next header on. -/
  pending : List Key := []

namespace Marks

/-- Whether a name belongs to a value that was written as a whole. -/
def isWhole (m : Marks) (key : Key) : Bool := m.whole.any fun k => k.isPrefixOf key

/-- Whether a table of a name cannot be declared again. -/
def isDeclared (m : Marks) (key : Key) : Bool := m.declared.contains key

/-- Marks a name and all names below it as written as a whole. -/
def addWhole (m : Marks) (key : Key) : Marks := { m with whole := key :: m.whole }

/-- Declares a table. -/
def declare (m : Marks) (key : Key) : Marks := { m with declared := key :: m.declared }

/-- Declares tables from the next header on. -/
def declareLater (m : Marks) (keys : List Key) : Marks := { m with pending := keys ++ m.pending }

/-- A header begins. -/
def beginHeader (m : Marks) : Marks := { m with declared := m.pending ++ m.declared, pending := [] }

/-- Forgets all marks of a name and of the names below it. -/
def forget (m : Marks) (key : Key) : Marks :=
  { m with
    whole := m.whole.filter fun k => !key.isPrefixOf k
    declared := m.declared.filter fun k => !key.isPrefixOf k }

end Marks

/-- Changes the table behind a name, made with all tables above it where there are none. With
`enterLists` an array of tables stands for its last table. A name of anything else is refused. -/
def updateTable (enterLists : Bool) (f : Raw.Table → Option Raw.Table) :
    Key → Raw.Table → Option Raw.Table
  | [], t => f t
  | k :: ks, t =>
    match t.get? k with
    | none => (updateTable enterLists f ks []).map fun t' => t.put k (.table t')
    | some (.table inner) =>
      (updateTable enterLists f ks inner).map fun t' => t.put k (.table t')
    | some (.list items) =>
      match enterLists, items.getLast? with
      | true, some (.table inner) =>
        (updateTable enterLists f ks inner).map fun t' =>
          t.put k (.list (items.dropLast ++ [.table t']))
      | _, _ => none
    | some _ => none

/-- Adds an entry to a table that has none of its name. -/
def addEntry (name : Text) (v : Raw) (t : Raw.Table) : Option Raw.Table :=
  if (t.get? name).isSome then none else some (t.put name v)

/-- Adds an empty table to the array of tables of a name. -/
def addTable (name : Text) (t : Raw.Table) : Option Raw.Table :=
  match t.get? name with
  | none => some (t.put name (.list [.table []]))
  | some (.list items) => some (t.put name (.list (items ++ [.table []])))
  | some _ => none

/-- A document under construction. -/
structure Document where
  root : Raw.Table := []
  marks : Marks := {}
  /-- The table that the last header opened. -/
  header : Key := []

namespace Document

/-- Opens the table of a header `[key]`. -/
def openTable (d : Document) (key : Key) : Option Document :=
  let marks := d.marks.beginHeader
  if marks.isDeclared key || marks.isWhole key then none
  else
    (updateTable true some key d.root).map fun root => ⟨root, marks.declare key, key⟩

/-- Opens a further table of a header `[[key]]`. -/
def openFurther (d : Document) (key : Key) : Option Document :=
  let marks := d.marks.beginHeader
  if marks.isWhole key then none
  else
    (updateTable true (addTable (key.getLastD [])) key.dropLast d.root).map fun root =>
      ⟨root, (marks.forget key).declare key, key⟩

/-- The names of the tables that a dotted key opens below the header. -/
def opened (d : Document) (key : Key) : List Key :=
  (List.range (key.length - 1)).map fun n => d.header ++ key.take (n + 1)

/-- Whether a value holds other values. -/
def isCompound : Raw → Bool
  | .list _ => true
  | .table _ => true
  | _ => false

/-- Adds an entry to the table of the last header. -/
def add (d : Document) (key : Key) (v : Raw) : Option Document :=
  let opened := d.opened key
  let parent := d.header ++ key.dropLast
  if opened.any d.marks.isDeclared || d.marks.isWhole parent then none
  else
    (updateTable true (addEntry (key.getLastD []) v) parent d.root).map fun root =>
      let marks := d.marks.declareLater opened
      { d with root, marks := if isCompound v then marks.addWhole (d.header ++ key) else marks }

end Document

/-- An inline table under construction. -/
structure Inline where
  entries : Raw.Table := []
  whole : List Key := []

/-- Adds an entry to an inline table. -/
def Inline.add (t : Inline) (key : Key) (v : Raw) : Option Inline :=
  if t.whole.any fun k => k.isPrefixOf key then none
  else
    (updateTable false (addEntry (key.getLastD []) v) key.dropLast t.entries).map fun entries =>
      ⟨entries, if Document.isCompound v then key :: t.whole else t.whole⟩

end SuggestBridge.Toml
