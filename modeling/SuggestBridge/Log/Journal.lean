import SuggestBridge.Log.Directory
import SuggestBridge.Log.Record

/-!
# Journals

A journal writes records to one file a day. With the first record of another day it closes the file,
opens the one of that day and prunes the directory; then it writes. What fails on the way costs the
record. A record whose arguments do not fit is dropped before anything else.
-/

namespace SuggestBridge.Log

/-- A file that was opened. -/
structure Handle where
  number : Nat
  isOpen : Bool := true
  deriving DecidableEq

/-- A journal. -/
structure Journal where
  pruning : Pruning := {}
  /-- The day of the last record that was to be written. -/
  today : Option Date := none
  file : Option Handle := none

/-- What the system refuses. -/
structure Refusals where
  opening : Text → Bool := fun _ => false
  deleting : Text → Bool := fun _ => false

/-- What the clocks show while a record is taken; each is read on its own. -/
structure Readings where
  /-- The time that the line gives. -/
  stamped : Moment
  /-- The time whose day names the file. -/
  filed : Moment
  /-- The time from which pruning counts back. -/
  pruned : Moment
  /-- The time that the file system notes for a change. -/
  changed : Moment

/-- Clocks that agree and stand still. -/
instance : Coe Moment Readings := ⟨fun now => ⟨now, now, now, now⟩⟩

/-- The name of the file of a day. -/
def fileName (d : Date) : Text := d.shortText ++ ".jsonl"

namespace Journal

/-- Closes the file, which is kept as a closed one. -/
def closeFile (j : Journal) : Journal :=
  { j with file := j.file.map fun h => { h with isOpen := false } }

/-- Opens the file of a day. If that fails, the last file stays in its place, closed. Gives whether
a record can be written. -/
def rotate (j : Journal) (refusals : Refusals) (clock : Readings) (dir : Directory) :
    Journal × Directory × Bool :=
  let j := { j.closeFile with today := some clock.filed.date }
  let name := fileName clock.filed.date
  if refusals.opening name then (j, dir, false)
  else
    match dir.openFile clock.changed name with
    | none => (j, dir, false)
    | some (number, dir) =>
      let (dir, pruned) := j.pruning.prune refusals.deleting clock.pruned dir
      ({ j with file := some { number := number } }, dir, pruned.isOk)

/-- Whether the file of a day is the one in use. -/
def isCurrent (j : Journal) (d : Date) : Bool := j.today = some d && j.file.isSome

/-- Writes a line to the file in use, unless that is closed. -/
def write (j : Journal) (now : Moment) (line : Text) (dir : Directory) : Directory :=
  match j.file with
  | some h => if h.isOpen then dir.append h.number now (line ++ [CodePoint.ofChar '\n']) else dir
  | none => dir

/-- Takes a record. -/
def emit (j : Journal) (refusals : Refusals) (clock : Readings) (r : Record) (dir : Directory) :
    Journal × Directory :=
  match r.message? with
  | none => (j, dir)
  | some message =>
    let (j, dir, ready) :=
      if j.isCurrent clock.filed.date then (j, dir, true) else j.rotate refusals clock dir
    (j, if ready then j.write clock.changed (r.line clock.stamped message) dir else dir)

/-- Closes the journal; a later record opens a file again. -/
def close (j : Journal) : Journal := { j with file := none }

end Journal

end SuggestBridge.Log
