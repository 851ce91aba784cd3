import SuggestBridge.Time.Moment

/-!
# The directory of the log files

Every file has a number of its own. A file that is deleted while it is open keeps its number, and
what is written to it then is lost. Pruning deletes the regular files whose name ends with a suffix
and whose last change lies before a cutoff.
-/

namespace SuggestBridge.Log

/-- A regular file or a directory among the logs. -/
structure FileEntry where
  name : Text
  isDirectory : Bool := false
  modified : Moment
  content : Text := []
  number : Nat
  deriving DecidableEq

/-- The directory of the log files. -/
structure Directory where
  entries : List FileEntry := []
  /-- No file has this number or a greater one. -/
  nextNumber : Nat := 0

namespace Directory

/-- The entry of a name. -/
def find? (dir : Directory) (name : Text) : Option FileEntry :=
  dir.entries.find? fun e => e.name == name

/-- Adds an entry. -/
def add (dir : Directory) (name : Text) (isDirectory : Bool) (modified : Moment)
    (content : Text) : Directory :=
  ⟨dir.entries ++ [⟨name, isDirectory, modified, content, dir.nextNumber⟩], dir.nextNumber + 1⟩

/-- Opens a file to append to it, made empty where there is none. Gives its number; a directory
cannot be opened. -/
def openFile (dir : Directory) (now : Moment) (name : Text) : Option (Nat × Directory) :=
  match dir.find? name with
  | some e => if e.isDirectory then none else some (e.number, dir)
  | none => some (dir.nextNumber, dir.add name false now [])

/-- Appends to the file of a number, if it is still there. -/
def append (dir : Directory) (number : Nat) (now : Moment) (t : Text) : Directory :=
  { dir with entries := dir.entries.map fun e =>
      if e.number = number then { e with content := e.content ++ t, modified := now } else e }

/-- Sets the time of the last change of an entry. -/
def touch (dir : Directory) (name : Text) (now : Moment) : Directory :=
  { dir with entries := dir.entries.map fun e =>
      if e.name == name then { e with modified := now } else e }

end Directory

/-- A date that cannot be computed. -/
inductive ClockError where
  /-- The time to keep files is too long. -/
  | span (days : Int)
  /-- The cutoff lies outside the calendar. -/
  | cutoff
  /-- A file was changed outside the calendar. -/
  | modified (year : Int)
  deriving DecidableEq

/-- The longest time to keep files, in days. -/
def longestRetention : Nat := 999999999

/-- The wording of a date that cannot be computed. -/
def ClockError.message : ClockError → Text
  | .span days =>
    if -2147483648 ≤ days ∧ days < 2147483648 then
      "days=" ++ Text.ofInt days ++ "; must have magnitude <= " ++ Text.ofNat longestRetention
    else "Python int too large to convert to C int"
  | .cutoff => "date value out of range"
  | .modified year => "year " ++ Text.ofInt year ++ " is out of range"

/-- Which files are deleted. -/
structure Pruning where
  retentionDays : Int := 7
  suffix : Text := ".jsonl"

namespace Pruning

/-- The moment before which a file must have been changed to be deleted. -/
def cutoff (p : Pruning) (now : Moment) : Except ClockError Moment :=
  if longestRetention < p.retentionDays.natAbs then .error (.span p.retentionDays)
  else
    let cutoff := now.daysBefore p.retentionDays
    if cutoff.hasDate then .ok cutoff else .error .cutoff

/-- Whether an entry is looked at. -/
def isCandidate (p : Pruning) (e : FileEntry) : Bool :=
  !e.isDirectory && Text.endsWith e.name p.suffix

/-- Deletes what lies before a cutoff, entry by entry. An entry whose deletion the system refuses
stays; one without a date ends the pruning. Gives the entries that stay and the number of the
deleted ones. -/
def sweep (p : Pruning) (refuses : Text → Bool) (cutoff : Moment) :
    List FileEntry → List FileEntry × Except ClockError Nat
  | [] => ([], .ok 0)
  | e :: es =>
    let keep (r : List FileEntry × Except ClockError Nat) :
        List FileEntry × Except ClockError Nat :=
      (e :: r.1, r.2)
    if !p.isCandidate e then keep (sweep p refuses cutoff es)
    else if !e.modified.hasDate then (e :: es, .error (.modified e.modified.year))
    else if e.modified.isBefore cutoff && !refuses e.name then
      let (left, deleted) := sweep p refuses cutoff es
      (left, deleted.map (· + 1))
    else keep (sweep p refuses cutoff es)

/-- Prunes a directory. Gives the directory afterwards and the number of the deleted files. -/
def prune (p : Pruning) (refuses : Text → Bool) (now : Moment) (dir : Directory) :
    Directory × Except ClockError Nat :=
  match p.cutoff now with
  | .error e => (dir, .error e)
  | .ok cutoff =>
    let (entries, deleted) := p.sweep refuses cutoff dir.entries
    ({ dir with entries }, deleted)

end Pruning

end SuggestBridge.Log
