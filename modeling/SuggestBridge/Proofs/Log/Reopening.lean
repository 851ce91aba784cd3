import SuggestBridge.Proofs.Log.Housekeeping

/-!
# What a failed opening costs

A journal notes the new day and closes the file of the last one before it opens the new file.  If
that fails, the closed file stays in its place.  A journal that had no file in use tries again with
the next record, and nobody can tell that anything happened; one that had a file in use takes the
closed file for that of the day, and the rest of the day is lost (`Mute`).  A close or a record of a
third day ends this as if the opening had never failed; a record of the day before has its file
opened again, with the housekeeping that goes with it (`failed_opening_costs`).
-/

namespace SuggestBridge.Log

section Journals

variable {j j' : Journal} {refusals : Refusals} {clock : Readings} {dir : Directory} {r : Record}

/-- Of a journal that opens a file only its pruning counts, and whether it has a file. -/
lemma emit_congr (hneeded : j.isCurrent clock.filed.date = false)
    (hneeded' : j'.isCurrent clock.filed.date = false) (hpruning : j'.pruning = j.pruning)
    (hfile : j'.closeFile.file = j.closeFile.file) (hm : r.message?.isSome = true) :
    j'.emit refusals clock r dir = j.emit refusals clock r dir := by
  obtain ⟨m, hm⟩ := Option.isSome_iff_exists.1 hm
  have hpruning' : j'.closeFile.pruning = j.closeFile.pruning := hpruning
  have hrotate : j'.rotate refusals clock dir = j.rotate refusals clock dir := by
    simp only [Journal.rotate, hpruning', hfile]
  simp only [Journal.emit, hm, hneeded, hneeded', hrotate, Bool.false_eq_true, if_false]

lemma closeFile_closeFile (j : Journal) : j.closeFile.closeFile = j.closeFile := by
  cases hfile : j.file <;> simp [Journal.closeFile, hfile]

lemma isCurrent_of_file_eq_none (h : j.file = none) (d : Date) : j.isCurrent d = false := by
  simp [Journal.isCurrent, h]

end Journals

namespace Site

variable {s s' : Site}

/-- Of a journal without a file only its pruning counts.  By induction on the calls, until one of
them makes both sites the same. -/
lemma dir_run_congr {calls : List Call} (hdir : s'.dir = s.dir)
    (hpruning : s'.journal.pruning = s.journal.pruning) (hfile : s.journal.file = none)
    (hfile' : s'.journal.file = none) : (s'.run calls).dir = (s.run calls).dir := by
  induction calls generalizing s s' with
  | nil => exact hdir
  | cons c calls ih =>
    rw [run_cons, run_cons]
    cases c with
    | close => exact ih hdir hpruning rfl rfl
    | emit refusals clock r =>
      cases hm : r.message? with
      | none =>
        rw [take, take, emit_of_message?_eq_none hm, emit_of_message?_eq_none hm]
        exact ih hdir hpruning hfile hfile'
      | some m =>
        have hsame : s'.take (.emit refusals clock r) = s.take (.emit refusals clock r) := by
          rw [take, take, hdir, emit_congr (isCurrent_of_file_eq_none hfile _)
            (isCurrent_of_file_eq_none hfile' _) hpruning
            (by simp [Journal.closeFile, hfile, hfile']) (by rw [hm]; rfl)]
        rw [hsame]

section Failing

variable {refusals refusals' : Refusals} {clock clock' : Readings} {r r' : Record} {m : Text}

lemma take_of_unopenable (hm : r.message? = some m)
    (hneeded : s.journal.isCurrent clock.filed.date = false)
    (hfails : Unopenable refusals clock.filed.date s.dir) :
    s.take (.emit refusals clock r) =
      ⟨{ s.journal.closeFile with today := some clock.filed.date }, s.dir⟩ := by
  rw [take, emit_of_unopenable hm hneeded hfails]

/-- A journal that had a file in use takes the closed one for that of the day. -/
lemma mute_take_of_unopenable (hm : r.message? = some m)
    (hneeded : s.journal.isCurrent clock.filed.date = false)
    (hfails : Unopenable refusals clock.filed.date s.dir) (hfile : s.journal.file.isSome = true) :
    (s.take (.emit refusals clock r)).Mute clock.filed.date := by
  obtain ⟨h, hfile⟩ := Option.isSome_iff_exists.1 hfile
  rw [take_of_unopenable hm hneeded hfails]
  refine ⟨by simp [Journal.isCurrent, Journal.closeFile, hfile], fun h' hh' hopen => ?_⟩
  simp only [Journal.closeFile, hfile, Option.map_some, Option.some.injEq] at hh'
  rw [← hh'] at hopen
  cases hopen

/-- On a third day a file is opened as if the opening had never failed. -/
lemma take_take_of_unopenable (hm : r.message? = some m)
    (hneeded : s.journal.isCurrent clock.filed.date = false)
    (hfails : Unopenable refusals clock.filed.date s.dir) (hm' : r'.message?.isSome = true)
    (hday : clock'.filed.date ≠ clock.filed.date)
    (htoday : s.journal.today ≠ some clock'.filed.date) :
    (s.take (.emit refusals clock r)).take (.emit refusals' clock' r') =
      s.take (.emit refusals' clock' r') := by
  have hother : s.journal.isCurrent clock'.filed.date = false := by
    simp [Journal.isCurrent, htoday]
  have hother' : ({ s.journal.closeFile with today := some clock.filed.date } : Journal).isCurrent
      clock'.filed.date = false := by
    simp [Journal.isCurrent, Ne.symm hday]
  have htwice : s.journal.closeFile.closeFile.file = s.journal.closeFile.file :=
    congrArg Journal.file (closeFile_closeFile s.journal)
  have hclosed : ({ s.journal.closeFile with today := some clock.filed.date } :
      Journal).closeFile.file = s.journal.closeFile.file := htwice
  rw [take_of_unopenable hm hneeded hfails, take, take, emit_congr hother hother' rfl hclosed hm']

end Failing

end Site

/-- What a record costs for whose day no file can be opened. -/
structure CostsOfFailure (s : Site) (refusals : Refusals) (clock : Readings) (r : Record) : Prop where
  /-- The record itself is lost, and that is all that happens to the files. -/
  untouched : (s.take (.emit refusals clock r)).dir = s.dir
  /-- Where no file was in use, nobody can tell later that an opening has failed. -/
  unnoticed : s.journal.file = none → ∀ calls : List Call,
    ((s.take (.emit refusals clock r)).run calls).dir = (s.run calls).dir
  /-- Where a file was in use, the further records of the day are lost, even if the file of the day
  can be opened again. -/
  muted : s.journal.file.isSome = true → ∀ calls : List Call,
    (∀ c ∈ calls, c.StaysOn clock.filed.date) →
      (s.take (.emit refusals clock r)).run calls = s.take (.emit refusals clock r)
  /-- After a close nobody can tell that an opening has failed. -/
  closed : ∀ calls : List Call,
    ((s.take (.emit refusals clock r)).run (.close :: calls)).dir = (s.run (.close :: calls)).dir
  /-- Nor after a record of a third day. -/
  thirdDay : ∀ (refusals' : Refusals) (clock' : Readings) (r' : Record) (calls : List Call),
    r'.message?.isSome = true → clock'.filed.date ≠ clock.filed.date →
    s.journal.today ≠ some clock'.filed.date →
      (s.take (.emit refusals clock r)).run (.emit refusals' clock' r' :: calls) =
        s.run (.emit refusals' clock' r' :: calls)
  /-- Where the next record opens a file, it is written exactly if housekeeping is harmless.  This
  concerns also a record of the day before, which would have found its file open. -/
  reopened : ∀ (refusals' : Refusals) (clock' : Readings) (r' : Record) (m' : Text) (number : Nat)
    (opened : Directory),
    OpensFor (s.take (.emit refusals clock r)).journal refusals' clock' r'
      (s.take (.emit refusals clock r)).dir m' number opened →
    (Found clock'.filed.date (r'.line clock'.stamped m') s.dir
        ((s.take (.emit refusals clock r)).take (.emit refusals' clock' r')).dir ↔
      Harmless s.journal.pruning refusals' clock' opened)

/-- In every run a failed opening costs the record at hand and, where a file was in use, the further
records of its day until another day or a close. -/
theorem failed_opening_costs (p : Pruning) (dir : Directory) (before : List Call)
    (refusals : Refusals) (clock : Readings) (r : Record) (hproper : dir.Proper)
    (hm : r.message?.isSome = true)
    (hneeded : (Site.run ⟨{ pruning := p }, dir⟩ before).journal.isCurrent clock.filed.date = false)
    (hfails : Unopenable refusals clock.filed.date (Site.run ⟨{ pruning := p }, dir⟩ before).dir) :
    CostsOfFailure (Site.run ⟨{ pruning := p }, dir⟩ before) refusals clock r := by
  have hproper := Site.proper_run (s := ⟨{ pruning := p }, dir⟩) hproper before
  generalize Site.run ⟨{ pruning := p }, dir⟩ before = s at hneeded hfails hproper ⊢
  obtain ⟨m, hm⟩ := Option.isSome_iff_exists.1 hm
  have htake := Site.take_of_unopenable hm hneeded hfails
  have hdir : (s.take (.emit refusals clock r)).dir = s.dir := by rw [htake]
  have hpruning : (s.take (.emit refusals clock r)).journal.pruning = s.journal.pruning := by
    rw [htake]
    rfl
  refine ⟨hdir, fun hfile calls => ?_, fun hfile calls hcalls => ?_, fun calls => ?_,
    fun refusals' clock' r' calls hm' hday htoday => ?_,
    fun refusals' clock' r' m' number opened hopens => ?_⟩
  · refine Site.dir_run_congr hdir hpruning hfile ?_
    rw [htake]
    simp [Journal.closeFile, hfile]
  · exact (Site.mute_take_of_unopenable hm hneeded hfails hfile).run_eq hcalls
  · rw [Site.run_cons, Site.run_cons]
    exact Site.dir_run_congr hdir hpruning rfl rfl
  · rw [Site.run_cons, Site.run_cons,
      Site.take_take_of_unopenable hm hneeded hfails hm' hday htoday]
  · rw [← hpruning, ← hdir]
    exact found_iff_harmless (hdir ▸ hproper) hopens

/-- The clocks on the day after. -/
def nextClock : Readings := (⟨31 * Moment.perDay⟩ : Moment)

/-- What refuses to open the file of that day. -/
def refusingNext : Refusals := { opening := fun name => name == fileName nextClock.filed.date }

theorem failed_opening_costs_next :
    let before : List Call := [.emit {} lateClock lateRecord]
    let s : Site := Site.run ⟨{}, {}⟩ before
    lateRecord.message?.isSome = true ∧ s.journal.isCurrent nextClock.filed.date = false ∧
      Unopenable refusingNext nextClock.filed.date s.dir ∧
      CostsOfFailure s refusingNext nextClock lateRecord := by
  intro before s
  have hproper : ({} : Directory).Proper := ⟨by decide, by decide, by decide⟩
  have hm : lateRecord.message?.isSome = true := by decide +kernel
  have hneeded : s.journal.isCurrent nextClock.filed.date = false := by decide +kernel
  have hfails : Unopenable refusingNext nextClock.filed.date s.dir := by decide +kernel
  exact ⟨hm, hneeded, hfails, failed_opening_costs {} {} before refusingNext nextClock lateRecord
    hproper hm hneeded hfails⟩

/-- Files among which a directory has the name of the next day's file. -/
def blockedFiles : Directory where
  entries := [⟨"1970-02-01.jsonl", true, ⟨0⟩, [], 0⟩]
  nextNumber := 1

/-- Records are lost behind a failed opening though their file can be opened: one of the same day,
as soon as the system permits it again, and one of the day before, if there is no cutoff to the time
to keep logs, though without the failure it is written. -/
theorem failed_opening_loses_records :
    let emit : Call := .emit {} lateClock lateRecord
    let line := lateRecord.line lateClock.stamped "bad frame"
    let refused := Site.run ⟨{}, {}⟩ [emit, .emit refusingNext nextClock lateRecord]
    let blocked : Site := ⟨{ pruning := { retentionDays := 1000000000 } }, blockedFiles⟩
    let failed := blocked.run [emit, emit, .emit {} nextClock lateRecord]
    lateRecord.message? = some "bad frame" ∧
      (¬Unopenable {} nextClock.filed.date refused.dir ∧
        ¬Found nextClock.filed.date (lateRecord.line nextClock.stamped "bad frame") refused.dir
          (refused.take (.emit {} nextClock lateRecord)).dir) ∧
      ¬Unopenable {} lateClock.filed.date failed.dir ∧
      ¬Found lateClock.filed.date line failed.dir (failed.take emit).dir ∧
      Found lateClock.filed.date line (blocked.run [emit, emit]).dir
        (blocked.run [emit, emit, emit]).dir := by
  intro emit line refused blocked failed
  have hmessage : lateRecord.message? = some "bad frame" := by decide +kernel
  have hpermitted : ¬Unopenable {} nextClock.filed.date refused.dir := by decide +kernel
  have hopenable : ¬Unopenable {} lateClock.filed.date failed.dir := by decide +kernel
  exact ⟨hmessage, ⟨hpermitted, by decide +kernel⟩, hopenable, by decide +kernel, by decide +kernel⟩

end SuggestBridge.Log
