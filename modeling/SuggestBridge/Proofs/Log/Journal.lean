import SuggestBridge.Log.Journal
import SuggestBridge.Proofs.Log.Directory
import SuggestBridge.Proofs.Log.Record
import SuggestBridge.Proofs.Result
import SuggestBridge.Proofs.Sexp.Atom
import SuggestBridge.Proofs.Text.Pieces

/-!
# A journal keeps every record

A journal is called again and again to take a record or to close.  While the system lets it open the
files of its days and pruning goes through and spares the day's own file (`Smooth`), a journal with
an open file has the one of its day open (`Sound`), whichever way the clock has moved.  So each
record whose message can be filled in goes to the end of the file of its day and nowhere else
(`Written`), and a file that no pruning deletes holds the lines of the records of its day, in order.
-/

namespace SuggestBridge.Log

open CodePoint (ofChar)

/-! ## The names of the files -/

lemma decimal_twoDigits (n : Nat) : Sexp.decimal (Date.twoDigits n) = n := by
  rw [Date.twoDigits]
  split
  · next h =>
    have hzero : Sexp.decimal (Text.ofString "0") = 0 := rfl
    rw [Sexp.ofNat_of_lt h, Sexp.decimal_append_digit _ h, hzero, Nat.mul_zero, Nat.zero_add]
  · exact Sexp.decimal_ofNat n

lemma minus_not_mem_ofNat (n : Nat) : ofChar '-' ∉ Text.ofNat n := fun h =>
  absurd ((Sexp.isDigits_ofNat n).2 _ h) (by decide)

lemma minus_not_mem_twoDigits (n : Nat) : ofChar '-' ∉ Date.twoDigits n := by
  rw [Date.twoDigits, List.mem_append, not_or]
  refine ⟨?_, minus_not_mem_ofNat n⟩
  split <;> decide

/-- A day can be told from what is written for it. -/
lemma splitAt_shortText (d : Date) : Text.splitAt (ofChar '-') d.shortText =
    [Text.ofNat d.year, Date.twoDigits d.month, Date.twoDigits d.day] := by
  have hshort : d.shortText = Text.ofNat d.year ++ ofChar '-' ::
      (Date.twoDigits d.month ++ ofChar '-' :: Date.twoDigits d.day) := by
    simp [Date.shortText, Text.ofString]
  rw [hshort, Text.splitAt_append_sep, Text.splitAt_append_sep,
    Text.splitAt_of_not_mem (minus_not_mem_ofNat _),
    Text.splitAt_of_not_mem (minus_not_mem_twoDigits _),
    Text.splitAt_of_not_mem (minus_not_mem_twoDigits _)]
  rfl

/-- Days have files of different names. -/
lemma fileName_injective {d d' : Date} (h : fileName d = fileName d') : d = d' := by
  have hshort : d.shortText = d'.shortText := List.append_cancel_right h
  have hpieces := congrArg (Text.splitAt (ofChar '-')) hshort
  rw [splitAt_shortText, splitAt_shortText] at hpieces
  simp only [List.cons.injEq, and_true] at hpieces
  obtain ⟨hyear, hmonth, hday⟩ := hpieces
  have hyear := congrArg Sexp.decimal hyear
  have hmonth := congrArg Sexp.decimal hmonth
  have hday := congrArg Sexp.decimal hday
  rw [Sexp.decimal_ofNat, Sexp.decimal_ofNat] at hyear
  rw [decimal_twoDigits, decimal_twoDigits] at hmonth hday
  cases d
  cases d'
  simp_all

/-! ## Calls -/

/-- A call of a journal: to take a record, with what the system refuses and the clocks show
meanwhile, or to close. -/
inductive Call where
  | emit (refusals : Refusals) (clock : Readings) (r : Record)
  | close

/-- A journal and the directory of its files. -/
structure Site where
  journal : Journal
  dir : Directory

namespace Site

/-- What a call makes of a journal and its directory. -/
def take (s : Site) : Call → Site
  | .emit refusals clock r =>
    ⟨(s.journal.emit refusals clock r s.dir).1, (s.journal.emit refusals clock r s.dir).2⟩
  | .close => { s with journal := s.journal.close }

/-- What a sequence of calls makes of them. -/
def run (s : Site) (calls : List Call) : Site := calls.foldl take s

/-- Opening the file of a day succeeds, and so does the pruning behind it: its cutoff and the times
of the files that it looks at are dates, and it spares the file that was opened. -/
@[mk_iff]
structure Opens (j : Journal) (refusals : Refusals) (clock : Readings) (dir : Directory) :
    Prop where
  permitted : refusals.opening (fileName clock.filed.date) = false
  noDirectory : ∀ e ∈ dir.find? (fileName clock.filed.date), e.isDirectory = false
  cutoff : (j.pruning.cutoff clock.pruned).isOk = true
  dated : ∀ e ∈ dir.entries, j.pruning.isCandidate e = true → e.modified.hasDate = true
  changed : clock.changed.hasDate = true
  spared : ((j.rotate refusals clock dir).2.1.find? (fileName clock.filed.date)).isSome = true

instance (j : Journal) (refusals : Refusals) (clock : Readings) (dir : Directory) :
    Decidable (Opens j refusals clock dir) :=
  decidable_of_iff' _ (opens_iff j refusals clock dir)

/-- Nothing goes wrong at a call: a file that it opens for a record opens well. -/
def Succeeds (s : Site) : Call → Prop
  | .emit refusals clock r =>
    r.message?.isSome = true → s.journal.isCurrent clock.filed.date = false →
      Opens s.journal refusals clock s.dir
  | .close => True

instance (s : Site) : ∀ c, Decidable (s.Succeeds c)
  | .emit _ _ _ => inferInstanceAs (Decidable (_ → _ → _))
  | .close => .isTrue trivial

/-- Nothing goes wrong at any of the calls. -/
def Smooth (s : Site) : List Call → Prop
  | [] => True
  | c :: calls => s.Succeeds c ∧ (s.take c).Smooth calls

/-- Whether nothing goes wrong can be tried out. -/
instance decidableSmooth : ∀ (s : Site) (calls : List Call), Decidable (s.Smooth calls)
  | _, [] => .isTrue trivial
  | s, c :: calls =>
    have := decidableSmooth (s.take c) calls
    inferInstanceAs (Decidable (s.Succeeds c ∧ (s.take c).Smooth calls))

/-- The file that is open is the one of the day. -/
structure Sound (s : Site) : Prop where
  proper : s.dir.Proper
  file : ∀ h, s.journal.file = some h → h.isOpen = true ∧ ∃ d, s.journal.today = some d ∧
    ∃ e, s.dir.find? (fileName d) = some e ∧ e.number = h.number ∧ e.isDirectory = false

end Site

/-! ## Taking a record -/

section Emit

variable {j : Journal} {refusals : Refusals} {clock : Readings} {dir : Directory}

/-- Every file but that of the day is as it was, unless a pruning found it overdue and deleted it. -/
def OthersStay (p : Pruning) (refusals : Refusals) (clock : Readings) (dir dir' : Directory) :
    Prop :=
  ∀ other, other ≠ fileName clock.filed.date →
    dir'.find? other = dir.find? other ∨
      dir'.find? other = none ∧ ∃ e cutoff, dir.find? other = some e ∧
        p.cutoff clock.pruned = .ok cutoff ∧ p.isOverdue refusals.deleting cutoff e = true

/-- What is still there is as it was. -/
lemma OthersStay.contentOf_eq {p : Pruning} {dir' : Directory} {other : Text}
    (h : OthersStay p refusals clock dir dir') (hother : other ≠ fileName clock.filed.date)
    (hkept : (dir.find? other).isSome → (dir'.find? other).isSome) :
    dir'.contentOf other = dir.contentOf other := by
  rcases h other hother with hsame | ⟨hgone, e, -, hfound, -⟩
  · rw [Directory.contentOf, hsame, Directory.contentOf]
  · rw [hgone, hfound] at hkept
    cases hkept rfl

/-- A record's line stands at the end of the file of the day and in no other file. -/
structure Written (p : Pruning) (refusals : Refusals) (clock : Readings) (line : Text)
    (dir dir' : Directory) : Prop where
  own : ∃ e, dir'.find? (fileName clock.filed.date) = some e ∧ e.isDirectory = false ∧
    e.content = dir.contentOf (fileName clock.filed.date) ++ line ++ [ofChar '\n']
  elsewhere : OthersStay p refusals clock dir dir'

/-- The file of the day is open, with its content as it was. -/
structure Prepared (p : Pruning) (refusals : Refusals) (clock : Readings) (dir : Directory)
    (j' : Journal) (dir' : Directory) : Prop where
  proper : dir'.Proper
  today : j'.today = some clock.filed.date
  file : ∃ h e, j'.file = some h ∧ h.isOpen = true ∧
    dir'.find? (fileName clock.filed.date) = some e ∧ e.number = h.number ∧ e.isDirectory = false
  content : dir'.contentOf (fileName clock.filed.date) = dir.contentOf (fileName clock.filed.date)
  elsewhere : OthersStay p refusals clock dir dir'

/-- A file that is in use is the one of the day. -/
lemma prepared_of_isCurrent (hsound : Site.Sound ⟨j, dir⟩)
    (hcurrent : j.isCurrent clock.filed.date = true) :
    Prepared j.pruning refusals clock dir j dir := by
  obtain ⟨htoday, hfile⟩ : j.today = some clock.filed.date ∧ j.file.isSome = true := by
    simpa [Journal.isCurrent] using hcurrent
  obtain ⟨h, hfile⟩ := Option.isSome_iff_exists.1 hfile
  obtain ⟨hopen, d, hd, e, he, hnumber, hdirectory⟩ := hsound.file h hfile
  have hday : d = clock.filed.date := Option.some.inj (hd.symm.trans htoday)
  subst hday
  exact ⟨hsound.proper, htoday, ⟨h, e, hfile, hopen, he, hnumber, hdirectory⟩, rfl,
    fun _ _ => .inl rfl⟩

/-- What is left of a journal and its directory when the file of a day was opened and pruning has
gone through. -/
lemma rotate_eq {number : Nat} {opened : Directory} {cutoff : Moment}
    (hpermitted : refusals.opening (fileName clock.filed.date) = false)
    (hopen : dir.openFile clock.changed (fileName clock.filed.date) = some (number, opened))
    (hcutoff : j.pruning.cutoff clock.pruned = .ok cutoff)
    (hdated : ∀ e ∈ opened.entries, j.pruning.isCandidate e = true → e.modified.hasDate = true) :
    j.rotate refusals clock dir =
      ({ j.closeFile with today := some clock.filed.date, file := some { number := number } },
        opened.only fun e => !j.pruning.isOverdue refusals.deleting cutoff e, true) := by
  have hpruning : ({ j.closeFile with today := some clock.filed.date } : Journal).pruning =
      j.pruning := rfl
  simp only [Journal.rotate, hpermitted, Bool.false_eq_true, if_false, hopen]
  rw [hpruning, Pruning.prune_eq hcutoff hdated]
  rfl

/-- Pruning behind the opening of a file leaves every other file as it was or finds it overdue. -/
lemma othersStay_only {p : Pruning} {number : Nat} {opened : Directory} {cutoff : Moment}
    (hopened : Directory.Opened (fileName clock.filed.date) clock.changed dir number opened)
    (hcutoff : p.cutoff clock.pruned = .ok cutoff) :
    OthersStay p refusals clock dir
      (opened.only fun e => !p.isOverdue refusals.deleting cutoff e) := by
  intro other hother
  rw [hopened.proper.find?_only, hopened.elsewhere hother]
  cases hfind : dir.find? other with
  | none => exact .inl rfl
  | some e =>
    cases hoverdue : p.isOverdue refusals.deleting cutoff e with
    | false => exact .inl (by simp [hoverdue])
    | true => exact .inr ⟨by simp [hoverdue], e, cutoff, rfl, hcutoff, hoverdue⟩

/-- Opening the file of a day leaves it open and deletes other files at most. -/
lemma exists_rotate_eq (hproper : dir.Proper) (hopens : Site.Opens j refusals clock dir) :
    ∃ j' dir', j.rotate refusals clock dir = (j', dir', true) ∧
      Prepared j.pruning refusals clock dir j' dir' := by
  obtain ⟨number, opened, hopen, hopened⟩ :=
    Directory.exists_openFile hproper clock.changed hopens.noDirectory
  obtain ⟨cutoff, hcutoff⟩ := Result.exists_eq_ok_of_isOk hopens.cutoff
  have hdated : ∀ e ∈ opened.entries,
      j.pruning.isCandidate e = true → e.modified.hasDate = true := by
    intro e he hcandidate
    rcases hopened.modified e he with hold | hnew
    · exact hopens.dated e hold hcandidate
    · exact hnew ▸ hopens.changed
  have hrotate := rotate_eq hopens.permitted hopen hcutoff hdated
  obtain ⟨e, he, hnumber, hdirectory, hcontent⟩ := hopened.file
  have hspared := hopens.spared
  rw [hrotate, hopened.proper.find?_only, he, Option.isSome_filter] at hspared
  have hkept : (opened.only fun e => !j.pruning.isOverdue refusals.deleting cutoff e).find?
      (fileName clock.filed.date) = some e := by
    rw [hopened.proper.find?_only, he, Option.filter_some, if_pos (by simpa using hspared)]
  refine ⟨_, _, hrotate, hopened.proper.only _, rfl,
    ⟨_, e, rfl, rfl, hkept, hnumber, hdirectory⟩, ?_, othersStay_only hopened hcutoff⟩
  rw [Directory.contentOf_of_find? hkept, hcontent]

/-- What is written when the file of the day is open stands at its end. -/
lemma Prepared.written {p : Pruning} {j' : Journal} {dir' : Directory}
    (h : Prepared p refusals clock dir j' dir') (line : Text) :
    Written p refusals clock line dir (j'.write clock.changed line dir') ∧
      Site.Sound ⟨j', j'.write clock.changed line dir'⟩ := by
  obtain ⟨hproper, htoday, ⟨handle, e, hfile, hopen, he, hnumber, hdirectory⟩, hcontent, helse⟩ := h
  have hwrite : j'.write clock.changed line dir' =
      dir'.append e.number clock.changed (line ++ [ofChar '\n']) := by
    simp only [Journal.write, hfile, hopen, if_true, hnumber]
  have hown : (dir'.append e.number clock.changed (line ++ [ofChar '\n'])).find?
      (fileName clock.filed.date) = some { e with
        content := e.content ++ (line ++ [ofChar '\n']), modified := clock.changed } := by
    rw [Directory.find?_append, he, Option.map_some, if_pos rfl]
  rw [hwrite]
  refine ⟨⟨⟨_, hown, hdirectory, ?_⟩, fun other hother => ?_⟩,
    ⟨hproper.append _ _ _, fun h hh => ?_⟩⟩
  · rw [← hcontent, Directory.contentOf_of_find? he, List.append_assoc]
  · rw [hproper.find?_append_of_ne he _ _ hother]
    exact helse other hother
  · obtain rfl : handle = h := Option.some.inj (hfile.symm.trans hh)
    exact ⟨hopen, _, htoday, _, hown, hnumber, hdirectory⟩

/-- A record whose message can be filled in is written, if nothing goes wrong. -/
lemma written_of_emit {r : Record} {m : Text} (hsound : Site.Sound ⟨j, dir⟩)
    (hm : r.message? = some m) (hok : Site.Succeeds ⟨j, dir⟩ (.emit refusals clock r)) :
    Written j.pruning refusals clock (r.line clock.stamped m) dir (j.emit refusals clock r dir).2 ∧
      Site.Sound (Site.take ⟨j, dir⟩ (.emit refusals clock r)) := by
  rw [Site.take]
  cases hcurrent : j.isCurrent clock.filed.date with
  | true =>
    have hemit : j.emit refusals clock r dir =
        (j, j.write clock.changed (r.line clock.stamped m) dir) := by
      simp only [Journal.emit, hm, hcurrent, if_true]
    rw [hemit]
    exact (prepared_of_isCurrent hsound hcurrent).written _
  | false =>
    have hopens : Site.Opens j refusals clock dir := hok (by rw [hm]; rfl) hcurrent
    obtain ⟨j', dir', hrotate, hprepared⟩ := exists_rotate_eq hsound.proper hopens
    have hemit : j.emit refusals clock r dir =
        (j', j'.write clock.changed (r.line clock.stamped m) dir') := by
      simp only [Journal.emit, hm, hcurrent, Bool.false_eq_true, if_false, hrotate, if_true]
    rw [hemit]
    exact hprepared.written _

/-- A record whose message cannot be filled in is dropped before anything else. -/
lemma emit_of_message?_eq_none {r : Record} (hm : r.message? = none) :
    j.emit refusals clock r dir = (j, dir) := by
  rw [Journal.emit, hm]

end Emit

/-! ## Whole runs -/

/-- The message that a call has to write, if there is one. -/
def Call.message? : Call → Option Text
  | .emit _ _ r => r.message?
  | .close => none

/-- What a call adds to the file of a day. -/
def Call.addedTo (d : Date) : Call → Text
  | .emit _ clock r =>
    match r.message? with
    | some m => if clock.filed.date = d then r.line clock.stamped m ++ [ofChar '\n'] else []
    | none => []
  | .close => []

namespace Site

variable {s : Site}

/-- No call deletes the file of a name. -/
def Keeps (s : Site) (calls : List Call) (name : Text) : Prop :=
  ∀ before c after, calls = before ++ c :: after →
    ((s.run before).dir.find? name).isSome → ((s.run (before ++ [c])).dir.find? name).isSome

lemma run_cons (s : Site) (c : Call) (calls : List Call) :
    s.run (c :: calls) = (s.take c).run calls := rfl

lemma run_append (s : Site) (calls more : List Call) :
    s.run (calls ++ more) = (s.run calls).run more := List.foldl_append

/-- A call that has nothing to write leaves the directory as it is. -/
lemma take_of_message?_eq_none {c : Call} (h : c.message? = none) : (s.take c).dir = s.dir := by
  cases c with
  | emit refusals clock r => rw [take, emit_of_message?_eq_none h]
  | close => rfl

lemma Sound.take {c : Call} (hsound : s.Sound) (hok : s.Succeeds c) : (s.take c).Sound := by
  cases c with
  | emit refusals clock r =>
    cases hm : r.message? with
    | some m => exact (written_of_emit hsound hm hok).2
    | none => rwa [Site.take, emit_of_message?_eq_none hm]
  | close => exact ⟨hsound.proper, fun h hh => by cases hh⟩

/-- At one call a file that stays gains what the call adds to it. -/
lemma contentOf_take {c : Call} {d : Date} (hsound : s.Sound) (hok : s.Succeeds c)
    (hkept : (s.dir.find? (fileName d)).isSome → ((s.take c).dir.find? (fileName d)).isSome) :
    (s.take c).dir.contentOf (fileName d) = s.dir.contentOf (fileName d) ++ c.addedTo d := by
  cases c with
  | close => exact (List.append_nil _).symm
  | emit refusals clock r =>
    cases hm : r.message? with
    | none =>
      rw [take_of_message?_eq_none (c := .emit refusals clock r) hm]
      simp only [Call.addedTo, hm, List.append_nil]
    | some m =>
      obtain ⟨⟨⟨e, he, -, hcontent⟩, helse⟩, -⟩ := written_of_emit hsound hm hok
      by_cases hday : clock.filed.date = d
      · subst hday
        simp only [Call.addedTo, hm, if_true]
        rw [← List.append_assoc, ← hcontent]
        exact Directory.contentOf_of_find? he
      · simp only [Call.addedTo, hm, if_neg hday, List.append_nil]
        exact helse.contentOf_eq (fun h => hday (fileName_injective h).symm) hkept

/-- What holds before every call of a run, by induction on the calls. -/
lemma Smooth.before {calls before after : List Call} {c : Call} (h : s.Smooth calls) (hsound : s.Sound)
    (hcalls : calls = before ++ c :: after) : (s.run before).Sound ∧ (s.run before).Succeeds c := by
  induction before generalizing s calls with
  | nil =>
    subst hcalls
    exact ⟨hsound, h.1⟩
  | cons b before ih =>
    subst hcalls
    exact ih h.2 (hsound.take h.1) rfl

/-- In a run a file that is never deleted gains what the calls add to it, one after the other. -/
lemma contentOf_run {calls : List Call} {d : Date} (hsound : s.Sound) (h : s.Smooth calls)
    (hkeeps : s.Keeps calls (fileName d)) :
    (s.run calls).dir.contentOf (fileName d) =
      s.dir.contentOf (fileName d) ++ calls.flatMap (Call.addedTo d) := by
  induction calls generalizing s with
  | nil => exact (List.append_nil _).symm
  | cons c calls ih =>
    have hfirst := contentOf_take hsound h.1 (hkeeps [] c calls rfl)
    have hrest := ih (hsound.take h.1) h.2 fun before b after hcalls =>
      hkeeps (c :: before) b after (by rw [hcalls, List.cons_append])
    rw [run_cons, hrest, hfirst, List.flatMap_cons, List.append_assoc]

end Site

/-- What a journal promises of a sequence of calls. -/
structure KeepsEveryRecord (s : Site) (calls : List Call) : Prop where
  /-- A record whose message can be filled in is one line more in the file of its day, and the line
  tells it. -/
  written : ∀ before refusals clock r after m, calls = before ++ .emit refusals clock r :: after →
    r.message? = some m →
      Written (s.run before).journal.pruning refusals clock (r.line clock.stamped m)
        (s.run before).dir (s.run (before ++ [.emit refusals clock r])).dir ∧
      Tells (r.line clock.stamped m) (r.told m)
  /-- Other calls write nothing. -/
  silent : ∀ before c after, calls = before ++ c :: after → c.message? = none →
    (s.run (before ++ [c])).dir = (s.run before).dir
  /-- A file of a day that is never deleted ends with the lines of that day's records, in order. -/
  complete : ∀ d, s.Keeps calls (fileName d) →
    (s.run calls).dir.contentOf (fileName d) =
      s.dir.contentOf (fileName d) ++ calls.flatMap (Call.addedTo d)

/-- Files at the first midnight: the one of that day, a directory, and a file of a month before. -/
def sampleFiles : Directory where
  entries :=
    [⟨"1970-01-01.jsonl", false, ⟨0⟩, "old\n", 0⟩, ⟨"older.jsonl", true, ⟨0⟩, [], 1⟩,
      ⟨"1969-12-01.jsonl", false, ⟨-31 * Moment.perDay⟩, "oldest\n", 2⟩]
  nextNumber := 3

/-- A record of each of two days, one that cannot be filled in, a close, and one of the first day
again. -/
def sampleCalls : List Call :=
  let daemon : Record := ⟨"nimlink.epc.peer", Level.warning, "bad %s", [.string "frame"], none⟩
  let midnight (n : Nat) : Moment := ⟨n * Moment.perDay⟩
  [.emit {} (midnight 0) daemon, .emit {} (midnight 1) daemon,
    .emit {} (midnight 2) { daemon with arguments := [.int 1, .int 2] }, .close,
    .emit {} (midnight 0) daemon]

end SuggestBridge.Log
