import SuggestBridge.Proofs.Log.Journal
import SuggestBridge.Proofs.Log.Pruning

/-!
# What housekeeping costs

A journal prunes its directory between opening the file of a day and writing to it.  So a record
that opens a file is written exactly if pruning goes through and spares that file
(`found_iff_harmless`): if it does not go through, the record is lost, and if it deletes the file,
the whole rest of the day is lost with it, for the journal goes on writing to a file that is gone
(`Mute`).  Otherwise every further record of the day is written (`housekeeping_costs`).
-/

namespace SuggestBridge.Log

open CodePoint (ofChar)
open Pruning (Expired)

/-! ## Taking a record, case by case -/

/-- The file of a day cannot be opened: the system refuses it, or a directory has its name. -/
def Unopenable (refusals : Refusals) (d : Date) (dir : Directory) : Prop :=
  refusals.opening (fileName d) = true ∨
    ∃ e, dir.find? (fileName d) = some e ∧ e.isDirectory = true

instance (refusals : Refusals) (d : Date) (dir : Directory) :
    Decidable (Unopenable refusals d dir) :=
  inferInstanceAs (Decidable (_ ∨ ∃ e, e ∈ dir.find? (fileName d) ∧ _))

/-- A record, filled in as a message, makes a journal open the file of its day, which gets a number
in the directory. -/
structure OpensFor (j : Journal) (refusals : Refusals) (clock : Readings) (r : Record)
    (dir : Directory) (m : Text) (number : Nat) (opened : Directory) : Prop where
  message : r.message? = some m
  needed : j.isCurrent clock.filed.date = false
  permitted : refusals.opening (fileName clock.filed.date) = false
  opened : dir.openFile clock.changed (fileName clock.filed.date) = some (number, opened)

section Emit

variable {j : Journal} {refusals : Refusals} {clock : Readings} {dir opened : Directory}
  {r : Record} {m : Text} {number : Nat}

lemma emit_of_isCurrent (hm : r.message? = some m)
    (hcurrent : j.isCurrent clock.filed.date = true) :
    j.emit refusals clock r dir = (j, j.write clock.changed (r.line clock.stamped m) dir) := by
  simp only [Journal.emit, hm, hcurrent, if_true]

/-- The file of a new day is opened, the directory is pruned, and if that goes through the record
is written. -/
lemma emit_of_openFile (h : OpensFor j refusals clock r dir m number opened) :
    j.emit refusals clock r dir =
      ({ j with today := some clock.filed.date, file := some { number := number } },
        if (j.pruning.prune refusals.deleting clock.pruned opened).2.isOk then
          (j.pruning.prune refusals.deleting clock.pruned opened).1.append number clock.changed
            (r.line clock.stamped m ++ [ofChar '\n'])
        else (j.pruning.prune refusals.deleting clock.pruned opened).1) := by
  simp only [Journal.emit, h.message, h.needed, Bool.false_eq_true, if_false, Journal.rotate,
    h.permitted, h.opened, Journal.closeFile, Journal.write, if_true]

/-- A file that cannot be opened leaves the journal with the closed file of another day. -/
lemma emit_of_unopenable (hm : r.message? = some m)
    (hcurrent : j.isCurrent clock.filed.date = false)
    (h : Unopenable refusals clock.filed.date dir) :
    j.emit refusals clock r dir = ({ j.closeFile with today := some clock.filed.date }, dir) := by
  rcases h with hrefused | ⟨e, he, hdirectory⟩
  · simp only [Journal.emit, hm, hcurrent, Bool.false_eq_true, if_false, Journal.rotate, hrefused,
      if_true]
  · have hopen : dir.openFile clock.changed (fileName clock.filed.date) = none := by
      rw [Directory.openFile, he]
      exact if_pos hdirectory
    cases hrefused : refusals.opening (fileName clock.filed.date) <;>
      simp only [Journal.emit, hm, hcurrent, Bool.false_eq_true, if_false, Journal.rotate, hrefused,
        hopen, if_true]

lemma unopenable_or_exists_openFile (refusals : Refusals) (clock : Readings) (dir : Directory) :
    Unopenable refusals clock.filed.date dir ∨
      refusals.opening (fileName clock.filed.date) = false ∧ ∃ number opened,
        dir.openFile clock.changed (fileName clock.filed.date) = some (number, opened) := by
  cases hrefused : refusals.opening (fileName clock.filed.date) with
  | true => exact .inl (.inl hrefused)
  | false =>
    cases hfind : dir.find? (fileName clock.filed.date) with
    | none => exact .inr ⟨rfl, _, _, by rw [Directory.openFile, hfind]⟩
    | some e =>
      cases hdirectory : e.isDirectory with
      | true => exact .inl (.inr ⟨e, hfind, hdirectory⟩)
      | false => exact .inr ⟨rfl, e.number, dir, by simp [Directory.openFile, hfind, hdirectory]⟩

end Emit

/-! ## The record that opens a file -/

/-- The line stands at the end of the file of the day. -/
def Found (d : Date) (line : Text) (dir dir' : Directory) : Prop :=
  ∃ e, dir'.find? (fileName d) = some e ∧
    e.content = dir.contentOf (fileName d) ++ line ++ [ofChar '\n']

instance (d : Date) (line : Text) (dir dir' : Directory) : Decidable (Found d line dir dir') :=
  inferInstanceAs (Decidable (∃ e, e ∈ dir'.find? (fileName d) ∧ _))

lemma append_line_ne (t line : Text) : t ++ line ++ [ofChar '\n'] ≠ t := by
  intro h
  rw [List.append_assoc] at h
  have hempty := List.self_eq_append_right.1 h.symm
  exact List.cons_ne_nil _ _ (List.append_eq_nil_iff.1 hempty).2

/-- Pruning the directory in which the file of the day was opened goes through, and that file has
not expired. -/
structure Harmless (p : Pruning) (refusals : Refusals) (clock : Readings) (opened : Directory) :
    Prop where
  cutoff : (p.cutoff clock.pruned).isOk = true
  dated : ∀ e ∈ opened.entries, p.isCandidate e = true → e.modified.hasDate = true
  spared : ∀ e, opened.find? (fileName clock.filed.date) = some e →
    ¬Expired p refusals.deleting clock.pruned e

section Opened

variable {j : Journal} {refusals : Refusals} {clock : Readings} {dir opened : Directory}
  {r : Record} {m : Text} {number : Nat}

/-- A record that opens the file of the day is written exactly if housekeeping is harmless. -/
lemma found_iff_harmless (hproper : dir.Proper)
    (h : OpensFor j refusals clock r dir m number opened) :
    Found clock.filed.date (r.line clock.stamped m) dir (j.emit refusals clock r dir).2 ↔
      Harmless j.pruning refusals clock opened := by
  have hopened := hproper.opened h.opened
  obtain ⟨e, he, hnumber, -, hcontent⟩ := hopened.file
  rw [emit_of_openFile h]
  constructor
  · rintro ⟨f, hf, hline⟩
    -- a pruning that does not go through leaves the file as it was, so nothing new is found
    have hok : (j.pruning.prune refusals.deleting clock.pruned opened).2.isOk = true := by
      by_contra hfails
      dsimp only at hf
      rw [if_neg hfails] at hf
      have hsame := hopened.proper.find?_of_sublist Pruning.prune_sublist hf
      obtain rfl : e = f := Option.some.inj (he.symm.trans hsame)
      exact append_line_ne _ _ (hline.symm.trans hcontent)
    dsimp only at hf
    rw [if_pos hok] at hf
    obtain ⟨hcutoff, hdated⟩ := Pruning.isOk_prune_iff.1 hok
    refine ⟨hcutoff, hdated, fun e' he' hexpired => ?_⟩
    obtain rfl : e = e' := Option.some.inj (he.symm.trans he')
    rw [Directory.find?_append, Option.map_eq_some_iff] at hf
    obtain ⟨g, hg, -⟩ := hf
    rw [Pruning.prune_eq_unexpired hcutoff hdated, hopened.proper.find?_only, he,
      Option.filter_eq_some_iff] at hg
    obtain ⟨heq, hstays⟩ := hg
    obtain rfl := Option.some.inj heq
    exact absurd hexpired (by simpa using hstays)
  · rintro ⟨hcutoff, hdated, hspared⟩
    have hkept : (opened.only fun e =>
        !decide (Expired j.pruning refusals.deleting clock.pruned e)).find?
          (fileName clock.filed.date) = some e := by
      rw [hopened.proper.find?_only, he, Option.filter_some, if_pos (by simpa using hspared e he)]
    dsimp only
    rw [if_pos (Pruning.isOk_prune_iff.2 ⟨hcutoff, hdated⟩),
      Pruning.prune_eq_unexpired hcutoff hdated]
    refine ⟨{ e with
      content := e.content ++ (r.line clock.stamped m ++ [ofChar '\n'])
      modified := clock.changed }, ?_, ?_⟩
    · rw [Directory.find?_append, hkept, Option.map_some, if_pos hnumber]
    · rw [hcontent, List.append_assoc]

/-- A record whose day's file is open is written exactly if that file is still there. -/
lemma found_iff_of_isCurrent {h : Handle} (hm : r.message? = some m)
    (hcurrent : j.isCurrent clock.filed.date = true) (hfile : j.file = some h)
    (hopen : h.isOpen = true) :
    Found clock.filed.date (r.line clock.stamped m) dir (j.emit refusals clock r dir).2 ↔
      ∃ e, dir.find? (fileName clock.filed.date) = some e ∧ e.number = h.number := by
  have hwrite : (j.emit refusals clock r dir).2 =
      dir.append h.number clock.changed (r.line clock.stamped m ++ [ofChar '\n']) := by
    rw [emit_of_isCurrent hm hcurrent]
    simp only [Journal.write, hfile, hopen, if_true]
  rw [hwrite]
  constructor
  · rintro ⟨e, he, hline⟩
    rw [Directory.find?_append, Option.map_eq_some_iff] at he
    obtain ⟨f, hf, rfl⟩ := he
    refine ⟨f, hf, ?_⟩
    by_contra hother
    rw [if_neg hother, Directory.contentOf_of_find? hf] at hline
    exact append_line_ne _ _ hline.symm
  · rintro ⟨e, he, hnumber⟩
    rw [← hnumber]
    refine ⟨_, by rw [Directory.find?_append, he, Option.map_some, if_pos rfl], ?_⟩
    rw [Directory.contentOf_of_find? he, List.append_assoc]

/-- If pruning goes through, the file of the day is deleted exactly if it has expired. -/
lemma find?_emit_eq_none_iff (hproper : dir.Proper)
    (h : OpensFor j refusals clock r dir m number opened)
    (hcutoff : (j.pruning.cutoff clock.pruned).isOk = true)
    (hdated : ∀ e ∈ opened.entries, j.pruning.isCandidate e = true → e.modified.hasDate = true) :
    (j.emit refusals clock r dir).2.find? (fileName clock.filed.date) = none ↔
      ∃ e, opened.find? (fileName clock.filed.date) = some e ∧
        Expired j.pruning refusals.deleting clock.pruned e := by
  have hopened := hproper.opened h.opened
  obtain ⟨e, he, -⟩ := hopened.file
  rw [emit_of_openFile h]
  dsimp only
  rw [if_pos (Pruning.isOk_prune_iff.2 ⟨hcutoff, hdated⟩),
    Pruning.prune_eq_unexpired hcutoff hdated, Directory.find?_append, Option.map_eq_none_iff,
    hopened.proper.find?_only, he]
  simp

/-- What is there after the opening was there when the file was opened, up to contents. -/
lemma exists_mem_opened_of_mem_emit (h : OpensFor j refusals clock r dir m number opened)
    {e : FileEntry} (he : e ∈ (j.emit refusals clock r dir).2.entries) :
    ∃ d ∈ opened.entries, d.name = e.name ∧ d.number = e.number ∧ d.isDirectory = e.isDirectory := by
  rw [emit_of_openFile h] at he
  dsimp only at he
  split at he
  · obtain ⟨d, hd, hsame⟩ := Directory.exists_mem_of_mem_append he
    exact ⟨d, Pruning.prune_sublist.subset hd, hsame⟩
  · exact ⟨e, Pruning.prune_sublist.subset he, rfl, rfl, rfl⟩

/-- The file that was opened is the one of the day. -/
lemma own_of_mem_emit (hproper : dir.Proper)
    (h : OpensFor j refusals clock r dir m number opened)
    {e : FileEntry} (he : e ∈ (j.emit refusals clock r dir).2.entries) :
    (e.number = number ↔ e.name = fileName clock.filed.date) ∧
      (e.name = fileName clock.filed.date → e.isDirectory = false) := by
  have hopened := hproper.opened h.opened
  obtain ⟨f, hf, hnumber, hdirectory, -⟩ := hopened.file
  have hmem := Directory.mem_of_find? hf
  obtain ⟨d, hd, hname, hnumber', hdirectory'⟩ := exists_mem_opened_of_mem_emit h he
  have hsame : d.name = f.name → d = f := List.inj_on_of_nodup_map hopened.proper.names hd hmem
  rw [← hname, ← hnumber', ← hdirectory', ← hnumber, ← Directory.name_of_find? hf]
  refine ⟨⟨fun h => ?_, fun h => congrArg _ (hsame h)⟩, fun h => hsame h ▸ hdirectory⟩
  exact congrArg _ (List.inj_on_of_nodup_map hopened.proper.numbers hd hmem h)

end Opened

/-! ## Every call keeps the directory proper -/

namespace Site

variable {s : Site}

lemma proper_take (hproper : s.dir.Proper) (c : Call) : (s.take c).dir.Proper := by
  cases c with
  | close => exact hproper
  | emit refusals clock r =>
    cases hm : r.message? with
    | none => rwa [take_of_message?_eq_none (c := .emit refusals clock r) hm]
    | some m =>
      rw [take]
      cases hcurrent : s.journal.isCurrent clock.filed.date with
      | true =>
        rw [emit_of_isCurrent hm hcurrent]
        dsimp only [Journal.write]
        split
        · split
          · exact hproper.append _ _ _
          · exact hproper
        · exact hproper
      | false =>
        rcases unopenable_or_exists_openFile refusals clock s.dir with
          hfails | ⟨hpermitted, number, opened, hopen⟩
        · rwa [emit_of_unopenable hm hcurrent hfails]
        · have hpruned : (s.journal.pruning.prune refusals.deleting clock.pruned opened).1.Proper :=
            Pruning.proper_prune (hproper.opened hopen).proper
          rw [emit_of_openFile ⟨hm, hcurrent, hpermitted, hopen⟩]
          dsimp only
          split
          · exact hpruned.append _ _ _
          · exact hpruned

lemma proper_run (hproper : s.dir.Proper) (calls : List Call) : (s.run calls).dir.Proper := by
  induction calls generalizing s with
  | nil => exact hproper
  | cons c calls ih => exact ih (proper_take hproper c)

end Site

/-! ## The rest of a day -/

/-- A call for a record of a day; one whose message cannot be filled in counts for every day. -/
def Call.StaysOn (d : Date) : Call → Prop
  | .emit _ clock r => r.message?.isSome = true → clock.filed.date = d
  | .close => False

namespace Site

variable {s : Site} {d : Date}

/-- What is written to the file in use is lost, though the journal takes it for the one of the day:
it is closed, or it was deleted while it was open. -/
structure Mute (s : Site) (d : Date) : Prop where
  current : s.journal.isCurrent d = true
  lost : ∀ h, s.journal.file = some h → h.isOpen = true → ∀ e ∈ s.dir.entries, e.number ≠ h.number

lemma Mute.take_eq {c : Call} (hmute : s.Mute d) (hc : c.StaysOn d) : s.take c = s := by
  cases c with
  | close => exact hc.elim
  | emit refusals clock r =>
    rw [take]
    cases hm : r.message? with
    | none => rw [emit_of_message?_eq_none hm]
    | some m =>
      obtain rfl : clock.filed.date = d := hc (by rw [hm]; rfl)
      have hwrite : s.journal.write clock.changed (r.line clock.stamped m) s.dir = s.dir := by
        rw [Journal.write]
        split
        · next h hfile =>
          split
          · next hopen => exact Directory.append_eq_self (hmute.lost h hfile hopen) _ _
          · rfl
        · rfl
      rw [emit_of_isCurrent hm hmute.current, hwrite]

/-- The rest of the day is lost. -/
lemma Mute.run_eq {calls : List Call} (hmute : s.Mute d) (hcalls : ∀ c ∈ calls, c.StaysOn d) :
    s.run calls = s := by
  induction calls with
  | nil => rfl
  | cons c calls ih =>
    rw [run_cons, hmute.take_eq (hcalls c List.mem_cons_self)]
    exact ih fun c hc => hcalls c (List.mem_cons_of_mem _ hc)

/-- While the file of the day is in use its records are written to it. -/
lemma Sound.take_of_staysOn {c : Call} (hsound : s.Sound) (hcurrent : s.journal.isCurrent d = true)
    (hc : c.StaysOn d) : (s.take c).Sound ∧ (s.take c).journal = s.journal ∧
      (s.take c).dir.contentOf (fileName d) = s.dir.contentOf (fileName d) ++ c.addedTo d := by
  cases c with
  | close => exact hc.elim
  | emit refusals clock r =>
    cases hm : r.message? with
    | none =>
      have hsame : s.take (.emit refusals clock r) = s := by
        rw [Site.take, emit_of_message?_eq_none hm]
      rw [hsame, Call.addedTo, hm, List.append_nil]
      exact ⟨hsound, rfl, rfl⟩
    | some m =>
      obtain rfl : clock.filed.date = d := hc (by rw [hm]; rfl)
      have hok : s.Succeeds (.emit refusals clock r) := fun _ hnot => by
        rw [hcurrent] at hnot
        cases hnot
      obtain ⟨⟨⟨e, he, -, hcontent⟩, -⟩, hsound'⟩ := written_of_emit hsound hm hok
      refine ⟨hsound', ?_, ?_⟩
      · rw [Site.take, emit_of_isCurrent hm hcurrent]
      · rw [Call.addedTo, hm]
        dsimp only
        rw [if_pos rfl, ← List.append_assoc, ← hcontent]
        exact Directory.contentOf_of_find? he

lemma Sound.contentOf_run_of_staysOn {calls : List Call} (hsound : s.Sound)
    (hcurrent : s.journal.isCurrent d = true) (hcalls : ∀ c ∈ calls, c.StaysOn d) :
    (s.run calls).dir.contentOf (fileName d) =
      s.dir.contentOf (fileName d) ++ calls.flatMap (Call.addedTo d) := by
  induction calls generalizing s with
  | nil => exact (List.append_nil _).symm
  | cons c calls ih =>
    obtain ⟨hsound', hjournal, hcontent⟩ :=
      hsound.take_of_staysOn hcurrent (hcalls c List.mem_cons_self)
    rw [run_cons, ih hsound' (hjournal ▸ hcurrent) fun c hc => hcalls c (List.mem_cons_of_mem _ hc),
      hcontent, List.flatMap_cons, List.append_assoc]

section Opening

variable {refusals : Refusals} {clock : Readings} {r : Record} {m : Text} {number : Nat}
  {opened : Directory}

lemma journal_take_of_opensFor (h : OpensFor s.journal refusals clock r s.dir m number opened) :
    (s.take (.emit refusals clock r)).journal =
      { s.journal with today := some clock.filed.date, file := some { number := number } } := by
  rw [take, emit_of_openFile h]

lemma isCurrent_take_of_opensFor (h : OpensFor s.journal refusals clock r s.dir m number opened) :
    (s.take (.emit refusals clock r)).journal.isCurrent clock.filed.date = true := by
  rw [journal_take_of_opensFor h]
  simp [Journal.isCurrent]

/-- If pruning has deleted the file that was opened, nothing more is written on that day. -/
lemma mute_take_of_opensFor (hproper : s.dir.Proper)
    (h : OpensFor s.journal refusals clock r s.dir m number opened)
    (hgone : (s.take (.emit refusals clock r)).dir.find? (fileName clock.filed.date) = none) :
    (s.take (.emit refusals clock r)).Mute clock.filed.date := by
  refine ⟨isCurrent_take_of_opensFor h, fun handle hfile _ e he hnumber => ?_⟩
  rw [journal_take_of_opensFor h] at hfile
  obtain rfl := Option.some.inj hfile
  have hname := (own_of_mem_emit hproper h he).1.1 hnumber
  exact List.find?_eq_none.1 hgone e he (beq_iff_eq.2 hname)

/-- If pruning has spared the file that was opened, it is the one in use. -/
lemma sound_take_of_opensFor (hproper : s.dir.Proper)
    (h : OpensFor s.journal refusals clock r s.dir m number opened)
    (hkept : ((s.take (.emit refusals clock r)).dir.find? (fileName clock.filed.date)).isSome) :
    (s.take (.emit refusals clock r)).Sound := by
  obtain ⟨e, he⟩ := Option.isSome_iff_exists.1 hkept
  obtain ⟨hnumber, hdirectory⟩ := own_of_mem_emit hproper h (Directory.mem_of_find? he)
  have hname := Directory.name_of_find? he
  refine ⟨proper_take hproper _, fun handle hfile => ?_⟩
  rw [journal_take_of_opensFor h] at hfile ⊢
  obtain rfl := Option.some.inj hfile
  exact ⟨rfl, _, rfl, e, he, hnumber.2 hname, hdirectory hname⟩

end Opening

end Site

/-- What housekeeping costs when a record opens the file of its day. -/
structure CostsOfOpening (s : Site) (refusals : Refusals) (clock : Readings) (r : Record)
    (m : Text) (opened : Directory) : Prop where
  /-- The record is written exactly if housekeeping is harmless. -/
  found_iff : Found clock.filed.date (r.line clock.stamped m) s.dir
      (s.take (.emit refusals clock r)).dir ↔
    Harmless s.journal.pruning refusals clock opened
  /-- A pruning that goes through deletes the file exactly if it has expired. -/
  gone_iff : (s.journal.pruning.cutoff clock.pruned).isOk = true →
    (∀ e ∈ opened.entries, s.journal.pruning.isCandidate e = true → e.modified.hasDate = true) →
    ((s.take (.emit refusals clock r)).dir.find? (fileName clock.filed.date) = none ↔
      ∃ e, opened.find? (fileName clock.filed.date) = some e ∧
        Expired s.journal.pruning refusals.deleting clock.pruned e)
  /-- While the file is there, the further records of the day are written to it, one by one. -/
  kept : ((s.take (.emit refusals clock r)).dir.find? (fileName clock.filed.date)).isSome = true →
    ∀ calls : List Call, (∀ c ∈ calls, c.StaysOn clock.filed.date) →
      ((s.take (.emit refusals clock r)).run calls).dir.contentOf (fileName clock.filed.date) =
        (s.take (.emit refusals clock r)).dir.contentOf (fileName clock.filed.date) ++
          calls.flatMap (Call.addedTo clock.filed.date)
  /-- Once it is deleted, they are all lost. -/
  lost : (s.take (.emit refusals clock r)).dir.find? (fileName clock.filed.date) = none →
    ∀ calls : List Call, (∀ c ∈ calls, c.StaysOn clock.filed.date) →
      (s.take (.emit refusals clock r)).run calls = s.take (.emit refusals clock r)

/-- What housekeeping costs a record. -/
structure CostsOfHousekeeping (s : Site) (refusals : Refusals) (clock : Readings) (r : Record)
    (m : Text) : Prop where
  /-- A record that need not open a file costs nothing but what an earlier pruning has cost: it is
  written exactly if the file that is open has not been deleted. -/
  inUse : ∀ h, s.journal.isCurrent clock.filed.date = true → s.journal.file = some h →
    h.isOpen = true →
      (Found clock.filed.date (r.line clock.stamped m) s.dir
          (s.take (.emit refusals clock r)).dir ↔
        ∃ e, s.dir.find? (fileName clock.filed.date) = some e ∧ e.number = h.number)
  opening : ∀ number opened, OpensFor s.journal refusals clock r s.dir m number opened →
    CostsOfOpening s refusals clock r m opened

/-- In every run housekeeping costs the record that opens a file, the whole day, or nothing. -/
theorem housekeeping_costs (p : Pruning) (dir : Directory) (before : List Call)
    (refusals : Refusals) (clock : Readings) (r : Record) (m : Text) (hproper : dir.Proper)
    (hm : r.message? = some m) :
    CostsOfHousekeeping (Site.run ⟨{ pruning := p }, dir⟩ before) refusals clock r m := by
  have hproper := Site.proper_run (s := ⟨{ pruning := p }, dir⟩) hproper before
  refine ⟨fun h hcurrent hfile hopen => found_iff_of_isCurrent hm hcurrent hfile hopen,
    fun number opened h => ⟨found_iff_harmless hproper h, find?_emit_eq_none_iff hproper h,
      fun hkept calls hcalls => ?_, fun hgone calls hcalls => ?_⟩⟩
  · have hsound := Site.sound_take_of_opensFor hproper h hkept
    exact hsound.contentOf_run_of_staysOn (Site.isCurrent_take_of_opensFor h) hcalls
  · exact (Site.mute_take_of_opensFor hproper h hgone).run_eq hcalls

/-- A record of the day a month after the first midnight. -/
def lateRecord : Record := ⟨"nimlink.epc.peer", Level.warning, "bad %s", [.string "frame"], none⟩

/-- The clocks on that day. -/
def lateClock : Readings := (⟨30 * Moment.perDay⟩ : Moment)

/-- The file of that day as it comes back from an archive, with an old time. -/
def restoredFiles : Directory where
  entries := [⟨"1970-01-31.jsonl", false, ⟨0⟩, "old\n", 0⟩]
  nextNumber := 1

theorem housekeeping_costs_restored :
    restoredFiles.Proper ∧ lateRecord.message? = some "bad frame" ∧
      OpensFor {} {} lateClock lateRecord restoredFiles "bad frame" 0 restoredFiles ∧
      CostsOfHousekeeping ⟨{}, restoredFiles⟩ {} lateClock lateRecord "bad frame" := by
  have hfind : restoredFiles.find? (fileName lateClock.filed.date) =
      some ⟨"1970-01-31.jsonl", false, ⟨0⟩, "old\n", 0⟩ := by decide +kernel
  have hproper : restoredFiles.Proper := ⟨by decide, by decide, by decide⟩
  have hm : lateRecord.message? = some "bad frame" := by decide +kernel
  have hopens : OpensFor {} {} lateClock lateRecord restoredFiles "bad frame" 0 restoredFiles :=
    ⟨hm, rfl, rfl, by rw [Directory.openFile, hfind]; rfl⟩
  exact ⟨hproper, hm, hopens,
    housekeeping_costs {} restoredFiles [] {} lateClock lateRecord "bad frame" hproper hm⟩

/-- Records are lost though their file can be opened: to a time to keep logs that has no cutoff, to
a log that was changed outside the calendar, and to the old time of the file itself. -/
theorem housekeeping_loses_records :
    let undated : Directory := ⟨[⟨"old.jsonl", false, ⟨3000000 * Moment.perDay⟩, [], 0⟩], 1⟩
    ∀ s ∈ ([⟨{ pruning := { retentionDays := 1000000000 } }, {}⟩, ⟨{}, undated⟩,
        ⟨{}, restoredFiles⟩] : List Site),
      1 ≤ s.journal.pruning.retentionDays ∧ s.dir.Proper ∧
        ¬Unopenable {} lateClock.filed.date s.dir ∧ lateRecord.message? = some "bad frame" ∧
        ¬Found lateClock.filed.date (lateRecord.line lateClock.stamped "bad frame") s.dir
          (s.take (.emit {} lateClock lateRecord)).dir := by
  intro undated
  have hmessage : lateRecord.message? = some "bad frame" := by decide +kernel
  simp only [List.forall_mem_cons, List.not_mem_nil, false_imp_iff, implies_true, and_true]
  refine ⟨?_, ?_, ?_⟩ <;>
    exact ⟨by decide, ⟨by decide, by decide, by decide⟩, by decide +kernel, hmessage,
      by decide +kernel⟩

end SuggestBridge.Log
