import SuggestBridge.Log.Directory
import Mathlib.Data.List.Basic
import Mathlib.Data.List.Nodup

/-!
# What happens to the files of the log

In a proper directory a name belongs to one entry and so does a number (`Directory.Proper`), and
what happens to the directory keeps it so.  Each operation is described by what `find?` gives
afterwards: opening adds an empty file at most, appending changes the one file of a number, and a
pruning that goes through takes away the overdue files and leaves the others as they are
(`prune_eq`).
-/

namespace SuggestBridge.Log

namespace Directory

variable {dir : Directory} {name other : Text} {e : FileEntry}

/-- Every name and every number is that of one entry, and the next number is free. -/
structure Proper (dir : Directory) : Prop where
  names : (dir.entries.map FileEntry.name).Nodup
  numbers : (dir.entries.map FileEntry.number).Nodup
  fresh : ∀ e ∈ dir.entries, e.number < dir.nextNumber

/-- The content of the file of a name; empty where there is none. -/
def contentOf (dir : Directory) (name : Text) : Text :=
  ((dir.find? name).map FileEntry.content).getD []

lemma contentOf_of_find? (h : dir.find? name = some e) : dir.contentOf name = e.content := by
  rw [contentOf, h]
  rfl

lemma name_of_find? (h : dir.find? name = some e) : e.name = name := by
  simpa using List.find?_some h

lemma mem_of_find? (h : dir.find? name = some e) : e ∈ dir.entries := List.mem_of_find?_eq_some h

lemma Proper.find?_of_mem (hp : dir.Proper) (he : e ∈ dir.entries) : dir.find? e.name = some e := by
  cases h : dir.find? e.name with
  | none => exact absurd (List.find?_eq_none.1 h e he) (by simp)
  | some d =>
    have hd := List.inj_on_of_nodup_map hp.names (mem_of_find? h) he (name_of_find? h)
    rw [hd]

/-- Files of one number have one name. -/
lemma Proper.name_eq (hp : dir.Proper) {d : FileEntry} (hd : dir.find? name = some d)
    (he : dir.find? other = some e) (h : d.number = e.number) : name = other := by
  have hde := List.inj_on_of_nodup_map hp.numbers (mem_of_find? hd) (mem_of_find? he) h
  rw [← name_of_find? hd, ← name_of_find? he, hde]

/-! ## Opening -/

lemma find?_add (isDirectory : Bool) (now : Moment) (t : Text) (h : dir.find? name = none) :
    (dir.add name isDirectory now t).find? other =
      if other = name then some ⟨name, isDirectory, now, t, dir.nextNumber⟩
      else dir.find? other := by
  rw [find?, add, List.find?_append]
  by_cases ho : other = name
  · subst ho
    rw [← find?, h, if_pos rfl]
    simp
  · rw [if_neg ho, ← find?]
    simp [Ne.symm ho]

lemma Proper.add (hp : dir.Proper) (isDirectory : Bool) (now : Moment) (t : Text)
    (h : dir.find? name = none) : (dir.add name isDirectory now t).Proper := by
  have hname : name ∉ dir.entries.map FileEntry.name := by
    rintro hmem
    obtain ⟨e, he, rfl⟩ := List.mem_map.1 hmem
    rw [hp.find?_of_mem he] at h
    cases h
  have hnumber : dir.nextNumber ∉ dir.entries.map FileEntry.number := by
    rintro hmem
    obtain ⟨e, he, hn⟩ := List.mem_map.1 hmem
    exact absurd (hp.fresh e he) (by omega)
  refine ⟨?_, ?_, fun e he => ?_⟩
  · rw [Directory.add, List.map_append, List.map_singleton]
    exact hp.names.append (List.nodup_singleton _) (by simpa using hname)
  · rw [Directory.add, List.map_append, List.map_singleton]
    exact hp.numbers.append (List.nodup_singleton _) (by simpa using hnumber)
  · rcases List.mem_append.1 he with he | he
    · exact Nat.lt_succ_of_lt (hp.fresh e he)
    · rw [List.mem_singleton.1 he]
      exact Nat.lt_succ_self _

/-- What the opening of a file gives: a directory in which the file of the name has the number. -/
structure Opened (name : Text) (now : Moment) (dir : Directory) (number : Nat)
    (opened : Directory) : Prop where
  proper : opened.Proper
  file : ∃ e, opened.find? name = some e ∧ e.number = number ∧ e.isDirectory = false ∧
    e.content = dir.contentOf name
  elsewhere : ∀ {other : Text}, other ≠ name → opened.find? other = dir.find? other
  modified : ∀ e ∈ opened.entries, e ∈ dir.entries ∨ e.modified = now

/-- A file that is no directory is opened, and made where there is none. -/
lemma exists_openFile (hp : dir.Proper) (now : Moment)
    (h : ∀ e, dir.find? name = some e → e.isDirectory = false) :
    ∃ number opened, dir.openFile now name = some (number, opened) ∧
      Opened name now dir number opened := by
  rw [openFile]
  cases hfind : dir.find? name with
  | some e =>
    have hfile := h e hfind
    refine ⟨e.number, dir, by simp [hfile], ⟨hp, ?_, fun _ => rfl, fun _ he => .inl he⟩⟩
    exact ⟨e, hfind, rfl, hfile, (contentOf_of_find? hfind).symm⟩
  | none =>
    refine ⟨dir.nextNumber, dir.add name false now [], rfl, ⟨hp.add false now [] hfind, ?_, ?_, ?_⟩⟩
    · refine ⟨⟨name, false, now, [], dir.nextNumber⟩, ?_, rfl, rfl, ?_⟩
      · rw [find?_add false now [] hfind, if_pos rfl]
      · rw [contentOf, hfind]
        rfl
    · intro other ho
      rw [find?_add false now [] hfind, if_neg ho]
    · intro e he
      rcases List.mem_append.1 he with he | he
      · exact .inl he
      · exact .inr (by rw [List.mem_singleton.1 he])

/-- What opening gives is told by the number and the directory that it gives. -/
lemma Proper.opened {now : Moment} {number : Nat} {opened : Directory} (hp : dir.Proper)
    (h : dir.openFile now name = some (number, opened)) : Opened name now dir number opened := by
  have hfile : ∀ e, dir.find? name = some e → e.isDirectory = false := by
    intro e he
    rw [openFile, he] at h
    cases hdirectory : e.isDirectory with
    | false => rfl
    | true => simp [hdirectory] at h
  obtain ⟨number', opened', hopen, hopened⟩ := exists_openFile hp now hfile
  rw [h] at hopen
  obtain ⟨rfl, rfl⟩ := Prod.mk.inj (Option.some.inj hopen)
  exact hopened

/-! ## Appending -/

lemma find?_append (number : Nat) (now : Moment) (t : Text) :
    (dir.append number now t).find? name = (dir.find? name).map fun e =>
      if e.number = number then { e with content := e.content ++ t, modified := now } else e := by
  rw [find?, append, List.find?_map]
  congr 2
  funext e
  by_cases h : e.number = number <;> simp [h]

lemma Proper.append (hp : dir.Proper) (number : Nat) (now : Moment) (t : Text) :
    (dir.append number now t).Proper := by
  have hnames : (dir.append number now t).entries.map FileEntry.name =
      dir.entries.map FileEntry.name := by
    rw [Directory.append, List.map_map]
    refine List.map_congr_left fun e _ => ?_
    by_cases h : e.number = number <;> simp [h]
  have hnumbers : (dir.append number now t).entries.map FileEntry.number =
      dir.entries.map FileEntry.number := by
    rw [Directory.append, List.map_map]
    refine List.map_congr_left fun e _ => ?_
    by_cases h : e.number = number <;> simp [h]
  refine ⟨hnames ▸ hp.names, hnumbers ▸ hp.numbers, fun e he => ?_⟩
  have hmem := List.mem_map_of_mem (f := FileEntry.number) he
  rw [hnumbers] at hmem
  obtain ⟨d, hd, hde⟩ := List.mem_map.1 hmem
  exact hde ▸ hp.fresh d hd

/-- Appending changes contents and times only. -/
lemma exists_mem_of_mem_append {number : Nat} {now : Moment} {t : Text}
    (h : e ∈ (dir.append number now t).entries) :
    ∃ d ∈ dir.entries, d.name = e.name ∧ d.number = e.number ∧ d.isDirectory = e.isDirectory := by
  obtain ⟨d, hd, rfl⟩ := List.mem_map.1 h
  refine ⟨d, hd, ?_⟩
  by_cases hnumber : d.number = number <;> simp [hnumber]

/-- What is appended to a file that is gone is lost. -/
lemma append_eq_self {number : Nat} (h : ∀ e ∈ dir.entries, e.number ≠ number) (now : Moment)
    (t : Text) : dir.append number now t = dir := by
  have hsame : (dir.entries.map fun e =>
      if e.number = number then { e with content := e.content ++ t, modified := now } else e) =
      dir.entries.map id := List.map_congr_left fun e he => if_neg (h e he)
  rw [append, hsame, List.map_id]

/-- What is appended to the file of a name stands at its end. -/
lemma contentOf_append (h : dir.find? name = some e) (now : Moment) (t : Text) :
    (dir.append e.number now t).contentOf name = dir.contentOf name ++ t := by
  rw [contentOf, find?_append, contentOf_of_find? h, h]
  simp

/-- What is appended to the file of a name goes to no other file. -/
lemma Proper.find?_append_of_ne (hp : dir.Proper) (h : dir.find? name = some e) (now : Moment)
    (t : Text) (ho : other ≠ name) : (dir.append e.number now t).find? other = dir.find? other := by
  rw [find?_append]
  cases hd : dir.find? other with
  | none => rfl
  | some d =>
    have hne : d.number ≠ e.number := fun hde => ho (hp.name_eq hd h hde)
    rw [Option.map_some, if_neg hne]

/-! ## Deleting -/

/-- Taking entries away keeps a directory proper. -/
lemma Proper.of_sublist {after : Directory} (hp : dir.Proper)
    (h : after.entries.Sublist dir.entries) (hnumber : after.nextNumber = dir.nextNumber) :
    after.Proper where
  names := hp.names.sublist (h.map _)
  numbers := hp.numbers.sublist (h.map _)
  fresh e he := hnumber ▸ hp.fresh e (h.subset he)

/-- What is found when entries were taken away was there before. -/
lemma Proper.find?_of_sublist {after : Directory} (hp : dir.Proper)
    (h : after.entries.Sublist dir.entries) (he : after.find? name = some e) :
    dir.find? name = some e := by
  rw [← name_of_find? he]
  exact hp.find?_of_mem (h.subset (mem_of_find? he))

/-- The directory with some of its entries. -/
def only (dir : Directory) (p : FileEntry → Bool) : Directory :=
  { dir with entries := dir.entries.filter p }

lemma Proper.only (hp : dir.Proper) (p : FileEntry → Bool) : (dir.only p).Proper where
  names := hp.names.sublist (List.filter_sublist.map _)
  numbers := hp.numbers.sublist (List.filter_sublist.map _)
  fresh e he := hp.fresh e (List.mem_of_mem_filter he)

/-- The file of a name is still there if it is one of those that stay. -/
lemma Proper.find?_only (hp : dir.Proper) (p : FileEntry → Bool) :
    (dir.only p).find? name = (dir.find? name).filter p := by
  cases h : dir.find? name with
  | none =>
    exact List.find?_eq_none.2 fun e he => List.find?_eq_none.1 h e (List.mem_of_mem_filter he)
  | some e =>
    have he := mem_of_find? h
    cases hkeep : p e with
    | true =>
      have hstays := (hp.only p).find?_of_mem (List.mem_filter.2 ⟨he, hkeep⟩)
      rw [name_of_find? h] at hstays
      rw [hstays, Option.filter_some, if_pos hkeep]
    | false =>
      rw [Option.filter_some, if_neg (by simp [hkeep])]
      refine List.find?_eq_none.2 fun d hd hname => ?_
      obtain ⟨hd, hpd⟩ := List.mem_filter.1 hd
      have hde : d = e := List.inj_on_of_nodup_map hp.names hd he
        ((beq_iff_eq.1 hname).trans (name_of_find? h).symm)
      rw [hde, hkeep] at hpd
      cases hpd

end Directory

namespace Pruning

variable {p : Pruning} {refuses : Text → Bool} {cutoff : Moment}

/-- Whether a file was last changed before the cutoff and can be deleted. -/
def isOverdue (p : Pruning) (refuses : Text → Bool) (cutoff : Moment) (e : FileEntry) : Bool :=
  p.isCandidate e && (e.modified.isBefore cutoff && !refuses e.name)

/-- If every file that is looked at has a date, the overdue ones are deleted and all others stay. -/
lemma sweep_eq {es : List FileEntry}
    (h : ∀ e ∈ es, p.isCandidate e = true → e.modified.hasDate = true) :
    p.sweep refuses cutoff es =
      (es.filter fun e => !p.isOverdue refuses cutoff e,
        .ok (es.countP (p.isOverdue refuses cutoff))) := by
  induction es with
  | nil => rfl
  | cons e es ih =>
    have ih := ih fun e he => h e (List.mem_cons_of_mem _ he)
    rw [sweep, ih]
    cases hcandidate : p.isCandidate e with
    | false =>
      have hstays : p.isOverdue refuses cutoff e = false := by simp [isOverdue, hcandidate]
      simp [hstays]
    | true =>
      have hdated := h e List.mem_cons_self hcandidate
      have hoverdue : p.isOverdue refuses cutoff e =
          (e.modified.isBefore cutoff && !refuses e.name) := by simp [isOverdue, hcandidate]
      rw [← hoverdue]
      cases hgoes : p.isOverdue refuses cutoff e with
      | false => simp [hdated, hgoes]
      | true => simp [hdated, hgoes, Except.map]

/-- A pruning that goes through deletes the overdue files and counts them. -/
lemma prune_eq {now : Moment} {dir : Directory} (hcutoff : p.cutoff now = .ok cutoff)
    (h : ∀ e ∈ dir.entries, p.isCandidate e = true → e.modified.hasDate = true) :
    p.prune refuses now dir = (dir.only fun e => !p.isOverdue refuses cutoff e,
      .ok (dir.entries.countP (p.isOverdue refuses cutoff))) := by
  rw [prune, hcutoff]
  simp only [sweep_eq h, Directory.only]

end Pruning

end SuggestBridge.Log
