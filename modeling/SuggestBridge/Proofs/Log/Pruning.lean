import SuggestBridge.Proofs.Log.Directory
import SuggestBridge.Proofs.Result

/-!
# What pruning deletes

Pruning goes through the entries one by one, and whatever happens it only takes entries away
(`prune_sublist`).  It goes through to the end if the cutoff is a date and every log that it looks
at was changed on one (`isOk_prune_iff`).

Then it deletes the expired logs and nothing else.  Whether a log has expired (`Expired`) can be
told from the log alone, so the order of the entries does not matter, a second pruning at the same
time finds nothing left to do, and whoever keeps logs for longer deletes fewer of them
(`prune_deletes_expired`).
-/

namespace SuggestBridge.Log.Pruning

variable {p : Pruning} {refuses : Text → Bool} {now cutoff : Moment} {dir : Directory}
  {es : List FileEntry}

/-! ## Pruning in general -/

lemma sweep_sublist : (p.sweep refuses cutoff es).1.Sublist es := by
  induction es with
  | nil => exact List.Sublist.refl []
  | cons e es ih =>
    rw [sweep]
    split
    · exact ih.cons_cons e
    · split
      · exact List.Sublist.refl _
      · split
        · exact ih.cons e
        · exact ih.cons_cons e

lemma isOk_sweep_cons (e : FileEntry) : (p.sweep refuses cutoff (e :: es)).2.isOk =
    ((!p.isCandidate e || e.modified.hasDate) && (p.sweep refuses cutoff es).2.isOk) := by
  rw [sweep]
  cases p.isCandidate e with
  | false => rfl
  | true =>
    cases e.modified.hasDate with
    | false => rfl
    | true =>
      cases e.modified.isBefore cutoff && !refuses e.name with
      | false => rfl
      | true =>
        cases h : (p.sweep refuses cutoff es).2 <;>
          simp [h, Except.map, Except.isOk, Except.toBool]

/-- A sweep ends early at the first log without a date. -/
lemma isOk_sweep_iff : (p.sweep refuses cutoff es).2.isOk = true ↔
    ∀ e ∈ es, p.isCandidate e = true → e.modified.hasDate = true := by
  induction es with
  | nil => exact iff_of_true rfl fun e he => absurd he List.not_mem_nil
  | cons e es ih =>
    rw [isOk_sweep_cons, Bool.and_eq_true, ih, List.forall_mem_cons]
    refine and_congr_left fun _ => ?_
    cases p.isCandidate e <;> simp

lemma prune_eq_error {e : ClockError} (h : p.cutoff now = .error e) :
    p.prune refuses now dir = (dir, .error e) := by
  rw [prune, h]

lemma prune_of_cutoff (h : p.cutoff now = .ok cutoff) : p.prune refuses now dir =
    ({ dir with entries := (p.sweep refuses cutoff dir.entries).1 },
      (p.sweep refuses cutoff dir.entries).2) := by
  rw [prune, h]

/-- Whatever happens, pruning takes entries away and does nothing else. -/
lemma prune_sublist : (p.prune refuses now dir).1.entries.Sublist dir.entries := by
  cases h : p.cutoff now with
  | error e => rw [prune_eq_error h]
  | ok cutoff =>
    rw [prune_of_cutoff h]
    exact sweep_sublist

lemma nextNumber_prune : (p.prune refuses now dir).1.nextNumber = dir.nextNumber := by
  cases h : p.cutoff now with
  | error e => rw [prune_eq_error h]
  | ok cutoff => rw [prune_of_cutoff h]

lemma proper_prune (hproper : dir.Proper) : (p.prune refuses now dir).1.Proper :=
  hproper.of_sublist prune_sublist nextNumber_prune

lemma isOk_prune_iff : (p.prune refuses now dir).2.isOk = true ↔
    (p.cutoff now).isOk = true ∧
      ∀ e ∈ dir.entries, p.isCandidate e = true → e.modified.hasDate = true := by
  cases h : p.cutoff now with
  | error e =>
    rw [prune_eq_error h]
    exact iff_of_false Bool.false_ne_true fun h => Bool.false_ne_true h.1
  | ok cutoff =>
    rw [prune_of_cutoff h, isOk_sweep_iff]
    exact (and_iff_right rfl).symm

/-! ## Expired logs -/

/-- A log has expired if it is a regular file whose name has the suffix and that was last changed
before the time that logs are kept, unless the system refuses its deletion. -/
@[mk_iff]
structure Expired (p : Pruning) (refuses : Text → Bool) (now : Moment) (e : FileEntry) : Prop where
  regular : e.isDirectory = false
  suffixed : p.suffix <:+ e.name
  past : e.modified.microseconds < now.microseconds - p.retentionDays * Moment.perDay
  deletable : refuses e.name = false

instance : DecidablePred (Expired p refuses now) := fun e =>
  decidable_of_iff' _ (expired_iff p refuses now e)

lemma cutoff_eq (h : p.cutoff now = .ok cutoff) : cutoff = now.daysBefore p.retentionDays := by
  rw [Pruning.cutoff] at h
  split at h
  · cases h
  · dsimp only at h
    split at h
    · exact (Except.ok.inj h).symm
    · cases h

lemma isOverdue_eq_decide (h : p.cutoff now = .ok cutoff) (e : FileEntry) :
    p.isOverdue refuses cutoff e = decide (Expired p refuses now e) := by
  have hsuffix : Text.endsWith e.name p.suffix = decide (p.suffix <:+ e.name) := by
    rw [Text.endsWith, Bool.eq_iff_iff, List.isPrefixOf_iff_prefix, List.reverse_prefix,
      decide_eq_true_iff]
  have hbefore : e.modified.isBefore cutoff =
      decide (e.modified.microseconds < now.microseconds - p.retentionDays * Moment.perDay) := by
    rw [cutoff_eq h]
    rfl
  rw [Bool.eq_iff_iff, decide_eq_true_iff, expired_iff, isOverdue, isCandidate, hsuffix, hbefore]
  simp only [Bool.and_eq_true, Bool.not_eq_true', decide_eq_true_iff, and_assoc]

/-- A pruning that goes through deletes the expired logs and counts them. -/
lemma prune_eq_unexpired (hcutoff : (p.cutoff now).isOk = true)
    (hdated : ∀ e ∈ dir.entries, p.isCandidate e = true → e.modified.hasDate = true) :
    p.prune refuses now dir = (dir.only fun e => !decide (Expired p refuses now e),
      .ok (dir.entries.countP fun e => decide (Expired p refuses now e))) := by
  obtain ⟨cutoff, hcutoff⟩ := Result.exists_eq_ok_of_isOk hcutoff
  have hoverdue : p.isOverdue refuses cutoff = fun e => decide (Expired p refuses now e) :=
    funext (isOverdue_eq_decide hcutoff)
  rw [prune_eq hcutoff hdated, hoverdue]

/-- Who keeps logs for longer, or is refused more deletions, has fewer expired logs. -/
lemma Expired.of_longer {p' : Pruning} {refuses' : Text → Bool} {e : FileEntry}
    (h : Expired p' refuses' now e) (hsuffix : p'.suffix = p.suffix)
    (hdays : p.retentionDays ≤ p'.retentionDays)
    (hrefuses : ∀ name, refuses name = true → refuses' name = true) : Expired p refuses now e where
  regular := h.regular
  suffixed := hsuffix ▸ h.suffixed
  past := by
    have hspan := Int.mul_le_mul_of_nonneg_right hdays (Int.natCast_nonneg Moment.perDay)
    have hpast := h.past
    omega
  deletable := by
    cases hname : refuses e.name with
    | false => rfl
    | true => exact absurd h.deletable (by simp [hrefuses _ hname])

/-- What a pruning of a directory does. -/
structure PrunesExpired (p : Pruning) (refuses : Text → Bool) (now : Moment) (dir : Directory) :
    Prop where
  /-- The expired logs are deleted and counted; everything else stays as it was. -/
  exact : p.prune refuses now dir =
    ({ dir with entries := dir.entries.filter fun e => !decide (Expired p refuses now e) },
      .ok (dir.entries.countP fun e => decide (Expired p refuses now e)))
  /-- In whatever order the entries are listed, the same ones are deleted. -/
  order : ∀ listed : List FileEntry, listed.Perm dir.entries →
    ∃ left : List FileEntry, left.Perm (p.prune refuses now dir).1.entries ∧
      p.prune refuses now { dir with entries := listed } =
        ({ dir with entries := left }, (p.prune refuses now dir).2)
  /-- A second pruning at the same time deletes nothing, unless a deletion that was refused is not
  refused again. -/
  again : ∀ refuses' : Text → Bool, (∀ name, refuses name = true → refuses' name = true) →
    p.prune refuses' now (p.prune refuses now dir).1 = ((p.prune refuses now dir).1, .ok 0)
  /-- What is deleted by who keeps logs for longer is deleted by who keeps them for less long. -/
  longer : ∀ p' : Pruning, p'.suffix = p.suffix → p.retentionDays ≤ p'.retentionDays →
    (p'.cutoff now).isOk = true → ∀ e ∈ dir.entries,
      e ∉ (p'.prune refuses now dir).1.entries → e ∉ (p.prune refuses now dir).1.entries

/-- Pruning deletes exactly the expired logs. -/
theorem prune_deletes_expired (p : Pruning) (refuses : Text → Bool) (now : Moment) (dir : Directory)
    (hcutoff : (p.cutoff now).isOk = true)
    (hdated : ∀ e ∈ dir.entries, p.isCandidate e = true → e.modified.hasDate = true) :
    PrunesExpired p refuses now dir := by
  have hprune : p.prune refuses now dir = _ := prune_eq_unexpired hcutoff hdated
  have hleft : ∀ e, e ∈ (p.prune refuses now dir).1.entries ↔
      e ∈ dir.entries ∧ ¬Expired p refuses now e := by
    intro e
    simp [hprune, Directory.only]
  refine ⟨hprune, fun listed hlisted => ?_, fun refuses' hrefuses => ?_,
    fun p' hsuffix hdays hcutoff' e he hgone => ?_⟩
  · have hlistedDated : ∀ e ∈ listed, p.isCandidate e = true → e.modified.hasDate = true :=
      fun e he => hdated e (hlisted.mem_iff.1 he)
    have hpruneListed : p.prune refuses now { dir with entries := listed } = _ :=
      prune_eq_unexpired hcutoff hlistedDated
    refine ⟨listed.filter fun e => !decide (Expired p refuses now e), ?_, ?_⟩
    · rw [hprune]
      exact hlisted.filter _
    · rw [hpruneListed, hprune, hlisted.countP_eq]
      rfl
  · have hnone : ∀ e ∈ (p.prune refuses now dir).1.entries, ¬Expired p refuses' now e :=
      fun e he hexpired => ((hleft e).1 he).2 (hexpired.of_longer rfl (Int.le_refl _) hrefuses)
    have hleftDated : ∀ e ∈ (p.prune refuses now dir).1.entries,
        p.isCandidate e = true → e.modified.hasDate = true :=
      fun e he => hdated e ((hleft e).1 he).1
    rw [prune_eq_unexpired hcutoff hleftDated, List.countP_eq_zero.2 (by simpa using hnone),
      Directory.only, List.filter_eq_self.2 (by simpa using hnone)]
  · have hcandidate : p'.isCandidate = p.isCandidate := by
      funext e
      rw [isCandidate, isCandidate, hsuffix]
    have hexpired : Expired p' refuses now e := by
      rw [prune_eq_unexpired hcutoff' (hcandidate ▸ hdated)] at hgone
      simpa [Directory.only, he] using hgone
    exact fun hstays => ((hleft e).1 hstays).2 (hexpired.of_longer hsuffix hdays fun _ h => h)

/-- Files a month after the first midnight: two old logs, one changed exactly at the cutoff, an old
directory with the name of a log, and an old file that is no log. -/
def monthOfFiles : Directory where
  entries :=
    [⟨"1970-01-01.jsonl", false, ⟨0⟩, "old\n", 0⟩, ⟨"1970-01-02.jsonl", false, ⟨1⟩, "kept\n", 1⟩,
      ⟨"1970-01-24.jsonl", false, ⟨23 * Moment.perDay⟩, [], 2⟩, ⟨"older.jsonl", true, ⟨0⟩, [], 3⟩,
      ⟨"notes.txt", false, ⟨-1⟩, "old\n", 4⟩]
  nextNumber := 5

theorem prune_deletes_expired_month :
    let refuses : Text → Bool := fun name => name == Text.ofString "1970-01-02.jsonl"
    let now : Moment := ⟨30 * Moment.perDay⟩
    (({} : Pruning).cutoff now).isOk = true ∧
      (∀ e ∈ monthOfFiles.entries,
        ({} : Pruning).isCandidate e = true → e.modified.hasDate = true) ∧
      PrunesExpired {} refuses now monthOfFiles := by
  intro refuses now
  have hcutoff : (({} : Pruning).cutoff now).isOk = true := by decide
  have hdated : ∀ e ∈ monthOfFiles.entries,
      ({} : Pruning).isCandidate e = true → e.modified.hasDate = true := by decide +kernel
  exact ⟨hcutoff, hdated, prune_deletes_expired {} refuses now monthOfFiles hcutoff hdated⟩

end SuggestBridge.Log.Pruning
