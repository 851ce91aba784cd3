import SuggestBridge.Proofs.Task.Acting
import SuggestBridge.Task.Deadline

/-!
# Deadlines and a plan

A wait with a deadline concerns the task that is waited for, which is asked to cancel when the time is
over, and a future of its own.  The plan says nothing about either.
-/

namespace SuggestBridge.Task

/-- The task that is waited for. -/
def Deadline.task : Deadline → Id
  | .waiting task _ _ | .cancelling task _ _ _ => task

namespace Kernel

variable {ρ κ ν ε τ : Type} {k k' : Kernel ρ κ ν ε} {p p' : Plan τ} {quiet : ρ → Prop} {x : Id}

/-- A future that has been made and that the plan says nothing about. -/
def Knows (k : Kernel ρ κ ν ε) (p : Plan τ) (x : Id) : Prop := x < k.futures.size ∧ p.Free x

lemma Loose.knows (h : k.Loose p x) : k.Knows p x := ⟨h.1, h.2.2⟩

lemma Knows.extends (h : k.Knows p x) (hwide : k.Widens k') (hp : p.Extends p' k.futures.size) :
    k'.Knows p' x := ⟨Nat.lt_of_lt_of_le h.1 hwide.size, hp.free h.1 h.2⟩

lemma Knows.widens (h : k.Knows p x) (hwide : k.Widens k') : k'.Knows p x := h.extends hwide (.refl p _)

/-- A new future is loose. -/
lemma Follows.loose_add (h : k.Follows p) {F : Future ρ κ ν ε} (hF : F.activity = none) :
    (k.add F).1.Loose p k.futures.size := by
  refine ⟨by rw [size_add]; exact Nat.lt_succ_self _, ?_, h.free_size⟩
  rw [activity?_add, if_pos rfl, hF]

lemma Act.fresh : Act p quiet k k.fresh.1 := .add rfl rfl rfl (by simp)

lemma Follows.knows_spawn (h : k.Follows p) {b : ρ} : (k.spawn b).1.Knows p k.futures.size :=
  ⟨by rw [size_spawn]; exact Nat.lt_succ_self _, h.free_size⟩

/-- A watcher that settles a loose future. -/
lemma Loose.aims (h : k.Loose p x) {w : Watcher κ} {g : Id} (hw : w.target? = some x) :
    k.Aims p w g := by
  intro y hy
  rw [hw] at hy
  cases hy
  exact .inl h

/-- A step of a wait with a deadline goes on to wait for what is known. -/
def WaitsWell (k : Kernel ρ κ ν ε) (p : Plan τ) (step : Deadline.Step ν ε) : Prop :=
  ∀ d f, step = .waits d f → k.Knows p f ∧ k.Knows p d.task

lemma waitsWell_ends {e : Deadline.Ending ν ε} : k.WaitsWell p (.ends e) := nofun

lemma acts_abandon (hf : k.Follows p) {task : Id} (htask : k.Knows p task) (timer : Option Nat)
    (interrupted : Bool) :
    Acts p quiet k (Deadline.abandon k task timer interrupted).1 ∧
      (Deadline.abandon k task timer interrupted).1.WaitsWell p
        (Deadline.abandon k task timer interrupted).2 := by
  have hloose : k.fresh.1.Loose p k.futures.size := hf.loose_add rfl
  have hwatch : Acts p quiet k (k.fresh.1.watch task (.release k.futures.size)) :=
    .tail (.single .fresh) (.watch rfl (hloose.aims rfl))
  have hacts : Acts p quiet k (Deadline.abandon k task timer interrupted).1 :=
    .tail hwatch (.cancel htask.2)
  refine ⟨hacts, ?_⟩
  rintro d f ⟨⟩
  have hsize : k.fresh.1.futures.size =
      (Deadline.abandon k task timer interrupted).1.futures.size := by
    rw [Deadline.abandon]
    dsimp only
    rw [size_cancel, size_watch]
  have hwaiter : (Deadline.abandon k task timer interrupted).1.Knows p k.futures.size :=
    ⟨Nat.lt_of_lt_of_eq hloose.1 hsize, hloose.2.2⟩
  exact ⟨hwaiter, htask.widens (Acts.grows hacts).toWidens⟩

lemma acts_beginWait (hf : k.Follows p) (timeout : Float) {b : ρ} (hb : quiet b) :
    Acts p quiet k (Deadline.begin k timeout b).1 ∧
      (Deadline.begin k timeout b).1.WaitsWell p (Deadline.begin k timeout b).2 := by
  unfold Deadline.begin
  split
  · have hspawn : Acts p quiet k (k.spawn b).1 := .single (.spawn hb)
    obtain ⟨hacts, hwaits⟩ := acts_abandon (hf.spawn b) hf.knows_spawn none false
    exact ⟨hspawn.trans hacts, hwaits⟩
  · have hloose : k.fresh.1.Loose p k.futures.size := hf.loose_add rfl
    have harmed : Acts p quiet k (k.fresh.1.after timeout (.complete k.futures.size)).1 :=
      .tail (.single .fresh) (.after timeout hloose)
    have hloose₁ : (k.fresh.1.after timeout (.complete k.futures.size)).1.Loose p k.futures.size :=
      hloose
    dsimp only [fresh, add] at harmed hloose₁ ⊢
    generalize (after { k with futures := k.futures.push {} } timeout _).1 = k₁ at harmed hloose₁ ⊢
    have hf₁ := Acts.follows harmed hf
    have hspawn : Act p quiet k₁ (k₁.spawn b).1 := .spawn hb
    have hloose₂ := hspawn.grows.toWidens.loose (.refl p _) hloose₁
    have hwatch : Act p quiet (k₁.spawn b).1
        ((k₁.spawn b).1.watch k₁.futures.size (.release k.futures.size)) :=
      .watch rfl (hloose₂.aims rfl)
    refine ⟨(harmed.tail hspawn).tail hwatch, ?_⟩
    rintro d f ⟨⟩
    have hwide := hwatch.grows.toWidens
    exact ⟨hloose₂.knows.widens hwide, hf₁.knows_spawn.widens hwide⟩

/-- A wait with a deadline does not end at once. -/
lemma exists_waits_begin (k : Kernel ρ κ ν ε) (timeout : Float) (b : ρ) :
    ∃ d f, (Deadline.begin k timeout b).2 = .waits d f := by
  unfold Deadline.begin
  split <;> exact ⟨_, _, rfl⟩

/-- What a wait with a deadline is for. -/
lemma body_begin {k k' : Kernel ρ κ ν ε} {timeout : Float} {b : ρ} {d : Deadline} {f : Id}
    (h : Deadline.begin k timeout b = (k', .waits d f)) :
    ∃ a, k'.activity? d.task = some a ∧ a.body = some b := by
  have hspawned : ∀ k : Kernel ρ κ ν ε, ∃ a, (k.spawn b).1.activity? k.futures.size = some a ∧
      a.body = some b := fun k => ⟨_, activity?_spawn.trans (if_pos rfl), rfl⟩
  unfold Deadline.begin at h
  split at h
  · cases h
    obtain ⟨a, ha, hbody⟩ := hspawned k
    have hfresh : ((k.spawn b).1.fresh.1.watch k.futures.size
        (.release (k.spawn b).1.futures.size)).activity? k.futures.size = some a :=
      activity?_watch.trans ((activity?_add_plain rfl).trans ha)
    have hgrows : Grows (fun _ => True) ((k.spawn b).1.fresh.1.watch k.futures.size
        (.release (k.spawn b).1.futures.size)) _ := .cancel _ k.futures.size
    obtain ⟨c, hc, hbody', -⟩ := hgrows.kept hfresh
    exact ⟨c, hc, hbody'.trans hbody⟩
  · cases h
    obtain ⟨a, ha, hbody⟩ := hspawned (k.fresh.1.after timeout (.complete k.futures.size)).1
    exact ⟨a, activity?_watch.trans ha, hbody⟩

/-- A wait goes on only to give up. -/
lemma abandon_of_resume {d d' : Deadline} {input : Outcome ν ε} {f : Id}
    (h : Deadline.resume k d input = (k', .waits d' f)) :
    ∃ task waiter timer interrupted, d = .waiting task waiter timer ∧
      Deadline.abandon (k.unwatch task waiter) task (some timer) interrupted = (k', .waits d' f) := by
  cases d with
  | waiting task waiter timer =>
    unfold Deadline.resume at h
    dsimp only at h
    split at h
    · rw [Deadline.conclude] at h
      split at h <;> cases h
    · exact ⟨task, waiter, timer, _, rfl, h⟩
  | cancelling task waiter timer interrupted =>
    unfold Deadline.resume at h
    dsimp only at h
    split at h <;> cases h

/-- A wait whose task has ended does not go on. -/
lemma isDone_of_resume {d d' : Deadline} {input : Outcome ν ε} {f : Id}
    (h : Deadline.resume k d input = (k', .waits d' f)) : k.isDone d.task = false := by
  obtain ⟨task, waiter, timer, interrupted, rfl, -⟩ := abandon_of_resume h
  refine Bool.eq_false_iff.2 fun (hdone : k.isDone task = true) => ?_
  unfold Deadline.resume at h
  dsimp only at h
  rw [if_pos hdone, Deadline.conclude] at h
  split at h <;> cases h

/-- A wait goes on for the same task. -/
lemma task_resume {d d' : Deadline} {input : Outcome ν ε} {f : Id}
    (h : (Deadline.resume k d input).2 = .waits d' f) : d'.task = d.task := by
  obtain ⟨task, waiter, timer, interrupted, rfl, habandon⟩ := abandon_of_resume (Prod.ext rfl h)
  cases congrArg Prod.snd habandon
  rfl

lemma acts_resumeWait (hf : k.Follows p) {d : Deadline} (hd : k.Knows p d.task)
    (input : Outcome ν ε) :
    Acts p quiet k (Deadline.resume k d input).1 ∧
      (Deadline.resume k d input).1.WaitsWell p (Deadline.resume k d input).2 := by
  cases d with
  | waiting task waiter timer =>
    unfold Deadline.resume
    dsimp only
    split
    · refine ⟨.single (.disarm timer), ?_⟩
      rw [Deadline.conclude]
      split <;> exact waitsWell_ends
    · have hunwatch : Acts p quiet k (k.unwatch task waiter) := .single (.unwatch task waiter)
      have htask := hd.widens (Acts.grows hunwatch).toWidens
      obtain ⟨hacts, hwaits⟩ := acts_abandon (hf.unwatch task waiter) htask (some timer) _
      exact ⟨hunwatch.trans hacts, hwaits⟩
  | cancelling task waiter timer interrupted =>
    have hacts : Acts p quiet k (Deadline.disarm (k.unwatch task waiter) timer) := by
      have hunwatch : Acts p quiet k (k.unwatch task waiter) := .single (.unwatch task waiter)
      cases timer with
      | none => exact hunwatch
      | some t => exact hunwatch.tail (.disarm t)
    unfold Deadline.resume
    dsimp only
    generalize Deadline.disarm (k.unwatch task waiter) timer = k₁ at hacts ⊢
    split <;> exact ⟨hacts, waitsWell_ends⟩

end Kernel

end SuggestBridge.Task
