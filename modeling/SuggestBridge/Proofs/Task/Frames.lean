import SuggestBridge.Proofs.Task.Deadlines
import SuggestBridge.Proofs.Task.Taking

/-!
# What is left alone

`Untouched` says that nothing has become of some futures and that the owner is to be told of nothing
new of some kind.  Each operation of a kernel leaves all futures alone but the one that it is about; a
request to cancel goes further, along the waits of tasks, so that it matters what the task waits for.
-/

namespace SuggestBridge.Task.Kernel

variable {ρ κ ν ε τ : Type} {k k' k'' : Kernel ρ κ ν ε} {kept : Id → Prop} {barred : κ → Prop}
  {x g t : Id} {o : Outcome ν ε} {b : ρ}

/-- A job is ready, or it will be when a timer is due. -/
def Due (k : Kernel ρ κ ν ε) (job : Job κ) : Prop :=
  job ∈ k.ready ∨ ∃ t ∈ k.timers, t.job = job

/-- The futures `kept` are as they were, and the owner is to be told of nothing `barred` that it was not
to be told of before. -/
structure Untouched (kept : Id → Prop) (barred : κ → Prop) (k k' : Kernel ρ κ ν ε) : Prop where
  outcome : ∀ {x}, kept x → k'.outcome? x = k.outcome? x
  activity : ∀ {x}, kept x → k'.activity? x = k.activity? x
  due : ∀ {h}, barred h → k'.Due (.hook h) → k.Due (.hook h)

/-- A request to cancel the task `t` concerns nothing that is kept: the task has ended, runs, or waits
for a future that passes the request on to nobody. -/
structure Aside (kept : Id → Prop) (k : Kernel ρ κ ν ε) (t : Id) : Prop where
  free : ∀ {a}, k.activity? t = some a → ¬kept t
  task : k.isDone t = true ∨ ∃ a, k.activity? t = some a
  waits : ∀ {a g}, k.activity? t = some a → a.waitingFor = some g → k.Leaf g ∧ ¬kept g

namespace Aside

lemma lt (h : Aside kept k t) : t < k.futures.size := by
  rcases h.task with hdone | ⟨a, ha⟩
  · obtain ⟨o, ho⟩ := isDone_eq_true_iff.1 hdone
    exact lt_size_of_outcome? ho
  · exact lt_size_of_activity? ha

lemma of_eq (h : Aside kept k t) (hwide : Widens k k') (hout : k'.outcome? t = k.outcome? t)
    (hact : k'.activity? t = k.activity? t) : Aside kept k' t where
  free ha := h.free (hact.symm.trans ha)
  task := by
    rw [isDone, hout, hact]
    exact h.task
  waits ha hg := by
    obtain ⟨hleaf, hfree⟩ := h.waits (hact.symm.trans ha) hg
    exact ⟨hwide.leaf hleaf, hfree⟩

/-- A task that is about to begin. -/
lemma spawn (hfree : ¬kept k.futures.size) (b : ρ) : Aside kept (k.spawn b).1 k.futures.size where
  free _ := hfree
  task := .inr ⟨_, activity?_spawn.trans (if_pos rfl)⟩
  waits ha hg := by
    cases ha.symm.trans (activity?_spawn.trans (if_pos rfl))
    cases hg

end Aside

namespace Untouched

lemma refl (k : Kernel ρ κ ν ε) : Untouched kept barred k k := ⟨fun _ => rfl, fun _ => rfl, fun _ => id⟩

lemma trans (h : Untouched kept barred k k') (h' : Untouched kept barred k' k'') :
    Untouched kept barred k k'' where
  outcome hx := (h'.outcome hx).trans (h.outcome hx)
  activity hx := (h'.activity hx).trans (h.activity hx)
  due hh hdue := h.due hh (h'.due hh hdue)

/-! ## Single operations -/

lemma of_futures (hfutures : ∀ {x}, kept x → k'.futures[x]? = k.futures[x]?)
    (hdue : ∀ {h}, barred h → k'.Due (.hook h) → k.Due (.hook h)) : Untouched kept barred k k' where
  outcome hx := by rw [outcome?, outcome?, hfutures hx]
  activity hx := by rw [activity?, activity?, hfutures hx]
  due := hdue

lemma update (f : Future ρ κ ν ε → Future ρ κ ν ε) (hx : ¬kept x) :
    Untouched kept barred k (k.update x f) :=
  .of_futures (fun {y} hy => by rw [getElem?_update, if_neg (by rintro rfl; exact hx hy)])
    fun _ => id

lemma settle (o : Outcome ν ε) (hx : ¬kept x) : Untouched kept barred k (k.settle x o) := by
  by_cases hopen : k.IsOpen x
  swap
  · rw [settle_of_not_isOpen hopen]
    exact .refl k
  have hne : ∀ {y}, kept y → y ≠ x := fun hy heq => hx (heq ▸ hy)
  refine ⟨fun hy => outcome?_settle_of_ne (hne hy), fun hy => activity?_settle_of_ne (hne hy),
    fun _ hdue => ?_⟩
  rw [Due, timers_settle, ready_settle hopen, List.mem_append] at hdue
  rcases hdue with (hdue | hdue) | hdue
  · exact .inl hdue
  · obtain ⟨w, -, heq⟩ := List.mem_map.1 hdue
    cases heq
  · exact .inr hdue

lemma settleAll {ws : List Id} (hws : ∀ w ∈ ws, ¬kept w) :
    Untouched kept barred k (ws.foldl (fun k w => k.settle w o) k) := by
  induction ws generalizing k with
  | nil => exact .refl k
  | cons w ws ih =>
    obtain ⟨hw, hrest⟩ := List.forall_mem_cons.1 hws
    have hone : Untouched kept barred k (k.settle w o) := .settle o hw
    exact hone.trans (ih hrest)

section Add

variable (hkept : ∀ x, kept x → x < k.futures.size)
include hkept

lemma add (F : Future ρ κ ν ε) : Untouched kept barred k (k.add F).1 :=
  .of_futures (fun hx => by rw [getElem?_add, if_neg (Nat.ne_of_lt (hkept _ hx))]) fun _ => id

lemma fresh : Untouched kept barred k k.fresh.1 := .add hkept _

lemma spawn (b : ρ) : Untouched kept barred k (k.spawn b).1 := by
  have hadded : Untouched kept barred k (k.add { activity := some { body := some b } }).1 := .add hkept _
  refine hadded.trans (.of_futures (fun _ => rfl) fun _ hdue => ?_)
  refine hdue.imp_left fun hdue => ?_
  rcases List.mem_append.1 hdue with hdue | hdue
  · exact hdue
  · cases List.mem_singleton.1 hdue

end Add

lemma watch (g : Id) (w : Watcher κ) : Untouched kept barred k (k.watch g w) where
  outcome _ := outcome?_watch
  activity _ := activity?_watch
  due {h} _ hdue := by
    rw [Due, timers_watch, ready_watch, List.mem_append] at hdue
    rcases hdue with (hdue | hdue) | hdue
    · exact .inl hdue
    · split at hdue
      · cases List.mem_singleton.1 hdue
      · cases hdue
    · exact .inr hdue

lemma unwatch (g waiter : Id) : Untouched kept barred k (k.unwatch g waiter) where
  outcome _ := outcome?_unwatch
  activity _ := activity?_unwatch
  due _ := id

lemma after (delay : Float) {job : Job κ} (hjob : ∀ h, barred h → job ≠ .hook h) :
    Untouched kept barred k (k.after delay job).1 := by
  refine .of_futures (fun _ => rfl) fun {h} hh hdue => hdue.imp_right ?_
  rintro ⟨timer, ht, heq⟩
  rcases Timers.mem_push ht with ht | rfl
  · exact ⟨timer, ht, heq⟩
  · exact absurd heq (hjob h hh)

lemma disarm (timer : Nat) : Untouched kept barred k (k.disarm timer) := by
  refine .of_futures (fun _ => rfl) fun _ hdue => hdue.imp_right ?_
  rintro ⟨t, ht, heq⟩
  obtain ⟨t', ht', heq'⟩ := Timers.job_of_mem_cancel ht
  exact ⟨t', ht', heq'.trans heq⟩

lemma soon {h₀ : κ} (hfree : ¬barred h₀) : Untouched kept barred k (k.soon (.hook h₀)) := by
  refine .of_futures (fun _ => rfl) fun {h} hh hdue => hdue.imp_left fun hdue => ?_
  rcases List.mem_append.1 hdue with hdue | hdue
  · exact hdue
  · cases List.mem_singleton.1 hdue
    exact absurd hh hfree

/-! ## A request to cancel -/

/-- A request to cancel a future that passes it on to nobody. -/
lemma cancelWithin_leaf (fuel : Nat) (hg : k.Leaf g) (hfree : ¬kept g) :
    Untouched kept barred k (k.cancelWithin fuel g).1 := by
  cases fuel with
  | zero => exact .refl k
  | succ fuel =>
    rw [cancelWithin]
    split
    · exact .refl k
    · next F hF =>
      split
      · exact .refl k
      · have hplain : F.activity = none := by
          have hnone := hg.plain
          rwa [activity?, hF] at hnone
        have halone : F.members = [] := by
          have hnil := hg.members
          rwa [Kernel.members, hF] at hnil
        rw [hplain, halone]
        exact .settle _ hfree

lemma cancel (h : Aside kept k t) : Untouched kept barred k (k.cancel t).1 := by
  rw [Kernel.cancel, cancelWithin]
  split
  · exact .refl k
  · next F hF =>
    split
    · exact .refl k
    · next hopen =>
      have hact : k.activity? t = F.activity := by rw [activity?, hF]; rfl
      obtain ⟨a, ha⟩ : ∃ a, F.activity = some a := by
        rcases h.task with hdone | ⟨a, ha⟩
        · rw [isDone, outcome?, hF] at hdone
          exact absurd hdone hopen
        · exact ⟨a, hact.symm.trans ha⟩
      have hfree := h.free (hact.trans ha)
      have hasked : Untouched kept barred k (k.ask t a) := .update _ hfree
      have hkeep : ∀ k : Kernel ρ κ ν ε, Untouched kept barred k (k.keep t) := fun k => .update _ hfree
      rw [ha]
      dsimp only
      split
      · exact hasked.trans (hkeep _)
      · next target htarget =>
        obtain ⟨hleaf, hother⟩ := h.waits (hact.trans ha) htarget
        have hwide : Widens k (k.ask t a) := by
          refine .of_activity size_update (fun x hx => ?_) fun x => members_note (isNote_ask (hact.trans ha))
          have hne : x ≠ t := by
            rintro rfl
            exact Option.some_ne_none a (ha.symm.trans (hact.symm.trans hx))
          exact (activity?_ask_of_ne hne).trans hx
        have hpassed : Untouched kept barred (k.ask t a)
            ((k.ask t a).cancelWithin k.futures.size target).1 :=
          .cancelWithin_leaf _ (hwide.leaf hleaf) hother
        split
        · exact hasked.trans hpassed
        · exact (hasked.trans hpassed).trans (hkeep _)

/-! ## The end of a turn -/

lemma waitFor (b : ρ) (g : Id) (ht : ¬kept t) : Untouched kept barred k (k.waitFor t b g) :=
  .trans (.update _ ht) (.watch g _)

/-- The running task, which nobody has asked to cancel while it ran, waits for a future. -/
lemma suspend_calm (hmust : k.mustCancel t = false) (b : ρ) (g : Id) (ht : ¬kept t) :
    Untouched kept barred k (k.suspend t b g) := by
  rw [suspend_eq, if_neg (by simp [hmust])]
  exact .waitFor b g ht

/-- The running task waits for a future that passes a request to cancel on to nobody. -/
lemma suspend {a : Activity ρ} (ha : k.activity? t = some a) (b : ρ) (ht : ¬kept t) (hg : k.Leaf g)
    (hfree : ¬kept g) : Untouched kept barred k (k.suspend t b g) := by
  have hwait : Untouched kept barred k (k.waitFor t b g) := .waitFor b g ht
  rw [suspend_eq]
  split
  swap
  · exact hwait
  have hgt : g ≠ t := by
    rintro rfl
    exact Option.some_ne_none a (ha.symm.trans hg.plain)
  have hleaf : (k.waitFor t b g).Leaf g :=
    ⟨Nat.lt_of_lt_of_eq hg.lt size_waitFor.symm, (activity?_waitFor_of_ne hgt).trans hg.plain,
      members_waitFor.trans hg.members⟩
  have hpassed : Untouched kept barred k ((k.waitFor t b g).cancel g).1 :=
    hwait.trans (.cancelWithin_leaf _ hleaf hfree)
  split
  · exact hpassed.trans (.update _ ht)
  · exact hpassed

/-- The running task, if there is one, waits for a future that passes a request to cancel on to nobody. -/
lemma pause (b : ρ) (ht : ¬kept t) (hg : k.Leaf g) (hfree : ¬kept g) :
    Untouched kept barred k (k.suspend t b g) := by
  cases ha : k.activity? t with
  | none =>
    refine .suspend_calm ?_ b g ht
    rw [mustCancel_eq, ha]
    rfl
  | some a => exact .suspend ha b ht hg hfree

lemma finish (o : Outcome ν ε) (ht : ¬kept t) : Untouched kept barred k (k.finish t o) := by
  rw [finish_eq]
  split
  · exact .settle _ ht
  · exact .settle _ ht

/-! ## Deadlines -/

section Deadlines

variable (hkept : ∀ x, kept x → x < k.futures.size)
include hkept

lemma abandon (h : Aside kept k t) (timer : Option Nat) (interrupted : Bool) :
    Untouched kept barred k (Deadline.abandon k t timer interrupted).1 := by
  have hfresh : Untouched kept barred k k.fresh.1 := .fresh hkept
  have hwatch : Untouched kept barred k (k.fresh.1.watch t (.release k.futures.size)) :=
    hfresh.trans (.watch _ _)
  have haside : Aside kept (k.fresh.1.watch t (.release k.futures.size)) t :=
    h.of_eq (.trans (.fresh k) (.watch _ _)) (outcome?_watch.trans (outcome?_add rfl))
      (activity?_watch.trans (activity?_add_plain rfl))
  exact hwatch.trans (.cancel haside)

lemma beginWait (timeout : Float) (b : ρ) :
    Untouched kept barred k (Deadline.begin k timeout b).1 := by
  have hnew : ¬kept k.futures.size := fun hx => absurd (hkept _ hx) (Nat.lt_irrefl _)
  unfold Deadline.begin
  split
  · have hspawn : Untouched kept barred k (k.spawn b).1 := .spawn hkept b
    refine hspawn.trans (.abandon (fun x hx => ?_) (.spawn hnew b) none false)
    rw [size_spawn]
    exact Nat.lt_succ_of_lt (hkept x hx)
  · have hfresh : Untouched kept barred k k.fresh.1 := .fresh hkept
    have harmed : Untouched kept barred k (k.fresh.1.after timeout (.complete k.futures.size)).1 :=
      hfresh.trans (.after timeout fun _ _ => nofun)
    have hspawn : Untouched kept barred k
        ((k.fresh.1.after timeout (.complete k.futures.size)).1.spawn b).1 := by
      have hsize : k.futures.size < (k.fresh.1.after timeout (.complete k.futures.size)).1.futures.size :=
        Nat.lt_of_lt_of_eq (Nat.lt_succ_self _) size_add.symm
      exact harmed.trans (.spawn (fun x hx => Nat.lt_trans (hkept x hx) hsize) b)
    exact hspawn.trans (.watch _ _)

lemma resumeWait {d : Deadline} (h : Aside kept k d.task) (input : Outcome ν ε) :
    Untouched kept barred k (Deadline.resume k d input).1 := by
  cases d with
  | waiting task waiter timer =>
    unfold Deadline.resume
    dsimp only
    split
    · exact .disarm timer
    · have hunwatch : Untouched kept barred k (k.unwatch task waiter) := .unwatch task waiter
      have haside : Aside kept (k.unwatch task waiter) task :=
        h.of_eq (.of_activity size_unwatch (fun _ hx => activity?_unwatch.trans hx)
          fun _ => members_unwatch) outcome?_unwatch activity?_unwatch
      exact hunwatch.trans (.abandon (fun x hx => Nat.lt_of_lt_of_eq (hkept x hx) size_unwatch.symm)
        haside _ _)
  | cancelling task waiter timer interrupted =>
    have hdone : Untouched kept barred k (Deadline.disarm (k.unwatch task waiter) timer) := by
      have hunwatch : Untouched kept barred k (k.unwatch task waiter) := .unwatch task waiter
      cases timer with
      | none => exact hunwatch
      | some t => exact hunwatch.trans (.disarm t)
    unfold Deadline.resume
    dsimp only
    generalize Deadline.disarm (k.unwatch task waiter) timer = k₁ at hdone ⊢
    split <;> exact hdone

end Deadlines

/-- A wait that ends leaves all futures alone. -/
lemma resumeWait_ends {d : Deadline} {input : Outcome ν ε} {e : Deadline.Ending ν ε}
    (h : Deadline.resume k d input = (k', .ends e)) : Untouched kept barred k k' ∧ Widens k k' := by
  cases d with
  | waiting task waiter timer =>
    unfold Deadline.resume at h
    dsimp only at h
    split at h
    · obtain ⟨rfl, -⟩ := Prod.mk.inj h
      exact ⟨.disarm timer, .of_activity rfl (fun _ => id) fun _ => rfl⟩
    · cases h
  | cancelling task waiter timer interrupted =>
    have hunwatch : Untouched kept barred k (k.unwatch task waiter) := .unwatch task waiter
    have hwide : Widens k (k.unwatch task waiter) :=
      .of_activity size_unwatch (fun _ hx => activity?_unwatch.trans hx) fun _ => members_unwatch
    have hdone : Untouched kept barred k (Deadline.disarm (k.unwatch task waiter) timer) ∧
        Widens k (Deadline.disarm (k.unwatch task waiter) timer) := by
      cases timer with
      | none => exact ⟨hunwatch, hwide⟩
      | some t =>
        exact ⟨hunwatch.trans (.disarm t), hwide.trans (.of_activity rfl (fun _ => id) fun _ => rfl)⟩
    unfold Deadline.resume at h
    dsimp only at h
    generalize Deadline.disarm (k.unwatch task waiter) timer = k₁ at hdone h
    split at h <;> (obtain ⟨rfl, -⟩ := Prod.mk.inj h; exact hdone)

/-! ## The next job -/

lemma of_passed (h : Passed k k') : Untouched kept barred k k' := by
  refine .of_futures (fun _ => by rw [h.futures]) fun {_} _ hdue => ?_
  obtain ⟨js, hready, hjs⟩ := h.ready
  rcases hdue with hdue | ⟨t, ht, heq⟩
  · rw [hready, List.mem_append] at hdue
    exact hdue.imp id (hjs _)
  · exact .inr ⟨t, h.timers t ht, heq⟩

lemma dropJob {job : Job κ} {rest : List (Job κ)} (hready : k.ready = job :: rest) (n : Nat) :
    Untouched kept barred k (k.dropJob rest n) :=
  .of_futures (fun _ => rfl) fun _ hdue =>
    hdue.imp_left fun hmem => hready ▸ List.mem_cons_of_mem _ hmem

lemma of_roused (h : Roused k k' t) (ht : ¬kept t)
    (hdue : ∀ {h}, barred h → k'.Due (.hook h) → k.Due (.hook h)) : Untouched kept barred k k' where
  outcome _ := h.outcome _
  activity hx := h.other _ fun heq => ht (heq ▸ hx)
  due := hdue

lemma of_ends (h : Ends k k' t o) (ht : ¬kept t)
    (hdue : ∀ {h}, barred h → k'.Due (.hook h) → k.Due (.hook h)) : Untouched kept barred k k' where
  outcome hx := h.outcome _ fun heq => ht (heq ▸ hx)
  activity hx := h.other _ fun heq => ht (heq ▸ hx)
  due := hdue

end Untouched

/-! ## Giving up -/

/-- A future that passes a request to cancel on to nobody is settled by it, unless it was settled before. -/
lemma cancelWithin_leaf (hg : k.Leaf g) (n : Nat) :
    k.cancelWithin (n + 1) g = if k.isDone g then (k, false) else (k.settle g .cancelled, true) := by
  obtain ⟨F, hF⟩ : ∃ F, k.futures[g]? = some F := ⟨_, Array.getElem?_eq_getElem hg.lt⟩
  have hplain : F.activity = none := by simpa [activity?, hF] using hg.plain
  have halone : F.members = [] := by simpa [members, hF] using hg.members
  have hdone : k.isDone g = F.outcome.isSome := by rw [isDone, outcome?, hF]; rfl
  rw [cancelWithin, hF, hdone]
  simp only [hplain, halone, List.isEmpty_nil, if_true]

lemma isDone_ask (a : Activity ρ) : (k.ask t a).isDone g = k.isDone g :=
  congrArg Option.isSome (outcome?_update fun _ => rfl)

lemma Leaf.ask {a : Activity ρ} (hg : k.Leaf g) (ha : k.activity? t = some a) : (k.ask t a).Leaf g := by
  refine Widens.leaf (.of_activity size_update (fun x hx => ?_) fun x => members_note (isNote_ask ha)) hg
  have hne : x ≠ t := by
    rintro rfl
    cases ha.symm.trans hx
  exact (activity?_ask_of_ne hne).trans hx

/-- A task that waits for nothing keeps a request to cancel. -/
lemma cancel_idle {a : Activity ρ} (ha : k.activity? t = some a) (hopen : k.outcome? t = none)
    (hidle : a.waitingFor = none) : (k.cancel t).1 = (k.ask t a).keep t := by
  obtain ⟨F, hF, hact⟩ := Option.bind_eq_some_iff.1 ha
  have hout : F.outcome = none := by simpa [outcome?, hF] using hopen
  cases a
  cases hidle
  rw [cancel, cancelWithin]
  simp only [hF, hout, Option.isSome_none, Bool.false_eq_true, if_false, hact]
  rfl

/-- A task keeps a request to cancel as well if what it waits for is settled already. -/
lemma cancel_waits {a : Activity ρ} (ha : k.activity? t = some a) (hopen : k.outcome? t = none)
    (hwaits : a.waitingFor = some g) (hg : k.Leaf g) :
    (k.cancel t).1 = if k.isDone g then (k.ask t a).keep t else (k.ask t a).settle g .cancelled := by
  obtain ⟨F, hF, hact⟩ := Option.bind_eq_some_iff.1 ha
  have hout : F.outcome = none := by simpa [outcome?, hF] using hopen
  obtain ⟨n, hn⟩ : ∃ n, k.futures.size = n + 1 :=
    ⟨_, (Nat.sub_add_cancel (Nat.one_le_of_lt hg.lt)).symm⟩
  have hpassed := cancelWithin_leaf (hg.ask ha) n
  cases a
  cases hwaits
  rw [isDone_ask, ← hn, Kernel.ask] at hpassed
  rw [cancel, cancelWithin]
  simp only [hF, hout, Option.isSome_none, Bool.false_eq_true, if_false, hact, hpassed]
  cases k.isDone g <;> rfl

/-- Once a task is asked to cancel, the future that it waits for is settled, if this passes the request
on to nobody. -/
lemma isDone_cancel {a : Activity ρ} (ha : k.activity? t = some a) (hopen : k.outcome? t = none)
    (hwaits : a.waitingFor = some g) (hg : k.Leaf g) : (k.cancel t).1.isDone g = true := by
  rw [cancel_waits ha hopen hwaits hg]
  split
  · next hdone =>
    have hkeep : ((k.ask t a).keep t).isDone g = (k.ask t a).isDone g :=
      congrArg Option.isSome (outcome?_update fun _ => rfl)
    rw [hkeep, isDone_ask, hdone]
  · next hlive =>
    refine isDone_eq_true_iff.2 ⟨_, outcome?_settle_self ⟨(hg.ask ha).lt, ?_⟩⟩
    exact isDone_eq_false_iff.1 ((isDone_ask a).trans (Bool.eq_false_iff.2 hlive))

lemma widens_spawn (k : Kernel ρ κ ν ε) (b : ρ) : Widens k (k.spawn b).1 := by
  have hspawn : Act ({} : Plan Unit) (fun _ => True) k (k.spawn b).1 := .spawn trivial
  exact hspawn.grows.toWidens

/-- A new future that is settled by the end of a task which is asked to cancel. -/
lemma leaf_abandon {task : Id} {timer : Option Nat} {interrupted : Bool} {d : Deadline}
    (h : Deadline.abandon k task timer interrupted = (k', .waits d g)) :
    k'.Leaf g ∧ k.futures.size ≤ g := by
  rw [Deadline.abandon] at h
  obtain ⟨rfl, hstep⟩ := Prod.mk.inj h
  cases hstep
  have hwide : Widens k.fresh.1 ((k.fresh.1.watch task (.release k.futures.size)).cancel task).1 :=
    (Widens.watch _ _).trans (.cancel _ _)
  exact ⟨hwide.leaf (leaf_fresh k), Nat.le_refl _⟩

/-- A task that is asked to cancel while it waits settles what it waits for. -/
lemma isDone_abandon {task : Id} {a : Activity ρ} (ha : k.activity? task = some a)
    (hopen : k.outcome? task = none) (hwaits : a.waitingFor = some g) (hg : k.Leaf g)
    (timer : Option Nat) (interrupted : Bool) :
    (Deadline.abandon k task timer interrupted).1.isDone g = true := by
  have hwide : Widens k (k.fresh.1.watch task (.release k.futures.size)) :=
    .trans (.fresh k) (.watch _ _)
  exact isDone_cancel (activity?_watch.trans ((activity?_add_plain rfl).trans ha))
    (outcome?_watch.trans ((outcome?_add rfl).trans hopen)) hwaits (hwide.leaf hg)

lemma leaf_begin {timeout : Float} {d : Deadline} (h : Deadline.begin k timeout b = (k', .waits d g)) :
    k'.Leaf g ∧ k.futures.size ≤ g := by
  unfold Deadline.begin at h
  split at h
  · obtain ⟨hleaf, hle⟩ := leaf_abandon (k := (k.spawn b).1) h
    rw [size_spawn] at hle
    exact ⟨hleaf, Nat.le_of_succ_le hle⟩
  · obtain ⟨rfl, hstep⟩ := Prod.mk.inj h
    cases hstep
    have harmed : Widens k.fresh.1 (k.fresh.1.after timeout (.complete k.futures.size)).1 :=
      .of_activity rfl (fun _ => id) fun _ => rfl
    have hbegun := harmed.trans (widens_spawn _ b)
    exact ⟨(hbegun.trans (.watch _ (.release k.futures.size))).leaf (leaf_fresh k), Nat.le_refl _⟩

/-- A wait that goes on waits for a new future. -/
lemma leaf_resume {d d' : Deadline} {input : Outcome ν ε}
    (h : Deadline.resume k d input = (k', .waits d' g)) : k'.Leaf g ∧ k.futures.size ≤ g := by
  obtain ⟨task, waiter, timer, interrupted, rfl, habandon⟩ := abandon_of_resume h
  obtain ⟨hleaf, hle⟩ := leaf_abandon habandon
  exact ⟨hleaf, Nat.le_trans (Nat.le_of_eq size_unwatch.symm) hle⟩

/-- While a wait goes on, its task is asked to cancel, and settles what it waits for. -/
lemma isDone_resume {d d' : Deadline} {input : Outcome ν ε} {f : Id} {a : Activity ρ}
    (h : Deadline.resume k d input = (k', .waits d' f)) (ha : k.activity? d.task = some a)
    (hwaits : a.waitingFor = some g) (hg : k.Leaf g) : k'.isDone g = true := by
  have hopen := isDone_eq_false_iff.1 (isDone_of_resume h)
  obtain ⟨task, waiter, timer, interrupted, rfl, habandon⟩ := abandon_of_resume h
  dsimp only [Deadline.task] at ha hopen
  have hwide : Widens k (k.unwatch task waiter) :=
    .of_activity size_unwatch (fun _ hx => activity?_unwatch.trans hx) fun _ => members_unwatch
  have hdone := isDone_abandon (activity?_unwatch.trans ha) (outcome?_unwatch.trans hopen) hwaits
    (hwide.leaf hg) (some timer) interrupted
  rw [habandon] at hdone
  exact hdone

section Next

variable [Inhabited ν]

/-- While a job is done nothing is kept that the job concerns, but the owner is to be told of nothing
new. -/
lemma untouched_perform (k : Kernel ρ κ ν ε) (job : Job κ) :
    Untouched (fun _ => False) barred k (perform k job).1 := by
  have hwake : ∀ t o, Untouched (fun _ => False) barred k (k.wake t o).1 := fun t o => by
    rw [wake]
    split
    · split
      · exact .refl k
      · exact .update _ id
    · exact .refl k
  cases job with
  | start t =>
    rw [perform, start]
    split
    · split
      · exact .refl k
      · split
        · exact .settle _ id
        · exact .update _ id
    · exact .refl k
  | proceed t => exact hwake t _
  | complete x => exact .settle _ id
  | hook h => exact .refl k
  | notify w g =>
    simp only [perform]
    split
    · exact .refl k
    · next o ho =>
      cases w with
      | wake t => exact hwake t o
      | relay x => exact .settle _ id
      | release x => exact .settle _ id
      | countdown x =>
        dsimp only
        rw [count]
        split
        · have hcount : Untouched (fun _ => False) barred k (k.expect x (· - 1)) := .update _ id
          dsimp only
          split
          · exact hcount.trans (.settle _ id)
          · exact hcount
        · exact .refl k
      | gather x =>
        cases o with
        | value v =>
          simp only [noteMember]
          split
          · split
            · exact .refl k
            · have hcount : Untouched (fun _ => False) barred k (k.expect x (· - 1)) := .update _ id
              split
              · exact hcount.trans (.settle _ id)
              · exact hcount
          · exact .refl k
        | failure e => exact .settle _ id
        | cancelled => exact .settle _ id
      | hook h => exact .refl k

variable {act : Activation ρ κ ν ε} {limit : Float}

/-- What is due after the next job was due before. -/
lemma due_of_next? (h : k.next? limit = some (k', act)) {h₀ : κ} (hdue : k'.Due (.hook h₀)) :
    k.Due (.hook h₀) := by
  obtain ⟨k₀, hpassed, job, rest, hready, hperform⟩ := perform_of_next? h
  have hdone : Untouched (fun _ => False) (fun _ => True) (k₀.dropJob rest (k₀.batch - 1))
      (perform (k₀.dropJob rest (k₀.batch - 1)) job).1 := untouched_perform _ job
  rw [hperform] at hdone
  have hall : Untouched (fun _ => False) (fun _ => True) k k' :=
    (Untouched.of_passed hpassed).trans ((Untouched.dropJob hready _).trans hdone)
  exact hall.due trivial hdue

/-- When the owner is told of something, nothing becomes of any future. -/
lemma futures_of_next?_hook {h₀ : κ} {source : Option Id}
    (h : k.next? limit = some (k', .hook h₀ source)) : k'.futures = k.futures := by
  obtain ⟨k₀, hpassed, job, rest, -, hperform⟩ := perform_of_next? h
  rw [← hpassed.futures]
  have hwake : ∀ {k : Kernel ρ κ ν ε} {t o}, k.wake t o ≠ (k', .hook h₀ source) := by
    intro k t o heq
    rw [wake] at heq
    split at heq
    · split at heq <;> cases heq
    · cases heq
  cases job with
  | start t =>
    rw [perform, start] at hperform
    split at hperform
    · split at hperform
      · cases hperform
      · split at hperform <;> cases hperform
    · cases hperform
  | proceed t => exact absurd hperform hwake
  | complete x => cases hperform
  | hook h => 
    cases hperform
    rfl
  | notify w g =>
    simp only [perform] at hperform
    split at hperform
    · cases hperform
    · cases w with
      | wake t => exact absurd hperform hwake
      | hook h =>
        cases hperform
        rfl
      | _ => cases hperform

end Next

end SuggestBridge.Task.Kernel
