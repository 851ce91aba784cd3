import SuggestBridge.Proofs.Task.Frames

/-!
# Tasks that are called off

A task that is asked to cancel while it waits cannot be told of anything else any more: the request
settles what the task waits for, or the task keeps it, if what it waits for was settled just before
(`calledOff_cancel`).  Whatever happens until its turn comes, the task then goes on with a cancellation
(`CalledOff.told`).
-/

namespace SuggestBridge.Task.Kernel

variable {ρ κ ν ε : Type} {k k' : Kernel ρ κ ν ε} {t g : Id} {b : ρ}

/-- Whatever else happens, the next turn of the task `t` is a cancellation. -/
inductive CalledOff (k : Kernel ρ κ ν ε) (t : Id) : Prop where
  | must {a : Activity ρ} (activity : k.activity? t = some a) (must : a.mustCancel = true)
  | waits {a : Activity ρ} {g : Id} (activity : k.activity? t = some a) (waits : a.waitingFor = some g)
      (cancelled : k.outcome? g = some .cancelled)

namespace CalledOff

lemma of_eq (h : k.CalledOff t) (hact : k'.activity? t = k.activity? t)
    (hout : ∀ {x o}, k.outcome? x = some o → k'.outcome? x = some o) : k'.CalledOff t := by
  cases h with
  | must ha hmust => exact .must (hact.trans ha) hmust
  | waits ha hwaits ho => exact .waits (hact.trans ha) hwaits (hout ho)

lemma of_kept (h : k.CalledOff t) (hout : ∀ {x o}, k.outcome? x = some o → k'.outcome? x = some o)
    (hkept : ∀ {a}, k.activity? t = some a → ∃ b, k'.activity? t = some b ∧ b.waitingFor = a.waitingFor)
    (hfirm : ∀ {a}, k.activity? t = some a → a.mustCancel = true →
      ∃ b, k'.activity? t = some b ∧ b.mustCancel = true) : k'.CalledOff t := by
  cases h with
  | must ha hmust =>
    obtain ⟨b, hb, hmust'⟩ := hfirm ha hmust
    exact .must hb hmust'
  | waits ha hwaits ho =>
    obtain ⟨b, hb, hwaits'⟩ := hkept ha
    exact .waits hb (hwaits'.trans hwaits) (hout ho)

lemma grows {quiet : ρ → Prop} (h : k.CalledOff t) (hgrows : Grows quiet k k') : k'.CalledOff t :=
  h.of_kept hgrows.outcome
    (fun ha => by
      obtain ⟨b, hb, -, hwaiting, -⟩ := hgrows.kept ha
      exact ⟨b, hb, hwaiting⟩)
    hgrows.firm.must

/-- A task that waits for nothing keeps the request. -/
lemma must_of_idle (h : k.CalledOff t) {a : Activity ρ} (ha : k.activity? t = some a)
    (hidle : a.waitingFor = none) : a.mustCancel = true := by
  cases h with
  | must ha' hmust =>
    cases ha.symm.trans ha'
    exact hmust
  | waits ha' hwaits =>
    cases ha.symm.trans ha'
    cases hidle.symm.trans hwaits

/-- A task is told of nothing else, whatever it waited for. -/
lemma told (h : k.CalledOff t) {a : Activity ρ} {o : Outcome ν ε} (ha : k.activity? t = some a)
    (hwaited : a.waitingFor = some g) (ho : k.outcome? g = some o) :
    (if a.mustCancel then .cancelled else o) = .cancelled := by
  cases h with
  | must ha' hmust =>
    cases ha.symm.trans ha'
    rw [if_pos hmust]
  | waits ha' hwaits hcancelled =>
    cases ha.symm.trans ha'
    cases hwaited.symm.trans hwaits
    cases ho.symm.trans hcancelled
    exact ite_self _

/-- Another task waits from now on. -/
lemma suspend (h : k.CalledOff t) {u : Id} (hne : t ≠ u) (b : ρ) (g : Id) :
    (k.suspend u b g).CalledOff t := by
  have hwait : (k.waitFor u b g).CalledOff t :=
    h.of_eq (activity?_waitFor_of_ne hne) fun ho => outcome?_waitFor.trans ho
  rw [suspend_eq]
  split
  swap
  · exact hwait
  have hgrows : Grows (fun _ => True) (k.waitFor u b g) ((k.waitFor u b g).cancel g).1 := .cancel _ g
  split
  swap
  · exact hwait.grows hgrows
  exact (hwait.grows hgrows).of_eq (activity?_update_of_ne hne) fun ho =>
    (outcome?_note (isNote_uncancel _ u)).trans ho

end CalledOff

/-- A task that is asked to cancel has a cancellation for its next turn, if what it waits for passes the
request on to nobody. -/
lemma calledOff_cancel {a : Activity ρ} (ha : k.activity? t = some a) (hopen : k.outcome? t = none)
    (hwaits : ∀ {g}, a.waitingFor = some g → k.Leaf g) : (k.cancel t).1.CalledOff t := by
  have hself := activity?_ask_self ha
  cases hw : a.waitingFor with
  | none =>
    rw [cancel_idle ha hopen hw]
    exact .must (activity?_keep_self hself) rfl
  | some g =>
    have hg := hwaits hw
    rw [cancel_waits ha hopen hw hg]
    split
    · exact .must (activity?_keep_self hself) rfl
    · next hlive =>
      have hout : (k.ask t a).outcome? g = none :=
        isDone_eq_false_iff.1 ((isDone_ask a).trans (Bool.eq_false_iff.2 hlive))
      exact .waits ((activity?_settle_of_plain (hg.ask ha).plain).trans hself) hw
        (outcome?_settle_self ⟨(hg.ask ha).lt, hout⟩)

/-- A task that is asked to cancel while it is waited for has a cancellation for its next turn. -/
lemma calledOff_abandon {task : Id} {a : Activity ρ} (ha : k.activity? task = some a)
    (hopen : k.outcome? task = none) (hwaits : ∀ {g}, a.waitingFor = some g → k.Leaf g)
    (timer : Option Nat) (interrupted : Bool) :
    (Deadline.abandon k task timer interrupted).1.CalledOff task := by
  have hwide : Widens k (k.fresh.1.watch task (.release k.futures.size)) :=
    .trans (.fresh k) (.watch _ _)
  exact calledOff_cancel (activity?_watch.trans ((activity?_add_plain rfl).trans ha))
    (outcome?_watch.trans ((outcome?_add rfl).trans hopen)) fun hg => hwide.leaf (hwaits hg)

/-- While a wait goes on, its task has a cancellation for its next turn. -/
lemma calledOff_resume {d d' : Deadline} {input : Outcome ν ε} {f : Id} {a : Activity ρ}
    (h : Deadline.resume k d input = (k', .waits d' f)) (ha : k.activity? d.task = some a)
    (hwaits : ∀ {g}, a.waitingFor = some g → k.Leaf g) : k'.CalledOff d'.task := by
  have hopen := isDone_eq_false_iff.1 (isDone_of_resume h)
  obtain ⟨task, waiter, timer, interrupted, rfl, habandon⟩ := abandon_of_resume h
  dsimp only [Deadline.task] at ha hopen
  have hwide : Widens k (k.unwatch task waiter) :=
    .of_activity size_unwatch (fun _ hx => activity?_unwatch.trans hx) fun _ => members_unwatch
  have hoff := calledOff_abandon (activity?_unwatch.trans ha) (outcome?_unwatch.trans hopen)
    (fun hg => hwide.leaf (hwaits hg)) (some timer) interrupted
  rw [habandon] at hoff
  rw [Deadline.abandon] at habandon
  cases (Prod.mk.inj habandon).2
  exact hoff

/-- Without any time a task has a cancellation for its first turn. -/
lemma calledOff_begin {timeout : Float} {d : Deadline} (h : Deadline.begin k timeout b = (k', .waits d g))
    (hshort : timeout ≤ 0) : k'.CalledOff d.task := by
  rw [Deadline.begin, if_pos hshort] at h
  have hself : (k.spawn b).1.activity? (k.spawn b).2 = some { body := some b } :=
    activity?_spawn.trans (if_pos rfl)
  have hopen : (k.spawn b).1.outcome? (k.spawn b).2 = none :=
    outcome?_spawn.trans (views_of_size_le (Nat.le_refl _)).1
  have hoff := calledOff_abandon hself hopen (fun hg => by cases hg) none false
  dsimp only at h
  rw [h] at hoff
  rw [Deadline.abandon] at h
  cases (Prod.mk.inj h).2
  exact hoff

end SuggestBridge.Task.Kernel
