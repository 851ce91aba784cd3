import SuggestBridge.Proofs.Task.Cancelling

/-!
# Futures that take over an outcome

A task may wait for another one through a future of its own: the future takes over the outcome of
the other task, and a request to cancel the waiting task ends with that future.  A `Plan` says which
futures are of this kind, for whom they were made and whose outcome they take over; it also marks
tasks that nobody but their owner asks to cancel.

`Follows` states that a kernel keeps to a plan.  Its heart are the last two fields: such a future is
open only as long as the outcome it takes over is still to come or on its way, and once it is settled
it has that outcome, unless the task that waits for it was asked to cancel.
-/

namespace SuggestBridge.Task

/-- Which futures take over the outcome of a task, and which tasks are marked. -/
structure Plan (τ : Type) where
  /-- The task that waits for a future, and the task whose outcome the future takes over. -/
  relay? : Id → Option (Id × Id) := fun _ => none
  /-- The mark of a task. -/
  mark? : Id → Option τ := fun _ => none

namespace Plan

variable {τ : Type} {p p' p'' : Plan τ} {n m x : Nat}

/-- The plan says nothing about a future. -/
def Free (p : Plan τ) (x : Id) : Prop := p.relay? x = none ∧ p.mark? x = none

/-- About the first futures two plans agree. -/
structure Extends (p p' : Plan τ) (n : Nat) : Prop where
  relay : ∀ x, x < n → p'.relay? x = p.relay? x
  mark : ∀ x, x < n → p'.mark? x = p.mark? x

lemma Extends.refl (p : Plan τ) (n : Nat) : p.Extends p n := ⟨fun _ _ => rfl, fun _ _ => rfl⟩

lemma Extends.trans (h : p.Extends p' n) (h' : p'.Extends p'' m) (hle : n ≤ m) :
    p.Extends p'' n where
  relay x hx := (h'.relay x (Nat.lt_of_lt_of_le hx hle)).trans (h.relay x hx)
  mark x hx := (h'.mark x (Nat.lt_of_lt_of_le hx hle)).trans (h.mark x hx)

lemma Extends.free (h : p.Extends p' n) (hx : x < n) (hfree : p.Free x) : p'.Free x :=
  ⟨(h.relay x hx).trans hfree.1, (h.mark x hx).trans hfree.2⟩

end Plan

/-- The future that a watcher settles. -/
def Watcher.target? {κ : Type} : Watcher κ → Option Id
  | .wake _ | .hook _ => none
  | .relay x | .release x | .countdown x | .gather x => some x

namespace Kernel

variable {ρ κ ν ε τ : Type} {k k' : Kernel ρ κ ν ε} {p p' : Plan τ} {x g t : Id} {o : Outcome ν ε}

/-! ## Keeping to a plan -/

/-- A future that is no task and that the plan says nothing about. -/
def Loose (k : Kernel ρ κ ν ε) (p : Plan τ) (x : Id) : Prop :=
  x < k.futures.size ∧ k.activity? x = none ∧ p.Free x

/-- A watcher settles a loose future, or one that takes over the outcome of what is watched. -/
def Aims (k : Kernel ρ κ ν ε) (p : Plan τ) (w : Watcher κ) (g : Id) : Prop :=
  ∀ x, w.target? = some x → k.Loose p x ∨ w = .relay x ∧ ∃ c, p.relay? x = some (c, g)

/-- A job of the queue reports a settled future or settles a loose one.  Nobody gives way. -/
def Proper (k : Kernel ρ κ ν ε) (p : Plan τ) : Job κ → Prop
  | .notify w g => (∃ o, k.outcome? g = some o) ∧ k.Aims p w g
  | .complete x => k.Loose p x
  | .start _ | .hook _ => True
  | .proceed _ => False

/-- A job that may be put off settles a loose future or tells the owner. -/
def Timely (k : Kernel ρ κ ν ε) (p : Plan τ) : Job κ → Prop
  | .complete x => k.Loose p x
  | .hook _ => True
  | .start _ | .proceed _ | .notify _ _ => False

/-- A kernel that keeps to a plan. -/
structure Follows (k : Kernel ρ κ ν ε) (p : Plan τ) : Prop where
  relays : ∀ {x c u}, p.relay? x = some (c, u) →
    x < k.futures.size ∧ u < k.futures.size ∧ k.activity? x = none ∧ p.mark? x = none ∧ k.members x = []
  marks : ∀ {u}, p.mark? u ≠ none → u < k.futures.size
  watching : ∀ {w g}, w ∈ k.watchers g → k.Aims p w g
  jobs : ∀ {job}, job ∈ k.ready → k.Proper p job
  timers : ∀ {t}, t ∈ k.timers → k.Timely p t.job
  members : ∀ {m g}, m ∈ k.members g → m < k.futures.size ∧ p.Free m
  waiting : ∀ {t a x}, k.activity? t = some a → a.waitingFor = some x →
    x < k.futures.size ∧ p.mark? x = none ∧ ∀ c u, p.relay? x = some (c, u) → c = t
  asked : ∀ {t a}, k.activity? t = some a → a.mustCancel = true → a.cancelRequests ≠ 0
  pending : ∀ {t a}, k.activity? t = some a → a.body ≠ none → a.waitingFor = none →
    a.cancelRequests ≠ 0 → a.mustCancel = true
  relaying : ∀ {x c u}, p.relay? x = some (c, u) → k.outcome? x = none →
    .relay x ∈ k.watchers u ∧ k.outcome? u = none ∨ .notify (.relay x) u ∈ k.ready
  relayed : ∀ {x c u o}, p.relay? x = some (c, u) → k.outcome? x = some o →
    k.outcome? u = some o ∨ o = .cancelled ∧
      ∀ a, k.activity? c = some a → a.waitingFor = some x → a.cancelRequests ≠ 0

/-! ## What becomes of loose futures -/

/-- What was no task stays so, and groups keep their members. -/
structure Widens (k k' : Kernel ρ κ ν ε) : Prop where
  size : k.futures.size ≤ k'.futures.size
  plain : ∀ {x}, x < k.futures.size → k.activity? x = none → k'.activity? x = none
  members : ∀ {x}, x < k.futures.size → k'.members x = k.members x

/-- A future that is no task and no group: a request to cancel it is passed on to nobody. -/
structure Leaf (k : Kernel ρ κ ν ε) (x : Id) : Prop where
  lt : x < k.futures.size
  plain : k.activity? x = none
  members : k.members x = []

namespace Widens

lemma refl (k : Kernel ρ κ ν ε) : Widens k k := ⟨Nat.le_refl _, fun _ h => h, fun _ => rfl⟩

lemma trans {k'' : Kernel ρ κ ν ε} (h : Widens k k') (h' : Widens k' k'') : Widens k k'' where
  size := Nat.le_trans h.size h'.size
  plain hx hnone := h'.plain (Nat.lt_of_lt_of_le hx h.size) (h.plain hx hnone)
  members hx := (h'.members (Nat.lt_of_lt_of_le hx h.size)).trans (h.members hx)

lemma of_activity (hsize : k'.futures.size = k.futures.size)
    (h : ∀ x, k.activity? x = none → k'.activity? x = none)
    (hmembers : ∀ x, k'.members x = k.members x) : Widens k k' :=
  ⟨Nat.le_of_eq hsize.symm, fun _ hnone => h _ hnone, fun _ => hmembers _⟩

lemma fresh (k : Kernel ρ κ ν ε) : Widens k k.fresh.1 where
  size := Nat.le_of_lt (Nat.lt_of_lt_of_eq (Nat.lt_succ_self _) size_add.symm)
  plain hx hnone := by rw [Kernel.fresh, activity?_add, if_neg (Nat.ne_of_lt hx), hnone]
  members := members_add_of_lt

lemma watch (g : Id) (w : Watcher κ) : Widens k (k.watch g w) :=
  .of_activity size_watch (fun _ hx => activity?_watch.trans hx) fun _ => members_watch

lemma settle (x : Id) (o : Outcome ν ε) : Widens k (k.settle x o) := by
  by_cases hopen : k.IsOpen x
  · refine .of_activity size_settle (fun y hy => ?_) fun _ => members_settle
    by_cases hyx : y = x
    · rw [hyx, activity?_settle_self hopen]
    · rw [activity?_settle_of_ne hyx, hy]
  · rw [settle_of_not_isOpen hopen]
    exact .of_activity rfl (fun _ => id) fun _ => rfl

lemma leaf (h : Widens k k') (hx : k.Leaf x) : k'.Leaf x :=
  ⟨Nat.lt_of_lt_of_le hx.lt h.size, h.plain hx.lt hx.plain, (h.members hx.lt).trans hx.members⟩

lemma loose (h : Widens k k') (hp : p.Extends p' k.futures.size) (hx : k.Loose p x) :
    k'.Loose p' x :=
  ⟨Nat.lt_of_lt_of_le hx.1 h.size, h.plain hx.1 hx.2.1, hp.free hx.1 hx.2.2⟩

lemma aims (h : Widens k k') (hp : p.Extends p' k.futures.size)
    (hrelays : ∀ {x c u}, p.relay? x = some (c, u) → x < k.futures.size) {w : Watcher κ}
    (hw : k.Aims p w g) : k'.Aims p' w g := by
  intro x hx
  rcases hw x hx with hloose | ⟨heq, c, hc⟩
  · exact .inl (h.loose hp hloose)
  · exact .inr ⟨heq, c, (hp.relay x (hrelays hc)).trans hc⟩

lemma proper (h : Widens k k') (hp : p.Extends p' k.futures.size)
    (hrelays : ∀ {x c u}, p.relay? x = some (c, u) → x < k.futures.size)
    (hout : ∀ {x o}, k.outcome? x = some o → k'.outcome? x = some o) {job : Job κ}
    (hjob : k.Proper p job) : k'.Proper p' job := by
  cases job with
  | notify w g =>
    obtain ⟨⟨o, ho⟩, hw⟩ := hjob
    exact ⟨⟨o, hout ho⟩, h.aims hp hrelays hw⟩
  | complete x => exact h.loose hp hjob
  | start t => trivial
  | proceed t => exact hjob
  | hook κ => trivial

lemma timely (h : Widens k k') (hp : p.Extends p' k.futures.size) {job : Job κ}
    (hjob : k.Timely p job) : k'.Timely p' job := by
  cases job with
  | complete x => exact h.loose hp hjob
  | hook κ => trivial
  | start t => exact hjob
  | proceed t => exact hjob
  | notify w g => exact hjob

end Widens

namespace Follows

lemma relay_lt (h : k.Follows p) {c u : Id} (hx : p.relay? x = some (c, u)) :
    x < k.futures.size := (h.relays hx).1

/-- A new future is free. -/
lemma free_size (h : k.Follows p) : p.Free k.futures.size := by
  refine ⟨?_, ?_⟩
  · cases hx : p.relay? k.futures.size with
    | none => rfl
    | some cu => exact absurd (h.relay_lt hx) (Nat.lt_irrefl _)
  · by_contra hne
    exact absurd (h.marks hne) (Nat.lt_irrefl _)

lemma empty : ({} : Kernel ρ κ ν ε).Follows ({} : Plan τ) where
  relays hx := by cases hx
  marks hu := absurd rfl hu
  watching hw := by simp [Kernel.watchers] at hw
  jobs hjob := absurd hjob List.not_mem_nil
  timers ht := absurd ht (by simp)
  members hm := by simp [Kernel.members] at hm
  waiting ha := by simp [activity?] at ha
  asked ha := by simp [activity?] at ha
  pending ha := by simp [activity?] at ha
  relaying hx := by cases hx
  relayed hx := by cases hx

/-- Operations that settle nothing and move no task.  They may begin tasks, add watchers and jobs
that aim well, and remove watchers that relay nothing. -/
lemma mono (h : k.Follows p) (hwide : Widens k k') (hp : p.Extends p' k.futures.size)
    (hout : ∀ x, k'.outcome? x = k.outcome? x)
    (hact : ∀ {t a}, k'.activity? t = some a → k.activity? t = some a ∨
      k.futures.size ≤ t ∧ a.waitingFor = none ∧ a.cancelRequests = 0 ∧ a.mustCancel = false)
    (hrelays : ∀ {x c u}, p'.relay? x = some (c, u) → k.futures.size ≤ x →
      x < k'.futures.size ∧ u < k'.futures.size ∧ k'.activity? x = none ∧ p'.mark? x = none ∧
        k'.members x = [] ∧ (.relay x ∈ k'.watchers u ∧ k'.outcome? u = none ∨ .notify (.relay x) u ∈ k'.ready))
    (hmarks : ∀ {u}, p'.mark? u ≠ none → u < k'.futures.size)
    (hwatchers : ∀ {w g}, w ∈ k'.watchers g → w ∈ k.watchers g ∨ k'.Aims p' w g)
    (hkept : ∀ {x u}, .relay x ∈ k.watchers u → .relay x ∈ k'.watchers u)
    (hready : ∀ {job}, job ∈ k'.ready → job ∈ k.ready ∨ k'.Proper p' job)
    (hqueued : ∀ {job}, job ∈ k.ready → job ∈ k'.ready)
    (htimers : ∀ {t}, t ∈ k'.timers → (∃ t' ∈ k.timers, t'.job = t.job) ∨ k'.Timely p' t.job)
    (hmembers : ∀ {m g}, m ∈ k'.members g →
      m ∈ k.members g ∨ m < k'.futures.size ∧ p'.Free m) : k'.Follows p' where
  relays {x c u} hx := by
    by_cases hlt : x < k.futures.size
    · rw [hp.relay x hlt] at hx
      obtain ⟨-, hu, hnone, hmark, halone⟩ := h.relays hx
      exact ⟨Nat.lt_of_lt_of_le hlt hwide.size, Nat.lt_of_lt_of_le hu hwide.size,
        hwide.plain hlt hnone, (hp.mark x hlt).trans hmark, (hwide.members hlt).trans halone⟩
    · obtain ⟨hlt', hu, hnone, hmark, halone, -⟩ := hrelays hx (Nat.le_of_not_lt hlt)
      exact ⟨hlt', hu, hnone, hmark, halone⟩
  marks := hmarks
  watching hw := (hwatchers hw).elim (fun hw => hwide.aims hp h.relay_lt (h.watching hw)) id
  jobs hjob := (hready hjob).elim
    (fun hjob => hwide.proper hp h.relay_lt (fun ho => (hout _).trans ho) (h.jobs hjob)) id
  timers ht := by
    rcases htimers ht with ⟨t', ht', heq⟩ | htimely
    · exact heq ▸ hwide.timely hp (h.timers ht')
    · exact htimely
  members hm := by
    rcases hmembers hm with hm | hm
    · obtain ⟨hlt, hfree⟩ := h.members hm
      exact ⟨Nat.lt_of_lt_of_le hlt hwide.size, hp.free hlt hfree⟩
    · exact hm
  waiting {t a x} ha hx := by
    rcases hact ha with ha | ⟨-, hnone, -, -⟩
    · obtain ⟨hlt, hmark, hrelay⟩ := h.waiting ha hx
      refine ⟨Nat.lt_of_lt_of_le hlt hwide.size, (hp.mark x hlt).trans hmark, fun c u hcu => ?_⟩
      exact hrelay c u (by rwa [hp.relay x hlt] at hcu)
    · simp [hnone] at hx
  asked {t a} ha hmust := by
    rcases hact ha with ha | ⟨-, -, -, hfalse⟩
    · exact h.asked ha hmust
    · simp [hfalse] at hmust
  pending {t a} ha hbody hidle hasked := by
    rcases hact ha with ha | ⟨-, -, hzero, -⟩
    · exact h.pending ha hbody hidle hasked
    · exact absurd hzero hasked
  relaying {x c u} hx hnone := by
    by_cases hlt : x < k.futures.size
    · rw [hp.relay x hlt] at hx
      rw [hout] at hnone
      rw [hout]
      exact (h.relaying hx hnone).imp (fun hw => ⟨hkept hw.1, hw.2⟩) hqueued
    · exact (hrelays hx (Nat.le_of_not_lt hlt)).2.2.2.2.2
  relayed {x c u o} hx ho := by
    have hlt : x < k.futures.size := by
      rw [hout] at ho
      exact lt_size_of_outcome? ho
    rw [hp.relay x hlt] at hx
    rw [hout] at ho
    rw [hout]
    refine (h.relayed hx ho).imp id fun ⟨heq, hasked⟩ => ⟨heq, fun a ha hwaiting => ?_⟩
    rcases hact ha with ha | ⟨-, hidle, -, -⟩
    · exact hasked a ha hwaiting
    · simp [hidle] at hwaiting

/-! ## Settling -/

/-- Settling a future that takes over an outcome needs that outcome, or that the task which waits
for it was asked to cancel. -/
lemma settle (h : k.Follows p)
    (hx : ∀ c u, p.relay? x = some (c, u) → k.outcome? u = some o ∨ o = .cancelled ∧
      ∀ a, k.activity? c = some a → a.waitingFor = some x → a.cancelRequests ≠ 0) :
    (k.settle x o).Follows p := by
  by_cases hopen : k.IsOpen x
  swap
  · rwa [settle_of_not_isOpen hopen]
  have hwide : Widens k (k.settle x o) := .settle x o
  have hp := Plan.Extends.refl p k.futures.size
  have hold : ∀ {t a}, (k.settle x o).activity? t = some a → k.activity? t = some a := by
    intro t a ha
    have hne : t ≠ x := by
      rintro rfl
      simp [activity?_settle_self hopen] at ha
    rwa [activity?_settle_of_ne hne] at ha
  have hout : ∀ {y o'}, k.outcome? y = some o' → (k.settle x o).outcome? y = some o' :=
    outcome?_settle_of_eq_some
  refine
    { relays := ?_, marks := ?_, watching := ?_, jobs := ?_, timers := ?_, members := ?_,
      waiting := ?_, asked := ?_, pending := ?_, relaying := ?_, relayed := ?_ }
  · intro y c u hy
    obtain ⟨hlt, hu, hnone, hmark, halone⟩ := h.relays hy
    exact ⟨by rwa [size_settle], by rwa [size_settle], hwide.plain hlt hnone, hmark,
      (hwide.members hlt).trans halone⟩
  · intro u hu
    rw [size_settle]
    exact h.marks hu
  · exact fun hw => hwide.aims hp h.relay_lt (h.watching (mem_watchers_settle hw))
  · intro job hjob
    rw [ready_settle hopen, List.mem_append] at hjob
    rcases hjob with hjob | hjob
    · exact hwide.proper hp h.relay_lt hout (h.jobs hjob)
    · obtain ⟨w, hw, rfl⟩ := List.mem_map.1 hjob
      exact ⟨⟨o, outcome?_settle_self hopen⟩, hwide.aims hp h.relay_lt (h.watching hw)⟩
  · intro t ht
    rw [timers_settle] at ht
    exact hwide.timely hp (h.timers ht)
  · intro m y hm
    rw [members_settle] at hm
    rw [size_settle]
    exact h.members hm
  · intro t a y ha hy
    rw [size_settle]
    exact h.waiting (hold ha) hy
  · exact fun ha => h.asked (hold ha)
  · exact fun ha => h.pending (hold ha)
  · intro y c u hy hnone
    have hyx : y ≠ x := by
      rintro rfl
      simp [outcome?_settle_self hopen] at hnone
    rw [outcome?_settle_of_ne hyx] at hnone
    rw [ready_settle hopen, List.mem_append]
    rcases h.relaying hy hnone with ⟨hw, hu⟩ | hjob
    · by_cases hux : u = x
      · subst hux
        exact .inr (.inr (List.mem_map.2 ⟨_, hw, rfl⟩))
      · exact .inl ⟨by rwa [watchers_settle_of_ne hux], by rwa [outcome?_settle_of_ne hux]⟩
    · exact .inr (.inl hjob)
  · intro y c u o' hy ho'
    by_cases hyx : y = x
    · subst hyx
      rw [outcome?_settle_self hopen] at ho'
      cases ho'
      exact (hx c u hy).imp hout fun ⟨heq, hasked⟩ => ⟨heq, fun a ha => hasked a (hold ha)⟩
    · rw [outcome?_settle_of_ne hyx] at ho'
      exact (h.relayed hy ho').imp hout fun ⟨heq, hasked⟩ => ⟨heq, fun a ha => hasked a (hold ha)⟩

lemma settle_free (h : k.Follows p) (hx : p.relay? x = none) : (k.settle x o).Follows p :=
  h.settle fun c u hcu => by simp [hx] at hcu

/-! ## Changes of tasks -/

/-- Changes of activities only. -/
lemma retask (h : k.Follows p) (hsize : k'.futures.size = k.futures.size)
    (hready : k'.ready = k.ready) (htimers : k'.timers = k.timers)
    (hout : ∀ x, k'.outcome? x = k.outcome? x) (hwatchers : ∀ x, k'.watchers x = k.watchers x)
    (hmembers : ∀ x, k'.members x = k.members x)
    (hplain : ∀ x, k.activity? x = none → k'.activity? x = none)
    (hwaiting : ∀ {t a x}, k'.activity? t = some a → a.waitingFor = some x →
      x < k.futures.size ∧ p.mark? x = none ∧ ∀ c u, p.relay? x = some (c, u) → c = t)
    (hasked : ∀ {t a}, k'.activity? t = some a → a.mustCancel = true → a.cancelRequests ≠ 0)
    (hpending : ∀ {t a}, k'.activity? t = some a → a.body ≠ none → a.waitingFor = none →
      a.cancelRequests ≠ 0 → a.mustCancel = true)
    (hrelayed : ∀ {x c u a}, p.relay? x = some (c, u) → k.outcome? x ≠ none →
      k'.activity? c = some a → a.waitingFor = some x → ∃ b, k.activity? c = some b ∧
        b.waitingFor = some x ∧ (b.cancelRequests ≠ 0 → a.cancelRequests ≠ 0)) :
    k'.Follows p := by
  have hwide : Widens k k' := .of_activity hsize hplain hmembers
  have hp := Plan.Extends.refl p k.futures.size
  refine
    { relays := ?_, marks := ?_, watching := ?_, jobs := ?_, timers := ?_, members := ?_,
      waiting := ?_, asked := hasked, pending := hpending, relaying := ?_, relayed := ?_ }
  · intro y c u hy
    obtain ⟨hlt, hu, hnone, hmark, halone⟩ := h.relays hy
    exact ⟨by rwa [hsize], by rwa [hsize], hplain y hnone, hmark, (hmembers y).trans halone⟩
  · intro u hu
    rw [hsize]
    exact h.marks hu
  · intro w g hw
    rw [hwatchers] at hw
    exact hwide.aims hp h.relay_lt (h.watching hw)
  · intro job hjob
    rw [hready] at hjob
    exact hwide.proper hp h.relay_lt (fun ho => (hout _).trans ho) (h.jobs hjob)
  · intro t ht
    rw [htimers] at ht
    exact hwide.timely hp (h.timers ht)
  · intro m g hm
    rw [hmembers] at hm
    rw [hsize]
    exact h.members hm
  · intro t a y ha hy
    rw [hsize]
    exact hwaiting ha hy
  · intro y c u hy hnone
    rw [hout] at hnone
    rw [hout, hwatchers, hready]
    exact h.relaying hy hnone
  · intro y c u o hy ho
    rw [hout] at ho
    rw [hout]
    refine (h.relayed hy ho).imp id fun ⟨heq, hask⟩ => ⟨heq, fun a ha hay => ?_⟩
    obtain ⟨b, hb, hby, hmono⟩ := hrelayed hy (by simp [ho]) ha hay
    exact hmono (hask b hb hby)

/-- Changes of activities that move no task and take no request back. -/
lemma note (h : k.Follows p) (hsize : k'.futures.size = k.futures.size)
    (hready : k'.ready = k.ready) (htimers : k'.timers = k.timers)
    (hout : ∀ x, k'.outcome? x = k.outcome? x) (hwatchers : ∀ x, k'.watchers x = k.watchers x)
    (hmembers : ∀ x, k'.members x = k.members x)
    (hplain : ∀ x, k.activity? x = none → k'.activity? x = none)
    (hact : ∀ {t a}, k'.activity? t = some a → ∃ b, k.activity? t = some b ∧ b.body = a.body ∧
      b.waitingFor = a.waitingFor ∧ (b.cancelRequests ≠ 0 → a.cancelRequests ≠ 0) ∧
      (a.mustCancel = true → a.cancelRequests ≠ 0) ∧
      (a.body ≠ none → a.waitingFor = none → a.cancelRequests ≠ 0 → a.mustCancel = true)) :
    k'.Follows p := by
  refine h.retask hsize hready htimers hout hwatchers hmembers hplain (fun ha hx => ?_)
    (fun ha => ?_) (fun ha => ?_) (fun _ _ ha hx => ?_)
  · obtain ⟨b, hb, -, hwaiting, -⟩ := hact ha
    exact h.waiting hb (hwaiting.trans hx)
  · obtain ⟨-, -, -, -, -, hasked, -⟩ := hact ha
    exact hasked
  · obtain ⟨-, -, -, -, -, -, hpending⟩ := hact ha
    exact hpending
  · obtain ⟨b, hb, -, hwaiting, hmono, -⟩ := hact ha
    exact ⟨b, hb, hwaiting.trans hx, hmono⟩

end Follows

end Kernel

end SuggestBridge.Task
