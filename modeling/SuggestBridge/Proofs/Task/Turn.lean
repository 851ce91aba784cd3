import SuggestBridge.Proofs.Task.Waking
import SuggestBridge.Task.Progress

/-!
# The turn of a task

Where a kernel runs nothing but tasks (`TasksOnly`), every job is the turn of one task: the task is
taken from the queue, it may make futures and settle others, and then it ends or waits for a future.
`Running` follows a task from the moment it is taken, and `Turn` is what is left of its turn when it
is over.  Nothing else changes: no other task moves, and no outcome is replaced.
-/

namespace SuggestBridge.Task.Kernel

variable {ρ κ ν ε : Type} {k k' : Kernel ρ κ ν ε} {t : Id}

/-- Nothing happens but that tasks begin and are woken. -/
structure TasksOnly (k : Kernel ρ κ ν ε) : Prop where
  timers : k.timers = #[]
  jobs : ∀ job ∈ k.ready, ∃ t, job = .start t ∨ ∃ g, job = .notify (.wake t) g
  watchers : ∀ {g w}, w ∈ k.watchers g → ∃ t, w = .wake t
  members : ∀ g, k.members g = []

namespace TasksOnly

lemma empty : TasksOnly ({} : Kernel ρ κ ν ε) where
  timers := rfl
  jobs _ hjob := absurd hjob List.not_mem_nil
  watchers hw := by simp [Kernel.watchers] at hw
  members g := by simp [Kernel.members]

lemma of_views (h : k.TasksOnly) (htimers : k'.timers = k.timers)
    (hready : ∀ job ∈ k'.ready, job ∈ k.ready) (hwatchers : ∀ j, k'.watchers j = k.watchers j)
    (hmembers : ∀ j, k'.members j = k.members j) : k'.TasksOnly where
  timers := htimers.trans h.timers
  jobs job hjob := h.jobs job (hready job hjob)
  watchers {g w} hw := h.watchers (by rwa [hwatchers g] at hw)
  members g := (hmembers g).trans (h.members g)

lemma update (h : k.TasksOnly) {id : Id} {f : Future ρ κ ν ε → Future ρ κ ν ε}
    (hwatchers : ∀ F, (f F).watchers = F.watchers) (hmembers : ∀ F, (f F).members = F.members) :
    (k.update id f).TasksOnly :=
  h.of_views rfl (fun _ hjob => hjob) (fun _ => watchers_update hwatchers)
    (fun _ => members_update hmembers)

lemma fresh (h : k.TasksOnly) : k.fresh.1.TasksOnly :=
  h.of_views rfl (fun _ hjob => hjob) (fun _ => watchers_add rfl) (fun _ => members_add rfl)

lemma spawn (h : k.TasksOnly) (b : ρ) : (k.spawn b).1.TasksOnly where
  timers := h.timers
  jobs job hjob := by
    rcases List.mem_append.1 hjob with hjob | hjob
    · exact h.jobs job hjob
    · exact ⟨_, .inl (List.mem_singleton.1 hjob)⟩
  watchers {g w} hw := h.watchers (by rwa [show (k.spawn b).1.watchers g = k.watchers g from
    watchers_add rfl] at hw)
  members g := by
    rw [← h.members g]
    exact members_add rfl

lemma settle (h : k.TasksOnly) (id : Id) (o : Outcome ν ε) : (k.settle id o).TasksOnly where
  timers := timers_settle.trans h.timers
  jobs job hjob := by
    by_cases hopen : k.IsOpen id
    · rw [ready_settle hopen, List.mem_append] at hjob
      rcases hjob with hjob | hjob
      · exact h.jobs job hjob
      · obtain ⟨w, hw, rfl⟩ := List.mem_map.1 hjob
        obtain ⟨u, rfl⟩ := h.watchers hw
        exact ⟨u, .inr ⟨id, rfl⟩⟩
    · rw [settle_of_not_isOpen hopen] at hjob
      exact h.jobs job hjob
  watchers hw := h.watchers (mem_watchers_settle hw)
  members g := members_settle.trans (h.members g)

lemma watch (h : k.TasksOnly) (id u : Id) : (k.watch id (.wake u)).TasksOnly where
  timers := timers_watch.trans h.timers
  jobs job hjob := by
    rw [Kernel.watch] at hjob
    split at hjob
    · rcases List.mem_append.1 hjob with hjob | hjob
      · exact h.jobs job hjob
      · exact ⟨u, .inr ⟨id, List.mem_singleton.1 hjob⟩⟩
    · exact h.jobs job hjob
  watchers {g w} hw := by
    by_cases hg : g = id
    · subst hg
      by_cases hopen : k.IsOpen g
      · rw [watchers_watch_self hopen, List.mem_append, List.mem_singleton] at hw
        exact hw.elim h.watchers fun heq => ⟨u, heq⟩
      · rw [Kernel.watch] at hw
        split at hw
        · exact h.watchers hw
        · next hdone =>
          have hlt : ¬g < k.futures.size := fun hlt =>
            hopen ⟨hlt, isDone_eq_false_iff.1 (by simpa using hdone)⟩
          rw [(views_of_size_le (by simpa using hlt)).2.2] at hw
          exact absurd hw List.not_mem_nil
    · rw [watchers_watch_of_ne hg] at hw
      exact h.watchers hw
  members g := members_watch.trans (h.members g)

lemma waitFor (h : k.TasksOnly) (u : Id) (b : ρ) (g : Id) : (k.waitFor u b g).TasksOnly := by
  rw [Kernel.waitFor]
  refine watch ?_ g u
  exact h.update (fun _ => rfl) fun _ => rfl

lemma cancel (h : k.TasksOnly) (id : Id) : (k.cancel id).1.TasksOnly :=
  @cancelWithin_induction ρ κ ν ε k id TasksOnly (fun _ id _ h => h.settle id .cancelled)
    (fun _ _ _ hf h => h.of_views rfl (fun _ hjob => hjob) (fun _ => watchers_note hf)
      fun _ => members_note hf) _ h

lemma taken {rest : List (Job κ)} {job : Job κ} (h : k.TasksOnly) (hready : k.ready = job :: rest)
    (htaken : Taken k k' t rest) : k'.TasksOnly :=
  h.of_views htaken.timers
    (fun j hj => by rw [hready]; exact List.mem_cons_of_mem _ (htaken.ready ▸ hj))
    htaken.watchers htaken.members

end TasksOnly

/-! ## Between two jobs -/

/-- From `k` to `k'` futures were settled that are no tasks. -/
structure Settled (k k' : Kernel ρ κ ν ε) (os : List (Id × Outcome ν ε)) : Prop where
  waking : k'.Waking none
  tasksOnly : k'.TasksOnly
  size : k'.futures.size = k.futures.size
  activity : ∀ u, k'.activity? u = k.activity? u
  outcome : ∀ u, k'.outcome? u = (k.outcome? u).or (os.lookup u)

lemma outcome?_settle_or {id : Id} (h : id < k.futures.size) (o : Outcome ν ε) (u : Id) :
    (k.settle id o).outcome? u = (k.outcome? u).or ([(id, o)].lookup u) := by
  rw [outcome?_settle h]
  by_cases hu : u = id
  · simp [hu]
  · simp [List.lookup_cons, hu, beq_eq_false_iff_ne.2 hu]

lemma Settled.nil (hw : k.Waking none) (ht : k.TasksOnly) : Settled k k [] :=
  ⟨hw, ht, rfl, fun _ => rfl, fun u => by rw [List.lookup_nil, Option.or_none]⟩

lemma Settled.settle {os : List (Id × Outcome ν ε)} (h : Settled k k' os) {id : Id}
    {o : Outcome ν ε} (hlt : id < k.futures.size) (hplain : k.activity? id = none) :
    Settled k (k'.settle id o) (os ++ [(id, o)]) where
  waking := h.waking.settle_plain ((h.activity id).trans hplain)
  tasksOnly := h.tasksOnly.settle id o
  size := size_settle.trans h.size
  activity u := by rw [activity?_settle_of_plain ((h.activity id).trans hplain), h.activity]
  outcome u := by
    rw [outcome?_settle_or (h.size ▸ hlt), h.outcome, List.lookup_append, Option.or_assoc]

/-- Settling futures one after the other. -/
lemma Settled.settleAll (os : List (Id × Outcome ν ε)) {before : List (Id × Outcome ν ε)}
    (h : Settled k k' before)
    (hplain : ∀ p ∈ os, p.1 < k.futures.size ∧ k.activity? p.1 = none) :
    Settled k (os.foldl (fun k p => k.settle p.1 p.2) k') (before ++ os) := by
  induction os generalizing k' before with
  | nil => rwa [List.append_nil]
  | cons p os ih =>
    obtain ⟨⟨hlt, hnone⟩, hplain⟩ := List.forall_mem_cons.1 hplain
    rw [List.append_cons]
    exact ih (h.settle hlt hnone) hplain

/-! ## While a task runs -/

/-- Since `k` the task runs; it has made a number of futures and has settled futures. -/
structure Running (k k' : Kernel ρ κ ν ε) (t : Id) (made : Nat)
    (settled : List (Id × Outcome ν ε)) : Prop where
  waking : k'.Waking (some t)
  tasksOnly : k'.TasksOnly
  self : ∃ a, k'.activity? t = some a ∧ a.mustCancel = false
  size : k'.futures.size = k.futures.size + made
  other : ∀ u, u ≠ t → k'.activity? u = k.activity? u
  outcome : ∀ u, k'.outcome? u = (k.outcome? u).or (settled.lookup u)

namespace Running

variable {made : Nat} {settled : List (Id × Outcome ν ε)}

lemma of_taken {rest : List (Job κ)} {job : Job κ} (hready : k.ready = job :: rest)
    (honly : k.TasksOnly) (h : Taken k k' t rest) : Running k k' t 0 [] where
  waking := h.waking
  tasksOnly := honly.taken hready h
  self := by
    obtain ⟨-, b, -, hb, -, -, hcancel, -⟩ := h.self
    exact ⟨b, hb, hcancel⟩
  size := h.size
  other := h.other
  outcome u := by rw [h.outcome, List.lookup_nil, Option.or_none]

lemma fresh (h : Running k k' t made settled) : Running k k'.fresh.1 t (made + 1) settled where
  waking := h.waking.fresh
  tasksOnly := h.tasksOnly.fresh
  self := by
    obtain ⟨a, ha, hcancel⟩ := h.self
    refine ⟨a, ?_, hcancel⟩
    rw [Kernel.fresh, activity?_add, if_neg (Nat.ne_of_lt (lt_size_of_activity? ha)), ha]
  size := by rw [Kernel.fresh, size_add, h.size, Nat.add_assoc]
  other u hu := by
    rw [Kernel.fresh, activity?_add, ← h.other u hu]
    split
    · next heq => rw [(views_of_size_le (Nat.le_of_eq heq.symm)).2.1]
    · rfl
  outcome u := by rw [Kernel.fresh, outcome?_add rfl, h.outcome]

lemma settle (h : Running k k' t made settled) {id : Id} {o : Outcome ν ε}
    (hlt : id < k'.futures.size) (hplain : k'.activity? id = none) :
    Running k (k'.settle id o) t made (settled ++ [(id, o)]) where
  waking := h.waking.settle_plain hplain
  tasksOnly := h.tasksOnly.settle id o
  self := by
    obtain ⟨a, ha, hcancel⟩ := h.self
    exact ⟨a, by rw [activity?_settle_of_plain hplain, ha], hcancel⟩
  size := size_settle.trans h.size
  other u hu := by rw [activity?_settle_of_plain hplain, h.other u hu]
  outcome u := by
    rw [outcome?_settle_or hlt, h.outcome, List.lookup_append, Option.or_assoc]

/-- Settling futures one after the other. -/
lemma settleAll (os : List (Id × Outcome ν ε))
    (hplain : ∀ p ∈ os, p.1 < k'.futures.size ∧ k'.activity? p.1 = none)
    (h : Running k k' t made settled) :
    Running k (os.foldl (fun k p => k.settle p.1 p.2) k') t made (settled ++ os) := by
  induction os generalizing k' settled with
  | nil => rwa [List.append_nil]
  | cons p os ih =>
    obtain ⟨⟨hlt, hnone⟩, hplain⟩ := List.forall_mem_cons.1 hplain
    rw [List.append_cons]
    refine ih (fun q hq => ?_) (h.settle hlt hnone)
    rw [size_settle, activity?_settle_of_plain hnone]
    exact hplain q hq

end Running

/-! ## When a turn is over -/

/-- From `k` to `k'` a task had its turn: it made a number of futures, settled futures, and then
ended or waited. -/
structure Turn (k k' : Kernel ρ κ ν ε) (t : Id) (made : Nat) (settled : List (Id × Outcome ν ε))
    (progress : Progress ρ ν ε) : Prop where
  waking : k'.Waking none
  tasksOnly : k'.TasksOnly
  unsettled : k.outcome? t = none
  size : k'.futures.size = k.futures.size + made
  other : ∀ u, u ≠ t → k'.activity? u = k.activity? u
  outcome : ∀ u, u ≠ t → k'.outcome? u = (k.outcome? u).or (settled.lookup u)
  ended : ∀ o, progress = .ends o → k'.activity? t = none ∧ k'.outcome? t = some o
  waits : ∀ b g, progress = .waits b g → k'.outcome? t = none ∧
    ∃ a, k'.activity? t = some a ∧ a.body = some b ∧ a.waitingFor = some g ∧ a.mustCancel = false

/-- An outcome is never replaced. -/
lemma Turn.outcome_eq_some {made : Nat} {settled : List (Id × Outcome ν ε)}
    {progress : Progress ρ ν ε} (h : Turn k k' t made settled progress) {u : Id}
    {o : Outcome ν ε} (ho : k.outcome? u = some o) : k'.outcome? u = some o := by
  have hu : u ≠ t := by
    rintro rfl
    simp [h.unsettled] at ho
  rw [h.outcome u hu, ho, Option.some_or]

namespace Running

variable {made : Nat} {settled : List (Id × Outcome ν ε)}

lemma unsettled (h : Running k k' t made settled) :
    k'.outcome? t = none ∧ k.outcome? t = none ∧ t < k'.futures.size := by
  obtain ⟨a, ha, -⟩ := h.self
  have hnone := h.waking.unsettled ha
  have hor := h.outcome t
  rw [hnone, eq_comm, Option.or_eq_none_iff] at hor
  exact ⟨hnone, hor.1, lt_size_of_activity? ha⟩

/-- No other task has begun. -/
lemma plain (h : Running k k' t made settled) {a : Activity ρ} (ha : k.activity? t = some a)
    {f : Id} (hf : f < k.futures.size + made ∧ k.activity? f = none) :
    f < k'.futures.size ∧ k'.activity? f = none := by
  have hft : f ≠ t := by
    rintro rfl
    simp [ha] at hf
  rw [h.size, h.other f hft]
  exact hf

lemma mustCancel (h : Running k k' t made settled) : k'.mustCancel t = false := by
  obtain ⟨a, ha, hcancel⟩ := h.self
  rw [mustCancel_eq, ha]
  exact hcancel

lemma ends (h : Running k k' t made settled) (o : Outcome ν ε) :
    Turn k (k'.finish t o) t made settled (.ends o) := by
  obtain ⟨hnone, hnone', hlt⟩ := h.unsettled
  have hopen : k'.IsOpen t := ⟨hlt, hnone⟩
  have hfinish : k'.finish t o = k'.settle t o := by
    rw [finish_eq, h.mustCancel]
    cases o <;> rfl
  exact
    { waking := h.waking.finish hopen
      tasksOnly := hfinish ▸ h.tasksOnly.settle t o
      unsettled := hnone'
      size := by rw [hfinish, size_settle, h.size]
      other := fun u hu => by rw [hfinish, activity?_settle_of_ne hu, h.other u hu]
      outcome := fun u hu => by rw [hfinish, outcome?_settle_of_ne hu, h.outcome]
      ended := by
        rintro o ⟨⟩
        rw [hfinish]
        exact ⟨activity?_settle_self hopen, outcome?_settle_self hopen⟩
      waits := fun _ _ hprogress => nomatch hprogress }

lemma waits (h : Running k k' t made settled) (b : ρ) {g : Id} (hg : g < k'.futures.size) :
    Turn k (k'.suspend t b g) t made settled (.waits b g) := by
  obtain ⟨hnone, hnone', -⟩ := h.unsettled
  obtain ⟨a, ha, hcancel⟩ := h.self
  have hsuspend : k'.suspend t b g = k'.waitFor t b g := by
    rw [suspend_eq, h.mustCancel]
    rfl
  have houtcome : ∀ u, (k'.waitFor t b g).outcome? u = k'.outcome? u := fun u => by
    rw [Kernel.waitFor, outcome?_watch]
    exact outcome?_update fun _ => rfl
  rw [hsuspend]
  exact
    { waking := h.waking.waitFor b ha hg
      tasksOnly := h.tasksOnly.waitFor t b g
      unsettled := hnone'
      size := by rw [Kernel.waitFor, size_watch, size_update, h.size]
      other := fun u hu => by
        rw [Kernel.waitFor, activity?_watch, activity?_update_of_ne hu, h.other u hu]
      outcome := fun u _ => by rw [houtcome, h.outcome]
      ended := fun _ hprogress => by cases hprogress
      waits := by
        rintro b g ⟨⟩
        refine ⟨(houtcome t).trans hnone, { a with body := some b, waitingFor := some g }, ?_, rfl,
          rfl, hcancel⟩
        rw [Kernel.waitFor, activity?_watch, activity?_update_map ha] }

end Running

/-- The turn of a task that was cancelled before it began. -/
lemma turn_of_cancelled {n : Nat} {rest : List (Job κ)} (h : k.Waking none) (honly : k.TasksOnly)
    (hready : k.ready = .start t :: rest)
    (hrun : Waking { k with ready := rest, batch := n } (some t)) :
    Turn k (settle { k with ready := rest, batch := n } t .cancelled) t 0 []
      (.ends .cancelled) := by
  obtain ⟨-, a, ha, -⟩ := h.due (.inl (show .start t ∈ k.ready by simp [hready]))
  have hnone := h.unsettled ha
  have honly' : TasksOnly { k with ready := rest, batch := n } :=
    honly.of_views rfl (fun j hj => by rw [hready]; exact List.mem_cons_of_mem _ hj)
      (fun _ => rfl) fun _ => rfl
  have hopen : IsOpen { k with ready := rest, batch := n } t := ⟨lt_size_of_activity? ha, hnone⟩
  exact
    { waking := (hrun.settle fun _ _ => rfl).rest (activity?_settle_self hopen)
      tasksOnly := honly'.settle t .cancelled
      unsettled := hnone
      size := size_settle
      other := fun u hu => activity?_settle_of_ne hu
      outcome := fun u hu => by
        rw [outcome?_settle_of_ne hu, List.lookup_nil, Option.or_none]
        rfl
      ended := by
        rintro o ⟨⟩
        exact ⟨activity?_settle_self hopen, outcome?_settle_self hopen⟩
      waits := fun _ _ hprogress => nomatch hprogress }

/-! ## Asking a task to cancel -/

/-- From `k` to `k'` nothing has changed but how a task was asked to cancel. -/
structure Noted (k k' : Kernel ρ κ ν ε) (t : Id) : Prop where
  size : k'.futures.size = k.futures.size
  outcome : ∀ u, k'.outcome? u = k.outcome? u
  ready : k'.ready = k.ready
  other : ∀ u, u ≠ t → k'.activity? u = k.activity? u
  self : ∀ {a}, k'.activity? t = some a →
    ∃ b, k.activity? t = some b ∧ b.body = a.body ∧ b.waitingFor = a.waitingFor
  kept : ∀ {a}, k.activity? t = some a → ∃ b, k'.activity? t = some b

lemma Noted.plain (h : Noted k k' t) {u : Id} (hnone : k.activity? u = none) :
    k'.activity? u = none := by
  by_cases hu : u = t
  · subst hu
    cases hact : k'.activity? u with
    | none => rfl
    | some a =>
      obtain ⟨b, hb, -⟩ := h.self hact
      simp [hnone] at hb
  · rw [h.other u hu, hnone]

lemma Noted.of_isNote {f : Future ρ κ ν ε → Future ρ κ ν ε} (h : IsNote k t f) :
    Noted k (k.update t f) t where
  size := size_update
  outcome _ := outcome?_note h
  ready := rfl
  other _ hu := activity?_update_of_ne hu
  self := activity?_note h
  kept ha := by
    obtain ⟨b, hb, -⟩ := exists_activity?_note h ha
    exact ⟨b, hb⟩

lemma Noted.refl (k : Kernel ρ κ ν ε) (t : Id) : Noted k k t :=
  ⟨rfl, fun _ => rfl, rfl, fun _ _ => rfl, fun {a} ha => ⟨a, ha, rfl, rfl⟩, fun {a} ha => ⟨a, ha⟩⟩

lemma Noted.trans {k'' : Kernel ρ κ ν ε} (h : Noted k k' t) (h' : Noted k' k'' t) :
    Noted k k'' t where
  size := h'.size.trans h.size
  outcome u := (h'.outcome u).trans (h.outcome u)
  ready := h'.ready.trans h.ready
  other u hu := (h'.other u hu).trans (h.other u hu)
  self ha := by
    obtain ⟨b, hb, hbody, hwaiting⟩ := h'.self ha
    obtain ⟨c, hc, hbody', hwaiting'⟩ := h.self hb
    exact ⟨c, hc, hbody'.trans hbody, hwaiting'.trans hwaiting⟩
  kept ha := by
    obtain ⟨b, hb⟩ := h.kept ha
    exact h'.kept hb

lemma cancel_of_isDone {o : Outcome ν ε} (h : k.outcome? t = some o) : (k.cancel t).1 = k := by
  obtain ⟨F, hF, hout⟩ := Option.bind_eq_some_iff.1 h
  simp [cancel, cancelWithin, hF, hout]

/-- Cancelling a future that is no task settles it. -/
lemma cancelWithin_plain {g : Id} (n : Nat) (hplain : k.activity? g = none)
    (hmembers : k.members g = []) :
    k.cancelWithin (n + 1) g = (k, false) ∨
      k.cancelWithin (n + 1) g = (k.settle g .cancelled, true) := by
  cases hG : k.futures[g]? with
  | none => exact .inl (by simp only [cancelWithin, hG])
  | some G =>
    have hact : G.activity = none := by simpa [activity?, hG] using hplain
    have hmembers : G.members = [] := by simpa [members, hG] using hmembers
    cases hout : G.outcome with
    | some o =>
      refine .inl ?_
      simp only [cancelWithin, hG, hout, Option.isSome_some, if_true]
    | none =>
      refine .inr ?_
      simp only [cancelWithin, hG, hout, hact, hmembers, Option.isSome_none, Bool.false_eq_true,
        if_false, List.isEmpty_nil, if_true]

/-- A task that is asked to cancel passes that on to the future that it waits for, if this is no
task, or keeps it in mind. -/
lemma cancel_cases {a : Activity ρ} (hmembers : ∀ g, k.members g = [])
    (hopen : k.outcome? t = none) (ha : k.activity? t = some a)
    (hplain : ∀ g, a.waitingFor = some g → k.activity? g = none) :
    ∃ k', Noted k k' t ∧
      ((k.cancel t).1 = k' ∨
        ∃ g, a.waitingFor = some g ∧ (k.cancel t).1 = k'.settle g .cancelled) := by
  obtain ⟨F, hF, hact⟩ := Option.bind_eq_some_iff.1 ha
  have hout : F.outcome = none := by simpa [outcome?, hF] using hopen
  have hrequest := isNote_ask ha
  generalize hk : (k.update t fun f =>
    { f with activity := some { a with cancelRequests := a.cancelRequests + 1 } }) = k₁
  have hnoted : Noted k k₁ t := hk ▸ Noted.of_isNote hrequest
  have hkeep := hnoted.trans (.of_isNote (isNote_keep k₁ t))
  have hsize : k.futures.size = k.futures.size - 1 + 1 :=
    (Nat.sub_add_cancel (Nat.one_le_of_lt (lt_size_of_activity? ha))).symm
  rw [cancel, cancelWithin]
  simp only [hF, hout, Option.isSome_none, Bool.false_eq_true, if_false, hact, hk]
  cases hg : a.waitingFor with
  | none => exact ⟨_, hkeep, .inl rfl⟩
  | some g =>
    dsimp only
    have hplain₁ : k₁.activity? g = none := hnoted.plain (hplain g hg)
    have hmembers₁ : k₁.members g = [] := by
      rw [← hmembers g, ← hk]
      exact members_update fun _ => rfl
    rw [hsize]
    rcases cancelWithin_plain (k.futures.size - 1) hplain₁ hmembers₁ with heq | heq <;> rw [heq]
    · exact ⟨_, hkeep, .inl rfl⟩
    · exact ⟨k₁, hnoted, .inr ⟨g, rfl, rfl⟩⟩

end SuggestBridge.Task.Kernel
