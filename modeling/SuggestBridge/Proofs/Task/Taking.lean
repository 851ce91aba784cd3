import SuggestBridge.Proofs.Task.Acting

/-!
# One job of a kernel that keeps to a plan

`Next` says what the next job can be: bookkeeping, the end of a task that was cancelled before it
began, the turn of a task, or something that the owner is told.  In each case the kernel still keeps
to its plan and every other task is where it was.  A turn ends when the task waits
(`Follows.suspend`) or has ended (`Follows.finish`).
-/

namespace SuggestBridge.Task.Kernel

variable {ρ κ ν ε τ : Type} {k k' : Kernel ρ κ ν ε} {p : Plan τ} {quiet : ρ → Prop}
  {x g t j : Id} {o : Outcome ν ε} {job : Job κ} {rest : List (Job κ)} {n : Nat}

/-! ## Timers that are due -/

/-- Jobs of timers have joined the queue. -/
structure Passed (k k' : Kernel ρ κ ν ε) : Prop where
  futures : k'.futures = k.futures
  ready : ∃ js, k'.ready = k.ready ++ js ∧ ∀ job ∈ js, ∃ t ∈ k.timers, t.job = job
  timers : ∀ t ∈ k'.timers, t ∈ k.timers

namespace Passed

lemma of_timers (hfutures : k'.futures = k.futures) (hready : k'.ready = k.ready)
    (htimers : ∀ t ∈ k'.timers, t ∈ k.timers) : Passed k k' :=
  ⟨hfutures, ⟨[], by rw [hready, List.append_nil], by simp⟩, htimers⟩

lemma trans {k'' : Kernel ρ κ ν ε} (h : Passed k k') (h' : Passed k' k'') : Passed k k'' where
  futures := h'.futures.trans h.futures
  ready := by
    obtain ⟨js, hready, hjs⟩ := h.ready
    obtain ⟨js', hready', hjs'⟩ := h'.ready
    refine ⟨js ++ js', by rw [hready', hready, List.append_assoc], fun job hjob => ?_⟩
    rcases List.mem_append.1 hjob with hjob | hjob
    · exact hjs job hjob
    · obtain ⟨t, ht, heq⟩ := hjs' job hjob
      exact ⟨t, h.timers t ht, heq⟩
  timers t ht := h.timers t (h'.timers t ht)

lemma dropCancelled (k : Kernel ρ κ ν ε) (fuel : Nat) : Passed k (k.dropCancelled fuel) := by
  induction fuel generalizing k with
  | zero => exact .of_timers rfl rfl fun _ => id
  | succ fuel ih =>
    rw [Kernel.dropCancelled]
    split
    · split
      · split
        · next t timers hpop =>
          have hpopped : Passed k { k with timers } :=
            .of_timers rfl rfl (Timers.mem_pop? hpop).2
          exact hpopped.trans (ih _)
        · exact .of_timers rfl rfl fun _ => id
      · exact .of_timers rfl rfl fun _ => id
    · exact .of_timers rfl rfl fun _ => id

lemma collectDue (k : Kernel ρ κ ν ε) (fuel : Nat) : Passed k (k.collectDue fuel) := by
  induction fuel generalizing k with
  | zero => exact .of_timers rfl rfl fun _ => id
  | succ fuel ih =>
    rw [Kernel.collectDue]
    split
    · split
      · split
        · next t timers hpop =>
          obtain ⟨htop, hrest⟩ := Timers.mem_pop? hpop
          dsimp only
          split
          · have hpopped : Passed k { k with timers } := .of_timers rfl rfl hrest
            exact hpopped.trans (ih _)
          · have hjoined : Passed k (soon { k with timers } t.job) := by
              refine ⟨rfl, ⟨[t.job], rfl, fun job hjob => ?_⟩, hrest⟩
              rw [List.mem_singleton.1 hjob]
              exact ⟨t, htop, rfl⟩
            exact hjoined.trans (ih _)
        · exact .of_timers rfl rfl fun _ => id
      · exact .of_timers rfl rfl fun _ => id
    · exact .of_timers rfl rfl fun _ => id

lemma beginPass (k : Kernel ρ κ ν ε) (limit : Float) : Passed k (k.beginPass limit) := by
  have hdrop := dropCancelled k k.timers.size
  rw [Kernel.beginPass]
  generalize k.dropCancelled k.timers.size = k₁ at hdrop ⊢
  refine hdrop.trans ?_
  have hclock : ∀ now, Passed k₁ { k₁ with now := now } := fun now => .of_timers rfl rfl fun _ => id
  have hcollect : ∀ k₂ : Kernel ρ κ ν ε, Passed k₁ k₂ →
      Passed k₁ { k₂.collectDue k₂.timers.size with
        batch := (k₂.collectDue k₂.timers.size).ready.length } := fun k₂ h => by
    obtain ⟨hfutures, hready, htimers⟩ := h.trans (collectDue k₂ k₂.timers.size)
    exact ⟨hfutures, hready, htimers⟩
  split
  · split
    · split
      · exact hcollect _ (hclock _)
      · exact hcollect _ (.of_timers rfl rfl fun _ => id)
    · exact hcollect _ (.of_timers rfl rfl fun _ => id)
  · exact hcollect _ (.of_timers rfl rfl fun _ => id)

lemma follows (h : Passed k k') (hf : k.Follows p) : k'.Follows p := by
  obtain ⟨hfutures, ⟨js, hready, hjs⟩, htimers⟩ := h
  refine hf.queue hfutures (fun {job} hjob => ?_) (fun hjob => ?_) fun ht => .inl ⟨_, htimers _ ht, rfl⟩
  · rw [hready, List.mem_append] at hjob
    refine hjob.imp id fun hjob => ?_
    obtain ⟨t, ht, rfl⟩ := hjs job hjob
    exact (hf.timers ht).proper
  · rw [hready]
    exact List.mem_append_left _ hjob

lemma waking {running : Option Id} (h : Passed k k') (hf : k.Follows p) (hw : k.Waking running) :
    k'.Waking running := by
  obtain ⟨hfutures, ⟨js, hready, hjs⟩, -⟩ := h
  refine hw.of_rousing (by rw [hfutures]) (fun _ => by rw [outcome?, outcome?, hfutures])
    (fun _ => by rw [activity?, activity?, hfutures])
    (fun _ => by rw [watchers, watchers, hfutures]) ?_
  have hnone : js.filter Job.rouses = [] := by
    rw [List.filter_eq_nil_iff]
    intro job hjob
    obtain ⟨t, ht, rfl⟩ := hjs job hjob
    simp [(hf.timers ht).rouses]
  rw [hready, List.filter_append, hnone, List.append_nil]

lemma outcome?_eq (h : Passed k k') (x : Id) : k'.outcome? x = k.outcome? x := by
  rw [outcome?, outcome?, h.futures]

lemma activity?_eq (h : Passed k k') (x : Id) : k'.activity? x = k.activity? x := by
  rw [activity?, activity?, h.futures]

lemma members_eq (h : Passed k k') (x : Id) : k'.members x = k.members x := by
  rw [members, members, h.futures]

lemma grows (h : Passed k k') : Grows quiet k k' :=
  .of_activity (by rw [h.futures]) (fun ho => (h.outcome?_eq _).trans ho) h.activity?_eq h.members_eq

end Passed

/-! ## Taking the first job -/

/-- The first job is taken from the queue. -/
def dropJob (k : Kernel ρ κ ν ε) (rest : List (Job κ)) (n : Nat) : Kernel ρ κ ν ε :=
  { k with ready := rest, batch := n }

lemma grows_dropJob : Grows quiet k (k.dropJob rest n) :=
  .of_activity rfl id (fun _ => rfl) fun _ => rfl

/-- A report of an outcome that is to be taken over can be dropped once it has been. -/
lemma Follows.dropJob (h : k.Follows p) (hready : k.ready = job :: rest)
    (hjob : ∀ x u, job = .notify (.relay x) u → k.outcome? x ≠ none) :
    (k.dropJob rest n).Follows p := by
  have hwide : Widens k (k.dropJob rest n) := .of_activity rfl (fun _ hx => hx) fun _ => rfl
  have hp := Plan.Extends.refl p k.futures.size
  exact
    { relays := h.relays
      marks := h.marks
      watching := fun hw => hwide.aims hp h.relay_lt (h.watching hw)
      jobs := fun hj => hwide.proper hp h.relay_lt id
        (h.jobs (by rw [hready]; exact List.mem_cons_of_mem _ hj))
      timers := fun ht => hwide.timely hp (h.timers ht)
      members := h.members
      waiting := h.waiting
      asked := h.asked
      pending := h.pending
      relaying := fun {x c u} hx hnone => by
        refine (h.relaying hx hnone).imp id fun hmem => ?_
        rw [hready] at hmem
        rcases List.mem_cons.1 hmem with heq | hmem
        · exact absurd hnone (hjob x u heq.symm)
        · exact hmem
      relayed := h.relayed }

lemma Waking.dropJob {running : Option Id} (h : k.Waking running) (hready : k.ready = job :: rest)
    (hjob : job.rouses = false) : (k.dropJob rest n).Waking running := by
  refine h.of_rousing rfl (fun _ => rfl) (fun _ => rfl) (fun _ => rfl) ?_
  rw [hready, List.filter_cons_of_neg (by simp [hjob])]
  rfl

/-- Settling before or after the first job is dropped is the same. -/
lemma settle_dropJob (hready : k.ready = job :: rest) :
    (k.dropJob rest n).settle x o =
      (k.settle x o).dropJob (k.settle x o).ready.tail n := by
  by_cases hopen : k.IsOpen x
  · have hopen' : (k.dropJob rest n).IsOpen x := hopen
    rw [settle_of_isOpen hopen, settle_of_isOpen hopen', hready]
    rfl
  · have hopen' : ¬(k.dropJob rest n).IsOpen x := hopen
    rw [settle_of_not_isOpen hopen, settle_of_not_isOpen hopen', hready]
    rfl

/-- A report of an outcome that is to be taken over is carried out. -/
lemma Follows.deliver (h : k.Follows p) {u : Id} (hready : k.ready = .notify (.relay x) u :: rest)
    (ho : k.outcome? u = some o) : ((k.dropJob rest n).settle x o).Follows p := by
  have hmem : .notify (.relay x) u ∈ k.ready := by simp [hready]
  have haims := (h.jobs hmem).2 x rfl
  have hsettled : (k.settle x o).Follows p := by
    refine h.settle fun c v hcv => ?_
    rcases haims with hloose | ⟨-, d, hd⟩
    · simp [hloose.2.2.1] at hcv
    · rw [hd] at hcv
      cases hcv
      exact .inl ho
  have hlt : x < k.futures.size := by
    rcases haims with hloose | ⟨-, d, hd⟩
    · exact hloose.1
    · exact h.relay_lt hd
  have hhead : (k.settle x o).ready =
      .notify (.relay x) u :: (k.settle x o).ready.tail := by
    by_cases hopen : k.IsOpen x
    · rw [ready_settle hopen, hready]
      rfl
    · rw [settle_of_not_isOpen hopen, hready]
      rfl
  rw [settle_dropJob hready]
  refine hsettled.dropJob hhead fun y v heq => ?_
  cases heq
  rw [outcome?_settle hlt, if_pos rfl]
  cases k.outcome? x <;> simp

/-! ## What the next job can be -/

/-- A task has its turn. -/
structure Roused (k k' : Kernel ρ κ ν ε) (t : Id) : Prop where
  size : k'.futures.size = k.futures.size
  members : ∀ j, k'.members j = k.members j
  outcome : ∀ j, k'.outcome? j = k.outcome? j
  other : ∀ u, u ≠ t → k'.activity? u = k.activity? u
  self : ∃ a b, k.activity? t = some a ∧ k'.activity? t = some b ∧ b.body = none ∧
    b.waitingFor = none ∧ b.mustCancel = false ∧ b.cancelRequests = a.cancelRequests

/-- A task has ended. -/
structure Ends (k k' : Kernel ρ κ ν ε) (t : Id) (o : Outcome ν ε) : Prop where
  size : k'.futures.size = k.futures.size
  members : ∀ j, k'.members j = k.members j
  outcome : ∀ j, j ≠ t → k'.outcome? j = k.outcome? j
  other : ∀ u, u ≠ t → k'.activity? u = k.activity? u
  self : k.outcome? t = none ∧ k'.outcome? t = some o ∧ k'.activity? t = none

lemma Roused.widens {t : Id} (h : Roused k k' t) : Widens k k' := by
  refine .of_activity h.size (fun x hx => ?_) h.members
  obtain ⟨a, -, ha, -⟩ := h.self
  have hne : x ≠ t := by
    rintro rfl
    cases ha.symm.trans hx
  exact (h.other x hne).trans hx

lemma Ends.widens {t : Id} {o : Outcome ν ε} (h : Ends k k' t o) : Widens k k' := by
  refine .of_activity h.size (fun x hx => ?_) h.members
  by_cases hxt : x = t
  · exact hxt ▸ h.self.2.2
  · exact (h.other x hxt).trans hx

/-- What the next job is, and the kernel that it is done with. -/
inductive Next (p : Plan τ) (quiet : ρ → Prop) (k k' : Kernel ρ κ ν ε) :
    Activation ρ κ ν ε → Prop where
  /-- Somebody is told that a future is settled. -/
  | done (follows : k'.Follows p) (waking : k'.Waking none) (grows : Grows quiet k k')
      (marked : ∀ {u}, p.mark? u ≠ none → k'.activity? u = k.activity? u) : Next p quiet k k' .done
  /-- A task that was cancelled before it began has ended. -/
  | stillborn {t : Id} {a : Activity ρ} (activity : k.activity? t = some a) (idle : a.waitingFor = none)
      (must : a.mustCancel = true) (follows : k'.Follows p) (waking : k'.Waking none)
      (ends : Ends k k' t .cancelled) : Next p quiet k k' .done
  | begin {t : Id} {a : Activity ρ} {b : ρ} (activity : k.activity? t = some a)
      (body : a.body = some b) (idle : a.waitingFor = none) (must : a.mustCancel = false)
      (follows : k'.Follows p) (waking : k'.Waking (some t)) (roused : Roused k k' t) :
      Next p quiet k k' (.begin t b)
  /-- A task goes on with the outcome of what it waited for, or with a request to cancel. -/
  | resume {t g : Id} {a : Activity ρ} {b : ρ} {o : Outcome ν ε} (activity : k.activity? t = some a)
      (body : a.body = some b) (waited : a.waitingFor = some g) (outcome : k.outcome? g = some o)
      (follows : k'.Follows p) (waking : k'.Waking (some t)) (roused : Roused k k' t) :
      Next p quiet k k' (.resume t b (if a.mustCancel then .cancelled else o))
  | hook {h : κ} {source : Option Id} (follows : k'.Follows p) (waking : k'.Waking none)
      (grows : Grows quiet k k')
      (marked : ∀ {u}, p.mark? u ≠ none → k'.activity? u = k.activity? u) :
      Next p quiet k k' (.hook h source)

lemma Next.of_passed {k₀ : Kernel ρ κ ν ε} {act : Activation ρ κ ν ε} (hp : Passed k k₀)
    (h : Next p quiet k₀ k' act) : Next p quiet k k' act := by
  have roused : ∀ {t}, Roused k₀ k' t → Roused k k' t := fun h =>
    { size := by rw [h.size, hp.futures]
      members := fun j => (h.members j).trans (hp.members_eq j)
      outcome := fun j => (h.outcome j).trans (hp.outcome?_eq j)
      other := fun u hu => (h.other u hu).trans (hp.activity?_eq u)
      self := by
        obtain ⟨a, b, ha, hb⟩ := h.self
        exact ⟨a, b, hp.activity?_eq _ ▸ ha, hb⟩ }
  cases h with
  | done hf hw hgrows hmarked =>
    exact .done hf hw (hp.grows.trans hgrows) fun hu => (hmarked hu).trans (hp.activity?_eq _)
  | stillborn ha hidle hmust hf hw hends =>
    rw [hp.activity?_eq] at ha
    refine .stillborn ha hidle hmust hf hw ⟨by rw [hends.size, hp.futures],
      fun j => (hends.members j).trans (hp.members_eq j), fun j hj => ?_, fun u hu => ?_, ?_⟩
    · exact (hends.outcome j hj).trans (hp.outcome?_eq j)
    · exact (hends.other u hu).trans (hp.activity?_eq u)
    · rw [← hp.outcome?_eq]
      exact hends.self
  | begin ha hbody hidle hmust hf hw hroused =>
    rw [hp.activity?_eq] at ha
    exact .begin ha hbody hidle hmust hf hw (roused hroused)
  | resume ha hbody hwaited ho hf hw hroused =>
    rw [hp.activity?_eq] at ha
    rw [hp.outcome?_eq] at ho
    exact .resume ha hbody hwaited ho hf hw (roused hroused)
  | hook hf hw hgrows hmarked =>
    exact .hook hf hw (hp.grows.trans hgrows) fun hu => (hmarked hu).trans (hp.activity?_eq _)

/-- Bookkeeping that is done by acts. -/
lemma next_of_acts (hf : k.Follows p) (hw : k.Waking none) (hready : k.ready = job :: rest)
    (hrouses : job.rouses = false)
    (hrelay : ∀ x u, job = .notify (.relay x) u → k.outcome? x ≠ none)
    (hacts : Acts p quiet (k.dropJob rest n) k') : Next p quiet k k' .done := by
  have hf' : (k.dropJob rest n).Follows p := hf.dropJob hready hrelay
  have hw' : (k.dropJob rest n).Waking none := hw.dropJob hready hrouses
  exact .done (Acts.follows hacts hf') (Acts.waking hacts hw' nofun)
    (grows_dropJob.trans (Acts.grows hacts)) fun hu => Acts.marked hacts hf' hu

lemma Taken.roused (h : Taken k k' t rest) : Roused k k' t :=
  ⟨h.size, h.members, h.outcome, h.other, h.self⟩

/-- A task that has its turn is in nobody's way. -/
lemma Follows.taken (hf : k.Follows p) (hready : k.ready = job :: rest) (hjob : job.rouses = true)
    (h : Taken k k' t rest) : k'.Follows p := by
  obtain ⟨a, b, ha, hb, hbody, hidle, hmust, -⟩ := h.self
  have hdrop : (k.dropJob rest 0).Follows p :=
    hf.dropJob hready fun x u heq => by simp [heq, Job.rouses] at hjob
  have hact : ∀ {u c}, k'.activity? u = some c → c = b ∧ u = t ∨ k.activity? u = some c := by
    intro u c hc
    by_cases hu : u = t
    · subst hu
      rw [hb] at hc
      cases hc
      exact .inl ⟨rfl, rfl⟩
    · exact .inr (by rwa [h.other u hu] at hc)
  refine hdrop.retask h.size h.ready h.timers h.outcome h.watchers h.members (fun x hx => ?_)
    (fun hc hx => ?_) (fun hc hm => ?_) (fun hc hsome => ?_) (fun _ _ hc hx => ?_)
  · have hne : x ≠ t := by
      rintro rfl
      exact Option.some_ne_none a (ha.symm.trans hx)
    exact (h.other x hne).trans hx
  · rcases hact hc with ⟨rfl, rfl⟩ | hc
    · simp [hidle] at hx
    · exact hf.waiting hc hx
  · rcases hact hc with ⟨rfl, rfl⟩ | hc
    · simp [hmust] at hm
    · exact hf.asked hc hm
  · rcases hact hc with ⟨rfl, rfl⟩ | hc
    · exact absurd hbody hsome
    · exact hf.pending hc hsome
  · rcases hact hc with ⟨rfl, rfl⟩ | hc
    · simp [hidle] at hx
    · exact ⟨_, hc, hx, id⟩

variable [Inhabited ν]

/-- Reports to a countdown change no task. -/
lemma acts_count {waiter : Id} (hx : k.Loose p waiter) : Acts p quiet k (k.count waiter) := by
  have hexpect : Act p quiet k (k.expect waiter (· - 1)) := .expect waiter _
  have hsettle : Act p quiet (k.expect waiter (· - 1))
      ((k.expect waiter (· - 1)).settle waiter (.value default)) := .settle _ hx.expect
  rw [count]
  split
  · dsimp only
    split
    · exact .tail (.single hexpect) hsettle
    · exact .single hexpect
  · exact .refl

/-- Reports to a group change no task. -/
lemma acts_noteMember {group : Id} (hx : k.Loose p group) (o : Outcome ν ε) :
    Acts p quiet k (k.noteMember group o) := by
  have hexpect : Act p quiet k (k.expect group (· - 1)) := .expect group _
  have hsettle : ∀ o, Act p quiet (k.expect group (· - 1))
      ((k.expect group (· - 1)).settle group o) := fun o => .settle _ hx.expect
  cases o with
  | value v =>
    simp only [noteMember]
    split
    · split
      · exact .refl
      · split
        · exact .tail (.single hexpect) (hsettle _)
        · exact .single hexpect
    · exact .refl
  | failure e => exact .single (.settle _ hx)
  | cancelled => exact .single (.settle _ hx)

/-- Every job is of one of the kinds that `Next` lists. -/
lemma next_perform {act : Activation ρ κ ν ε} (hf : k.Follows p) (hw : k.Waking none)
    (hready : k.ready = job :: rest) (h : perform (k.dropJob rest n) job = (k', act)) :
    Next p quiet k k' act := by
  have hmem : job ∈ k.ready := by simp [hready]
  have hproper := hf.jobs hmem
  cases job with
  | start t =>
    obtain ⟨a, b, ha, hbody, hidle, hcase⟩ := perform_start hw hready n
    rcases hcase with ⟨hmust, heq, hrun⟩ | ⟨k₁, heq, htaken⟩
    · rw [dropJob, heq] at h
      cases h
      have hnone := hw.unsettled ha
      have hopen : (k.dropJob rest n).IsOpen t := ⟨lt_size_of_activity? ha, hnone⟩
      have hplan : p.relay? t = none := by
        cases hrelay : p.relay? t with
        | none => rfl
        | some cu => simp [(hf.relays hrelay).2.2.1] at ha
      have hfollows : (k.dropJob rest n).Follows p := hf.dropJob hready (by rintro _ _ ⟨⟩)
      refine .stillborn ha hidle hmust (hfollows.settle_free hplan)
        ((hrun.settle fun _ _ => rfl).rest (activity?_settle_self hopen)) ⟨size_settle,
          fun _ => members_settle, fun j hj => ?_, fun u hu => ?_, hnone, outcome?_settle_self hopen, activity?_settle_self hopen⟩
      · exact outcome?_settle_of_ne hj
      · exact activity?_settle_of_ne hu
    · rw [dropJob, heq] at h
      cases h
      obtain ⟨a', c, ha', -, -, -, -, -⟩ := htaken.self
      have hmust : a.mustCancel = false := by
        by_contra hmust
        rw [perform, start_eq (k := { k with ready := rest, batch := n }) ha hbody,
          if_pos (by simpa using hmust)] at heq
        cases heq
      exact .begin ha hbody hidle hmust (hf.taken hready rfl htaken) htaken.waking htaken.roused
  | proceed t => exact hproper.elim
  | complete x =>
    cases h
    exact next_of_acts hf hw hready rfl (by rintro _ _ ⟨⟩) (.single (.settle _ hproper))
  | hook h' =>
    cases h
    exact .hook (hf.dropJob hready (by rintro _ _ ⟨⟩)) (hw.dropJob hready rfl) grows_dropJob fun _ => rfl
  | notify w source =>
    obtain ⟨⟨o, ho⟩, haims⟩ := hproper
    have ho' : (k.dropJob rest n).outcome? source = some o := ho
    -- what the watcher settles is loose, unless the watcher relays an outcome
    have hloose : ∀ {x}, w.target? = some x → (∀ y, w ≠ .relay y) →
        (k.dropJob rest n).Loose p x := by
      intro x hx hne
      rcases haims x hx with hloose | ⟨heq, -⟩
      · exact hloose
      · exact absurd heq (hne x)
    cases w with
    | wake t =>
      obtain ⟨a, b, o', k₁, ha, hbody, hwaited, hg, heq, htaken⟩ := perform_notify_wake hw hready n
      rw [dropJob, heq] at h
      cases h
      exact .resume ha hbody hwaited hg (hf.taken hready rfl htaken) htaken.waking htaken.roused
    | relay x =>
      simp only [perform, ho'] at h
      cases h
      have hplain : k.activity? x = none := by
        rcases haims x rfl with hloose | ⟨-, c, hc⟩
        · exact hloose.2.1
        · exact (hf.relays hc).2.2.1
      have hw' : (k.dropJob rest n).Waking none := hw.dropJob hready rfl
      exact .done (hf.deliver hready ho) (hw'.settle_plain hplain)
        (.trans grows_dropJob (.of_activity size_settle outcome?_settle_of_eq_some
          (fun _ => activity?_settle_of_plain hplain) fun _ => members_settle))
        fun _ => activity?_settle_of_plain hplain
    | release x =>
      simp only [perform, ho'] at h
      cases h
      exact next_of_acts hf hw hready rfl (by rintro _ _ ⟨⟩) (.single (.settle _ (hloose rfl (by rintro _ ⟨⟩))))
    | countdown x =>
      simp only [perform, ho'] at h
      cases h
      exact next_of_acts hf hw hready rfl (by rintro _ _ ⟨⟩) (acts_count (hloose rfl (by rintro _ ⟨⟩)))
    | gather x =>
      simp only [perform, ho'] at h
      cases h
      exact next_of_acts hf hw hready rfl (by rintro _ _ ⟨⟩) (acts_noteMember (hloose rfl (by rintro _ ⟨⟩)) o)
    | hook h' =>
      simp only [perform, ho'] at h
      cases h
      exact .hook (hf.dropJob hready (by rintro _ _ ⟨⟩)) (hw.dropJob hready rfl) grows_dropJob fun _ => rfl

/-- A job that is done next was the first of those that were ready. -/
lemma ready_of_next {k₀ : Kernel ρ κ ν ε} {act : Activation ρ κ ν ε}
    (h : (match k₀.ready with
      | [] => none
      | job :: rest => some (perform (k₀.dropJob rest (k₀.batch - 1)) job)) = some (k', act)) :
    ∃ job rest, k₀.ready = job :: rest ∧
      perform (k₀.dropJob rest (k₀.batch - 1)) job = (k', act) := by
  split at h
  · cases h
  · next job rest hready => exact ⟨job, rest, hready, Option.some.inj h⟩

/-- The next job is the first one of the queue, which timers that are due may have joined. -/
lemma perform_of_next? {act : Activation ρ κ ν ε} {limit : Float}
    (h : k.next? limit = some (k', act)) : ∃ k₀, Passed k k₀ ∧ ∃ job rest, k₀.ready = job :: rest ∧
      perform (k₀.dropJob rest (k₀.batch - 1)) job = (k', act) := by
  by_cases hbatch : k.batch = 0
  · refine ⟨k.beginPass limit, .beginPass k limit, ready_of_next ?_⟩
    rw [next?, if_pos hbatch] at h
    exact h
  · refine ⟨k, .of_timers rfl rfl fun _ => id, ready_of_next ?_⟩
    rw [next?, if_neg hbatch] at h
    exact h

/-- What a kernel that keeps to a plan does next. -/
theorem next_of_next? {act : Activation ρ κ ν ε} {limit : Float} (hf : k.Follows p)
    (hw : k.Waking none) (h : k.next? limit = some (k', act)) : Next p quiet k k' act := by
  obtain ⟨k₀, hpassed, job, rest, hready, h₀⟩ := perform_of_next? h
  exact .of_passed hpassed (next_perform (hpassed.follows hf) (hpassed.waking hf hw) hready h₀)

/-! ## The end of a turn -/

/-- The running task waits for a future from now on.  A request that came while it ran is passed
on. -/
structure Paused (k k' : Kernel ρ κ ν ε) (t : Id) (b : ρ) (g : Id) : Prop where
  size : k'.futures.size = k.futures.size
  members : ∀ j, k'.members j = k.members j
  outcome : ∀ {x o}, k.outcome? x = some o → k'.outcome? x = some o
  kept : ∀ {u a}, u ≠ t → k.activity? u = some a → ∃ c, k'.activity? u = some c ∧
    c.body = a.body ∧ c.waitingFor = a.waitingFor ∧ (a.cancelRequests ≠ 0 → c.cancelRequests ≠ 0)
  old : ∀ {u c}, k'.activity? u = some c → ∃ a, k.activity? u = some a
  firm : ∀ {u a}, u ≠ t → k.activity? u = some a → a.mustCancel = true →
    ∃ c, k'.activity? u = some c ∧ c.mustCancel = true
  self : ∃ a c, k.activity? t = some a ∧ k'.activity? t = some c ∧ c.body = some b ∧
    c.waitingFor = some g ∧ (c.cancelRequests ≠ 0 ↔ a.cancelRequests ≠ 0)

omit [Inhabited ν] in
lemma Paused.widens {b : ρ} (h : Paused k k' t b g) : Widens k k' := by
  refine .of_activity h.size (fun x hx => ?_) h.members
  cases hx' : k'.activity? x with
  | none => rfl
  | some c =>
    obtain ⟨a, ha⟩ := h.old hx'
    cases hx.symm.trans ha

omit [Inhabited ν] in
lemma activity?_waitFor_self {a : Activity ρ} {b : ρ} (ha : k.activity? t = some a) :
    (k.waitFor t b g).activity? t = some { a with body := some b, waitingFor := some g } := by
  rw [waitFor, activity?_watch, activity?_update_map ha]

omit [Inhabited ν] in
lemma activity?_waitFor_of_ne {b : ρ} (h : j ≠ t) :
    (k.waitFor t b g).activity? j = k.activity? j := by
  rw [waitFor, activity?_watch, activity?_update_of_ne h]

omit [Inhabited ν] in
lemma outcome?_waitFor {b : ρ} : (k.waitFor t b g).outcome? j = k.outcome? j := by
  rw [waitFor, outcome?_watch]
  exact outcome?_update fun _ => rfl

omit [Inhabited ν] in
lemma members_waitFor {b : ρ} : (k.waitFor t b g).members j = k.members j := by
  rw [waitFor, members_watch]
  exact members_update fun _ => rfl

omit [Inhabited ν] in
lemma size_waitFor {b : ρ} : (k.waitFor t b g).futures.size = k.futures.size := by
  rw [waitFor, size_watch, size_update]

omit [Inhabited ν] in
lemma Bears.uncancel (k : Kernel ρ κ ν ε) (t : Id) : Bears quiet k (k.uncancel t) where
  size := Nat.le_of_eq size_update.symm
  plain _ hx := by rw [Kernel.uncancel, activity?_update_maps, hx]; rfl
  members _ := members_note (isNote_uncancel k t)
  outcome ho := (outcome?_note (isNote_uncancel k t)).trans ho
  kept {u a} ha := by
    refine ⟨_, (activity?_update_maps _).trans (congrArg _ ha), ?_⟩
    dsimp only
    split <;> exact ⟨rfl, rfl, id⟩
  begun {u b} hb := by
    rw [Kernel.uncancel, activity?_update_maps] at hb
    obtain ⟨a, ha, -⟩ := Option.map_eq_some_iff.1 hb
    exact .inl ⟨a, ha⟩

omit [Inhabited ν] in
/-- Once the running task waits, at most a request to cancel is passed on. -/
lemma bears_suspend (k : Kernel ρ κ ν ε) (t : Id) (b : ρ) (g : Id) :
    Bears quiet (k.waitFor t b g) (k.suspend t b g) := by
  have hcancel : Grows quiet (k.waitFor t b g) ((k.waitFor t b g).cancel g).1 := .cancel _ g
  rw [suspend_eq]
  split
  · split
    · exact hcancel.toBears.trans (.uncancel _ t)
    · exact hcancel.toBears
  · exact .refl _

omit [Inhabited ν] in
lemma activity?_waitFor {b : ρ} {u : Id} :
    (k.waitFor t b g).activity? u = (k.activity? u).map fun a =>
      if u = t then { a with body := some b, waitingFor := some g } else a := by
  rw [Kernel.waitFor, activity?_watch, activity?_update_maps]

omit [Inhabited ν] in
lemma Widens.suspend (k : Kernel ρ κ ν ε) (t : Id) (b : ρ) (g : Id) : Widens k (k.suspend t b g) := by
  have hwait : Widens k (k.waitFor t b g) :=
    .of_activity size_waitFor (fun _ hx => by rw [activity?_waitFor, hx]; rfl) fun _ => members_waitFor
  have hbears : Bears (fun _ => True) (k.waitFor t b g) (k.suspend t b g) := bears_suspend k t b g
  exact hwait.trans hbears.toWidens

omit [Inhabited ν] in
/-- Whoever waits has not ended, and stands where it is to go on. -/
lemma exists_activity?_suspend {a : Activity ρ} (ha : k.activity? t = some a) (b : ρ) (g : Id) :
    ∃ c, (k.suspend t b g).activity? t = some c ∧ c.body = some b ∧ c.waitingFor = some g := by
  have hbears : Bears (fun _ => True) (k.waitFor t b g) (k.suspend t b g) := bears_suspend k t b g
  obtain ⟨c, hc, hbody, hwaiting, -⟩ := hbears.kept (activity?_waitFor_self ha)
  exact ⟨c, hc, hbody, hwaiting⟩

omit [Inhabited ν] in
/-- A future that takes over an outcome is waited for while it is open, by the task that it was made
for. -/
lemma Follows.waitFor (h : k.Follows p) {a : Activity ρ} (ha : k.activity? t = some a) (b : ρ)
    (hg : g < k.futures.size) (hmark : p.mark? g = none)
    (hrelay : ∀ {c u}, p.relay? g = some (c, u) → c = t ∧ k.outcome? g = none) :
    (k.waitFor t b g).Follows p := by
  have hself : (k.update t fun f =>
      { f with
        activity := f.activity.map fun a =>
          { a with body := some b, waitingFor := some g } }).activity? t =
      some { a with body := some b, waitingFor := some g } := activity?_update_map ha
  have hother : ∀ {u}, u ≠ t → (k.update t fun f =>
      { f with
        activity := f.activity.map fun a =>
          { a with body := some b, waitingFor := some g } }).activity? u = k.activity? u :=
    fun hu => activity?_update_of_ne hu
  have hact : ∀ {u c}, (k.update t fun f =>
      { f with
        activity := f.activity.map fun a =>
          { a with body := some b, waitingFor := some g } }).activity? u = some c →
      u = t ∧ c = { a with body := some b, waitingFor := some g } ∨ k.activity? u = some c := by
    intro u c hc
    by_cases hu : u = t
    · subst hu
      rw [hself] at hc
      exact .inl ⟨rfl, (Option.some.inj hc).symm⟩
    · exact .inr (by rwa [hother hu] at hc)
  rw [Kernel.waitFor]
  refine Follows.watch (h.retask size_update rfl rfl (fun _ => outcome?_update fun _ => rfl)
    (fun _ => watchers_update fun _ => rfl) (fun _ => members_update fun _ => rfl) (fun x hx => ?_)
    (fun hc hx => ?_) (fun hc hm => ?_) (fun hc hsome => ?_) (fun hy hne hc hx => ?_)) (fun _ hw => by cases hw)
  · have hne : x ≠ t := by
      rintro rfl
      simp [ha] at hx
    exact (hother hne).trans hx
  · rcases hact hc with ⟨rfl, rfl⟩ | hc
    · cases hx
      exact ⟨hg, hmark, fun c u hcu => (hrelay hcu).1⟩
    · exact h.waiting hc hx
  · rcases hact hc with ⟨rfl, rfl⟩ | hc
    · have hasked := h.asked ha
      exact hasked hm
    · exact h.asked hc hm
  · rcases hact hc with ⟨rfl, rfl⟩ | hc
    · exact fun hidle => absurd hidle (Option.some_ne_none g)
    · exact h.pending hc hsome
  · rcases hact hc with ⟨rfl, rfl⟩ | hc
    · cases hx
      exact absurd (hrelay hy).2 hne
    · exact ⟨_, hc, hx, id⟩

omit [Inhabited ν] in
/-- Whatever a task waits for, the kernel keeps to its plan. -/
lemma Follows.suspend (h : k.Follows p) {a : Activity ρ} (ha : k.activity? t = some a) (b : ρ)
    (hg : g < k.futures.size) (hmark : p.mark? g = none)
    (hrelay : ∀ {c u}, p.relay? g = some (c, u) → c = t ∧ k.outcome? g = none) :
    (k.suspend t b g).Follows p ∧ Paused k (k.suspend t b g) t b g ∧
      ∀ {u}, p.mark? u ≠ none → u ≠ t → (k.suspend t b g).activity? u = k.activity? u := by
  have hwait := h.waitFor ha b hg hmark hrelay
  have hself := activity?_waitFor_self (g := g) (b := b) ha
  have hother : ∀ {u}, u ≠ t → (k.waitFor t b g).activity? u = k.activity? u :=
    activity?_waitFor_of_ne
  have hsize : (k.waitFor t b g).futures.size = k.futures.size := size_waitFor
  have hmembers : ∀ j, (k.waitFor t b g).members j = k.members j := fun _ => members_waitFor
  rw [suspend_eq]
  by_cases hpending : k.mustCancel t = true
  swap
  · rw [if_neg hpending]
    refine ⟨hwait, ⟨hsize, hmembers, fun ho => outcome?_waitFor.trans ho,
      fun hu hd => ⟨_, (hother hu).trans hd, rfl, rfl, id⟩, fun {u c} hc => ?_,
      fun hu hd hmust => ⟨_, (hother hu).trans hd, hmust⟩, a, _, ha, hself, rfl, rfl, Iff.rfl⟩,
      fun _ hu => hother hu⟩
    by_cases hu : u = t
    · exact ⟨a, hu ▸ ha⟩
    · exact ⟨c, hother hu ▸ hc⟩
  -- the request goes on to the future that the task waits for
  have hasked : a.cancelRequests ≠ 0 := by
    rw [mustCancel_eq, ha] at hpending
    exact h.asked ha hpending
  have hspares : Spares p g (k.waitFor t b g) ((k.waitFor t b g).cancel g).1 := by
    refine .cancel hwait fun {c u d} hcu hd _ => ?_
    rw [(hrelay hcu).1, hself] at hd
    cases hd
    exact hasked
  have hgrows : Grows (fun _ => True) (k.waitFor t b g) ((k.waitFor t b g).cancel g).1 :=
    .cancel _ g
  have hsize₁ : ((k.waitFor t b g).cancel g).1.futures.size = k.futures.size :=
    (size_cancel _ _).trans hsize
  have hmembers₁ : ∀ j, ((k.waitFor t b g).cancel g).1.members j = k.members j := fun j =>
    ((Urges.cancel _ g).members j).trans (hmembers j)
  generalize ((k.waitFor t b g).cancel g).1 = k₁ at hspares hgrows hsize₁ hmembers₁ ⊢
  obtain ⟨c, hc, hbody, hwaiting, hmono⟩ := hgrows.kept hself
  have hold : ∀ {u d}, k₁.activity? u = some d → ∃ e, k.activity? u = some e := by
    intro u d hd
    rcases hgrows.begun hd with ⟨e, he⟩ | ⟨hle, -⟩
    · by_cases hu : u = t
      · exact ⟨a, hu ▸ ha⟩
      · exact ⟨e, hother hu ▸ he⟩
    · have hlt := lt_size_of_activity? hd
      rw [hsize₁] at hlt
      rw [hsize] at hle
      exact absurd hlt (Nat.not_lt.2 hle)
  have hpaused : Paused k k₁ t b g :=
    { size := hsize₁
      members := hmembers₁
      outcome := fun ho => hgrows.outcome (outcome?_waitFor.trans ho)
      kept := fun hu hd => hgrows.kept ((hother hu).trans hd)
      old := hold
      firm := fun hu hd => hgrows.firm.must ((hother hu).trans hd)
      self := ⟨a, c, ha, hc, hbody, hwaiting, fun _ => hasked, hmono⟩ }
  have hmarked : ∀ {u}, p.mark? u ≠ none → u ≠ t → k₁.activity? u = k.activity? u :=
    fun {u} hu hne => (hspares.marked hu (by rintro rfl; exact hu hmark)).trans (hother hne)
  rw [if_pos hpending]
  split
  swap
  · exact ⟨hspares.follows, hpaused, hmarked⟩
  -- the request is taken back, but it stays counted
  have hnote := isNote_uncancel k₁ t
  have hself' : (k₁.uncancel t).activity? t = some { c with mustCancel := false } :=
    activity?_update_map hc
  have hother' : ∀ {u}, u ≠ t → (k₁.uncancel t).activity? u = k₁.activity? u :=
    fun hu => activity?_update_of_ne hu
  refine ⟨?_, ⟨size_update.trans hsize₁, fun j => (members_note hnote).trans (hmembers₁ j),
    fun ho => (outcome?_note hnote).trans (hpaused.outcome ho), fun hu hd => ?_, fun {u d} hd => ?_,
    fun hu hd hmust => ?_, a, _, ha, hself', hbody, hwaiting, fun _ => hasked, hmono⟩,
    fun hu hne => (hother' hne).trans (hmarked hu hne)⟩
  · refine hspares.follows.note size_update rfl rfl (fun _ => outcome?_note hnote)
      (fun _ => watchers_note hnote) (fun _ => members_note hnote) (fun x hx => ?_) fun {u d} hd => ?_
    · have hne : x ≠ t := by
        rintro rfl
        simp [hc] at hx
      rw [hother' hne, hx]
    · by_cases hu : u = t
      · subst hu
        rw [hself'] at hd
        cases hd
        refine ⟨c, hc, rfl, rfl, id, fun hmust => (by cases hmust), fun _ hidle _ => ?_⟩
        exact absurd (hwaiting.symm.trans hidle) (Option.some_ne_none g)
      · rw [hother' hu] at hd
        exact ⟨d, hd, rfl, rfl, id, hspares.follows.asked hd, hspares.follows.pending hd⟩
  · obtain ⟨e, he, heq⟩ := hpaused.kept hu hd
    exact ⟨e, (hother' hu).trans he, heq⟩
  · obtain ⟨e, he, -, -⟩ := activity?_note hnote hd
    exact hold he
  · obtain ⟨e, he, hmust'⟩ := hpaused.firm hu hd hmust
    exact ⟨e, (hother' hu).trans he, hmust'⟩

omit [Inhabited ν] in
/-- The running task has ended; a request to cancel may have taken the place of its value. -/
lemma Follows.finish (h : k.Follows p) (hw : k.Waking (some t)) {a : Activity ρ}
    (ha : k.activity? t = some a) (o : Outcome ν ε) :
    ∃ o', (o' = o ∨ o' = .cancelled) ∧ (k.finish t o).Follows p ∧ (k.finish t o).Waking none ∧
      Ends k (k.finish t o) t o' := by
  have hopen : k.IsOpen t := ⟨lt_size_of_activity? ha, hw.unsettled ha⟩
  have hplan : p.relay? t = none := by
    cases hrelay : p.relay? t with
    | none => rfl
    | some cu => simp [(h.relays hrelay).2.2.1] at ha
  have hsettle : ∃ o', (o' = o ∨ o' = .cancelled) ∧ k.finish t o = k.settle t o' := by
    rw [finish_eq]
    cases o with
    | value v =>
      dsimp only
      split
      · exact ⟨.cancelled, .inr rfl, rfl⟩
      · exact ⟨.value v, .inl rfl, rfl⟩
    | failure e => exact ⟨.failure e, .inl rfl, rfl⟩
    | cancelled => exact ⟨.cancelled, .inl rfl, rfl⟩
  obtain ⟨o', ho', heq⟩ := hsettle
  refine ⟨o', ho', ?_, hw.finish hopen, ?_⟩
  · rw [heq]
    exact h.settle_free hplan
  · rw [heq]
    exact ⟨size_settle, fun _ => members_settle, fun _ hj => outcome?_settle_of_ne hj,
      fun _ hu => activity?_settle_of_ne hu, hopen.2, outcome?_settle_self hopen, activity?_settle_self hopen⟩

end SuggestBridge.Task.Kernel
