import SuggestBridge.Proofs.Task.Kernel

/-!
# Tasks go on exactly when what they wait for is settled

Between two jobs, every task that has not ended is either to be begun, or it waits for one future:
then it watches that future while it is open, and a job to wake it stands in the queue once the
future is settled.  There is never more than one such watcher or job, and none is left over from an
earlier wait.  `Waking` states this for a kernel in which one task may be running.

So a task that is woken is given the outcome of the future that it waits for
(`perform_notify_wake`), and a task whose future is settled is woken before the queue is empty.
-/

namespace SuggestBridge.Task

/-- A job that makes a task go on. -/
def Job.Rouses {κ : Type} (job : Job κ) (t : Id) : Prop :=
  job = .start t ∨ job = .proceed t ∨ ∃ g, job = .notify (.wake t) g

/-- Whether a job makes some task go on. -/
def Job.rouses {κ : Type} : Job κ → Bool
  | .start _ | .proceed _ | .notify (.wake _) _ => true
  | .notify _ _ | .complete _ | .hook _ => false

/-- Whether a watcher makes a task go on. -/
def Watcher.wakes {κ : Type} : Watcher κ → Bool
  | .wake _ => true
  | _ => false

lemma Job.Rouses.rouses {κ : Type} {job : Job κ} {t : Id} (h : job.Rouses t) :
    job.rouses = true := by
  rcases h with rfl | rfl | ⟨g, rfl⟩ <;> rfl

lemma Job.Rouses.unique {κ : Type} {job : Job κ} {t u : Id} (ht : job.Rouses t)
    (hu : job.Rouses u) : t = u := by
  rcases ht with rfl | rfl | ⟨g, rfl⟩ <;> rcases hu with hu | hu | ⟨x, hu⟩ <;> cases hu <;> rfl

namespace Kernel

variable {ρ κ ν ε : Type}

/-- Every task waits for what it watches, and is roused once when that is settled.  The running task
does neither. -/
structure Waking (k : Kernel ρ κ ν ε) (running : Option Id) : Prop where
  unsettled : ∀ {t a}, k.activity? t = some a → k.outcome? t = none
  body : ∀ {t a}, k.activity? t = some a → running ≠ some t → ∃ b, a.body = some b
  idle : ∀ {t a}, k.activity? t = some a → running = some t → a.waitingFor = none
  watching : ∀ {t g}, .wake t ∈ k.watchers g →
    k.IsOpen g ∧ ∃ a, k.activity? t = some a ∧ a.waitingFor = some g
  told : ∀ {t g}, .notify (.wake t) g ∈ k.ready →
    (∃ o, k.outcome? g = some o) ∧ ∃ a, k.activity? t = some a ∧ a.waitingFor = some g
  due : ∀ {t}, .start t ∈ k.ready ∨ .proceed t ∈ k.ready →
    running ≠ some t ∧ ∃ a, k.activity? t = some a ∧ a.waitingFor = none
  awaited : ∀ {t a g}, k.activity? t = some a → a.waitingFor = some g →
    .wake t ∈ k.watchers g ∨ .notify (.wake t) g ∈ k.ready
  scheduled : ∀ {t a}, k.activity? t = some a → a.waitingFor = none → running ≠ some t →
    .start t ∈ k.ready ∨ .proceed t ∈ k.ready
  watchers_once : ∀ g, (k.watchers g).Pairwise fun v w => ∀ t, v = .wake t → w ≠ .wake t
  jobs_once : k.ready.Pairwise fun i j => ∀ t, i.Rouses t → ¬j.Rouses t

namespace Waking

variable {k : Kernel ρ κ ν ε} {running : Option Id}

lemma of_views {k' : Kernel ρ κ ν ε} (h : k.Waking running)
    (hsize : k.futures.size ≤ k'.futures.size)
    (houtcome : ∀ j, k'.outcome? j = k.outcome? j) (hwatchers : ∀ j, k'.watchers j = k.watchers j)
    (hready : k'.ready = k.ready)
    (hold : ∀ {j a}, k'.activity? j = some a →
      ∃ b, k.activity? j = some b ∧ b.body = a.body ∧ b.waitingFor = a.waitingFor)
    (hnew : ∀ {j a}, k.activity? j = some a →
      ∃ b, k'.activity? j = some b ∧ b.body = a.body ∧ b.waitingFor = a.waitingFor) :
    k'.Waking running := by
  have hwaits : ∀ {t : Id} {w : Option Id}, (∃ a, k.activity? t = some a ∧ a.waitingFor = w) →
      ∃ a, k'.activity? t = some a ∧ a.waitingFor = w := by
    rintro t w ⟨a, ha, hw⟩
    obtain ⟨b, hb, -, hwaiting⟩ := hnew ha
    exact ⟨b, hb, hwaiting.trans hw⟩
  refine
    { unsettled := ?_, body := ?_, idle := ?_, watching := ?_, told := ?_, due := ?_,
      awaited := ?_, scheduled := ?_, watchers_once := ?_, jobs_once := ?_ }
  · intro t a ha
    obtain ⟨b, hb, -, -⟩ := hold ha
    rw [houtcome, h.unsettled hb]
  · intro t a ha hrun
    obtain ⟨b, hb, hbody, -⟩ := hold ha
    rw [← hbody]
    exact h.body hb hrun
  · intro t a ha hrun
    obtain ⟨b, hb, -, hwaiting⟩ := hold ha
    rw [← hwaiting]
    exact h.idle hb hrun
  · intro t g hmem
    rw [hwatchers] at hmem
    obtain ⟨⟨hlt, hnone⟩, ht⟩ := h.watching hmem
    exact ⟨⟨Nat.lt_of_lt_of_le hlt hsize, by rw [houtcome, hnone]⟩, hwaits ht⟩
  · intro t g hmem
    rw [hready] at hmem
    obtain ⟨⟨o, ho⟩, ht⟩ := h.told hmem
    exact ⟨⟨o, by rw [houtcome, ho]⟩, hwaits ht⟩
  · intro t hmem
    rw [hready] at hmem
    obtain ⟨hrun, ht⟩ := h.due hmem
    exact ⟨hrun, hwaits ht⟩
  · intro t a g ha hg
    obtain ⟨b, hb, -, hwaiting⟩ := hold ha
    rw [hwatchers, hready]
    exact h.awaited hb (hwaiting.trans hg)
  · intro t a ha hg hrun
    obtain ⟨b, hb, -, hwaiting⟩ := hold ha
    rw [hready]
    exact h.scheduled hb (hwaiting.trans hg) hrun
  · intro g
    rw [hwatchers]
    exact h.watchers_once g
  · rw [hready]
    exact h.jobs_once

lemma note (h : k.Waking running) {id : Id} {f : Future ρ κ ν ε → Future ρ κ ν ε}
    (hf : IsNote k id f) : (k.update id f).Waking running :=
  h.of_views (by simp) (fun _ => outcome?_note hf) (fun _ => watchers_note hf) rfl
    (activity?_note hf) (exists_activity?_note hf)

/-- A future that is no task. -/
lemma add (h : k.Waking running) {F : Future ρ κ ν ε} (houtcome : F.outcome = none)
    (hwatchers : F.watchers = []) (hactivity : F.activity = none) :
    (k.add F).1.Waking running := by
  have hsame : ∀ j, (k.add F).1.activity? j = k.activity? j := by
    intro j
    rw [activity?_add]
    split
    · next hj => rw [hactivity, (views_of_size_le (Nat.le_of_eq hj.symm)).2.1]
    · rfl
  exact h.of_views (by simp) (fun _ => outcome?_add houtcome) (fun _ => watchers_add hwatchers) rfl
    (fun {j a} ha => ⟨a, by rw [← hsame, ha], rfl, rfl⟩)
    (fun {j a} ha => ⟨a, by rw [hsame, ha], rfl, rfl⟩)

lemma fresh (h : k.Waking running) : k.fresh.1.Waking running := h.add rfl rfl rfl

/-- A task that nobody waits to rouse, when it is settled, leaves nothing behind. -/
lemma settle (h : k.Waking running) {id : Id} {o : Outcome ν ε}
    (hidle : ∀ a, k.activity? id = some a → running = some id) :
    (k.settle id o).Waking running := by
  by_cases hopen : k.IsOpen id
  · have hne : ∀ {t a g}, k.activity? t = some a → a.waitingFor = some g → t ≠ id := by
      rintro t a g ha hg rfl
      simp [h.idle ha (hidle a ha)] at hg
    have hkeep : ∀ {t a}, t ≠ id → k.activity? t = some a →
        (k.settle id o).activity? t = some a := fun hne ha => by rw [activity?_settle_of_ne hne, ha]
    have hold : ∀ {t a}, (k.settle id o).activity? t = some a →
        t ≠ id ∧ k.activity? t = some a := by
      intro t a ha
      have hne : t ≠ id := by
        rintro rfl
        simp [activity?_settle_self hopen] at ha
      rw [activity?_settle_of_ne hne] at ha
      exact ⟨hne, ha⟩
    -- the jobs that the settled future adds to the queue
    have hadded : ∀ {job}, job ∈ (k.watchers id).map (Job.notify · id) →
        ∃ w ∈ k.watchers id, job = .notify w id := by
      intro job hjob
      obtain ⟨w, hw, rfl⟩ := List.mem_map.1 hjob
      exact ⟨w, hw, rfl⟩
    have hwaits : ∀ {t g}, (∃ a, k.activity? t = some a ∧ a.waitingFor = some g) →
        ∃ a, (k.settle id o).activity? t = some a ∧ a.waitingFor = some g := by
      rintro t g ⟨a, ha, hg⟩
      exact ⟨a, hkeep (hne ha hg) ha, hg⟩
    refine
      { unsettled := ?_, body := ?_, idle := ?_, watching := ?_, told := ?_, due := ?_,
        awaited := ?_, scheduled := ?_, watchers_once := ?_, jobs_once := ?_ }
    · intro t a ha
      obtain ⟨hne, ha⟩ := hold ha
      rw [outcome?_settle_of_ne hne, h.unsettled ha]
    · exact fun ha hrun => h.body (hold ha).2 hrun
    · exact fun ha hrun => h.idle (hold ha).2 hrun
    · intro t g hmem
      obtain ⟨⟨hlt, hnone⟩, ht⟩ := h.watching (mem_watchers_settle hmem)
      have hg : g ≠ id := by
        rintro rfl
        rw [watchers_settle_self hopen] at hmem
        exact absurd hmem List.not_mem_nil
      exact ⟨⟨by simpa using hlt, by rw [outcome?_settle_of_ne hg, hnone]⟩, hwaits ht⟩
    · intro t g hmem
      rw [ready_settle hopen, List.mem_append] at hmem
      rcases hmem with hmem | hmem
      · obtain ⟨⟨o', ho'⟩, ht⟩ := h.told hmem
        exact ⟨⟨o', outcome?_settle_of_eq_some ho'⟩, hwaits ht⟩
      · obtain ⟨w, hw, heq⟩ := hadded hmem
        cases heq
        exact ⟨⟨o, outcome?_settle_self hopen⟩, hwaits (h.watching hw).2⟩
    · intro t hmem
      have hmem : .start t ∈ k.ready ∨ .proceed t ∈ k.ready := by
        rw [ready_settle hopen] at hmem
        simpa using hmem
      obtain ⟨hrun, a, ha, hnone⟩ := h.due hmem
      refine ⟨hrun, a, hkeep ?_ ha, hnone⟩
      rintro rfl
      exact hrun (hidle a ha)
    · intro t a g ha hg
      obtain ⟨-, ha⟩ := hold ha
      rw [ready_settle hopen, List.mem_append]
      rcases h.awaited ha hg with hmem | hmem
      · by_cases hgid : g = id
        · subst hgid
          exact .inr (.inr (List.mem_map.2 ⟨_, hmem, rfl⟩))
        · exact .inl (by rwa [watchers_settle_of_ne hgid])
      · exact .inr (.inl hmem)
    · intro t a ha hnone hrun
      rw [ready_settle hopen]
      simpa using h.scheduled (hold ha).2 hnone hrun
    · intro g
      by_cases hg : g = id
      · subst hg
        rw [watchers_settle_self hopen]
        exact .nil
      · rw [watchers_settle_of_ne hg]
        exact h.watchers_once g
    · rw [ready_settle hopen, List.pairwise_append, List.pairwise_map]
      refine ⟨h.jobs_once, (h.watchers_once id).imp ?_, ?_⟩
      · intro v w honce t hv hw
        simp only [Job.Rouses, reduceCtorEq, Job.notify.injEq, exists_eq_right', false_or] at hv hw
        exact honce t hv hw
      · rintro i hi j hj t hit hjt
        obtain ⟨w, hw, rfl⟩ := hadded hj
        rcases hjt with heq | heq | ⟨g, heq⟩
        · cases heq
        · cases heq
        · cases heq
          obtain ⟨⟨-, hnone⟩, a, ha, hg⟩ := h.watching hw
          rcases hit with rfl | rfl | ⟨g, rfl⟩
          · obtain ⟨-, b, hb, hbg⟩ := h.due (.inl hi)
            rw [ha] at hb
            cases hb
            simp [hg] at hbg
          · obtain ⟨-, b, hb, hbg⟩ := h.due (.inr hi)
            rw [ha] at hb
            cases hb
            simp [hg] at hbg
          · obtain ⟨⟨o', ho'⟩, b, hb, hbg⟩ := h.told hi
            rw [ha] at hb
            cases hb
            rw [hg] at hbg
            cases hbg
            simp [hnone] at ho'
  · rwa [settle_of_not_isOpen hopen]

lemma settle_plain (h : k.Waking running) {id : Id} {o : Outcome ν ε}
    (hplain : k.activity? id = none) : (k.settle id o).Waking running :=
  h.settle fun a ha => by simp [hplain] at ha

lemma cancelWithin (h : k.Waking running) (fuel : Nat) {id : Id} :
    (k.cancelWithin fuel id).1.Waking running :=
  @cancelWithin_induction ρ κ ν ε k id (fun k => k.Waking running)
    (fun _ _ hplain h => h.settle_plain hplain) (fun _ _ _ hf h => h.note hf) fuel h

lemma cancel (h : k.Waking running) {id : Id} : (k.cancel id).1.Waking running := h.cancelWithin _

/-- The running task has ended. -/
lemma rest {t : Id} (h : k.Waking (some t)) (hnone : k.activity? t = none) : k.Waking none := by
  have hne : ∀ {u a}, k.activity? u = some a → some t ≠ some u := by
    rintro u a ha heq
    cases heq
    simp [hnone] at ha
  exact
    { h with
      body := fun ha _ => h.body ha (hne ha)
      idle := fun _ hrun => by cases hrun
      due := fun hmem => ⟨by simp, (h.due hmem).2⟩
      scheduled := fun ha hg _ => h.scheduled ha hg (hne ha) }

lemma finish {t : Id} (h : k.Waking (some t)) (hopen : k.IsOpen t) {o : Outcome ν ε} :
    (k.finish t o).Waking none := by
  have hsettle : ∀ o, (k.settle t o).Waking none := fun o =>
    (h.settle fun _ _ => rfl).rest (activity?_settle_self hopen)
  cases o <;> exact hsettle _

/-- Nothing is left to rouse the running task. -/
lemma not_rouses {t : Id} (h : k.Waking (some t)) :
    (∀ g, .wake t ∉ k.watchers g) ∧ ∀ job ∈ k.ready, ¬job.Rouses t := by
  have hwaits : ∀ {g}, ¬∃ a, k.activity? t = some a ∧ a.waitingFor = some g := by
    rintro g ⟨a, ha, hg⟩
    simp [h.idle ha rfl] at hg
  refine ⟨fun g hmem => hwaits (h.watching hmem).2, ?_⟩
  rintro job hjob (rfl | rfl | ⟨g, rfl⟩)
  · exact (h.due (.inl hjob)).1 rfl
  · exact (h.due (.inr hjob)).1 rfl
  · exact hwaits (h.told hjob).2

/-- The running task waits for a future from now on: it watches it, or a job to wake it is added. -/
lemma wait {t g : Id} {k' : Kernel ρ κ ν ε} {c : Activity ρ} {ws : List (Watcher κ)}
    {js : List (Job κ)} (h : k.Waking (some t)) (hunsettled : k.outcome? t = none)
    (hself : k'.activity? t = some c) (hbody : ∃ b, c.body = some b) (hg : c.waitingFor = some g)
    (hother : ∀ u, u ≠ t → k'.activity? u = k.activity? u)
    (houtcome : ∀ u, k'.outcome? u = k.outcome? u) (hsize : k'.futures.size = k.futures.size)
    (hwatchers : k'.watchers g = k.watchers g ++ ws)
    (hwatchers' : ∀ x, x ≠ g → k'.watchers x = k.watchers x) (hready : k'.ready = k.ready ++ js)
    (hcase : k.IsOpen g ∧ ws = [.wake t] ∧ js = [] ∨
      (∃ o, k.outcome? g = some o) ∧ ws = [] ∧ js = [.notify (.wake t) g]) :
    k'.Waking none := by
  obtain ⟨hnowatch, hnojob⟩ := h.not_rouses
  have hopen : ∀ {x}, k.IsOpen x → k'.IsOpen x := fun hx =>
    ⟨by rw [hsize]; exact hx.1, by rw [houtcome]; exact hx.2⟩
  -- what is added concerns the running task and `g`
  have hws : ∀ {w}, w ∈ ws → w = .wake t ∧ k.IsOpen g := by
    rcases hcase with ⟨hopen, rfl, -⟩ | ⟨-, rfl, -⟩
    · exact fun hw => ⟨List.mem_singleton.1 hw, hopen⟩
    · exact fun hw => absurd hw List.not_mem_nil
  have hjs : ∀ {job}, job ∈ js → job = .notify (.wake t) g ∧ ∃ o, k.outcome? g = some o := by
    rcases hcase with ⟨-, -, rfl⟩ | ⟨hdone, -, rfl⟩
    · exact fun hjob => absurd hjob List.not_mem_nil
    · exact fun hjob => ⟨List.mem_singleton.1 hjob, hdone⟩
  -- whoever else waits for something still does
  have hwaits : ∀ {u x}, u ≠ t → (∃ a, k.activity? u = some a ∧ a.waitingFor = x) →
      ∃ a, k'.activity? u = some a ∧ a.waitingFor = x := by
    rintro u x hu ⟨a, ha, hx⟩
    exact ⟨a, by rw [hother u hu, ha], hx⟩
  have hstart : ∀ {u}, .start u ∈ k'.ready ∨ .proceed u ∈ k'.ready →
      .start u ∈ k.ready ∨ .proceed u ∈ k.ready := by
    rw [hready]
    rintro u (hmem | hmem) <;> rcases List.mem_append.1 hmem with hmem | hmem
    · exact .inl hmem
    · cases (hjs hmem).1
    · exact .inr hmem
    · cases (hjs hmem).1
  refine
    { unsettled := ?_, body := ?_, idle := ?_, watching := ?_, told := ?_, due := ?_,
      awaited := ?_, scheduled := ?_, watchers_once := ?_, jobs_once := ?_ }
  · intro u a ha
    rw [houtcome]
    by_cases hu : u = t
    · rw [hu, hunsettled]
    · exact h.unsettled (by rwa [hother u hu] at ha)
  · intro u a ha _
    by_cases hu : u = t
    · subst hu
      rw [hself] at ha
      cases ha
      exact hbody
    · exact h.body (by rwa [hother u hu] at ha) fun heq => hu (Option.some.inj heq).symm
  · exact fun _ hrun => by cases hrun
  · intro u x hmem
    have hold : .wake u ∈ k.watchers x →
        k'.IsOpen x ∧ ∃ a, k'.activity? u = some a ∧ a.waitingFor = some x := by
      intro hmem
      refine ⟨hopen (h.watching hmem).1, hwaits ?_ (h.watching hmem).2⟩
      rintro rfl
      exact hnowatch x hmem
    by_cases hx : x = g
    · subst hx
      rw [hwatchers, List.mem_append] at hmem
      rcases hmem with hmem | hmem
      · exact hold hmem
      · cases (hws hmem).1
        exact ⟨hopen (hws hmem).2, c, hself, hg⟩
    · rw [hwatchers' x hx] at hmem
      exact hold hmem
  · intro u x hmem
    rw [houtcome]
    rw [hready, List.mem_append] at hmem
    rcases hmem with hmem | hmem
    · refine ⟨(h.told hmem).1, hwaits ?_ (h.told hmem).2⟩
      rintro rfl
      exact hnojob _ hmem (.inr (.inr ⟨x, rfl⟩))
    · cases (hjs hmem).1
      exact ⟨(hjs hmem).2, c, hself, hg⟩
  · intro u hmem
    have hmem := hstart hmem
    refine ⟨by simp, hwaits (fun hu => ?_) (h.due hmem).2⟩
    exact (h.due hmem).1 (hu ▸ rfl)
  · intro u a x ha hx
    by_cases hu : u = t
    · subst hu
      rw [hself] at ha
      cases ha
      rw [hg] at hx
      cases hx
      rw [hwatchers, hready]
      rcases hcase with ⟨-, rfl, -⟩ | ⟨-, -, rfl⟩
      · exact .inl (by simp)
      · exact .inr (by simp)
    · rw [hready]
      rcases h.awaited (by rwa [hother u hu] at ha) hx with hmem | hmem
      · refine .inl ?_
        by_cases hxg : x = g
        · subst hxg
          rw [hwatchers]
          exact List.mem_append_left _ hmem
        · rwa [hwatchers' x hxg]
      · exact .inr (List.mem_append_left _ hmem)
  · intro u a ha hnone _
    have hu : u ≠ t := by
      rintro rfl
      rw [hself] at ha
      cases ha
      simp [hg] at hnone
    rw [hready]
    exact (h.scheduled (by rwa [hother u hu] at ha) hnone
      fun heq => hu (Option.some.inj heq).symm).imp (List.mem_append_left _)
        (List.mem_append_left _)
  · intro x
    by_cases hx : x = g
    · subst hx
      rw [hwatchers, List.pairwise_append]
      refine ⟨h.watchers_once x, ?_, ?_⟩
      · rcases hcase with ⟨-, rfl, -⟩ | ⟨-, rfl, -⟩
        · exact List.pairwise_singleton _ _
        · exact .nil
      · rintro v hv w hw u rfl rfl
        cases (hws hw).1
        exact hnowatch x hv
    · rw [hwatchers' x hx]
      exact h.watchers_once x
  · rw [hready, List.pairwise_append]
    refine ⟨h.jobs_once, ?_, ?_⟩
    · rcases hcase with ⟨-, -, rfl⟩ | ⟨-, -, rfl⟩
      · exact .nil
      · exact List.pairwise_singleton _ _
    · intro i hi job hjob u hiu hju
      rw [(hjs hjob).1] at hju
      simp only [Job.Rouses, reduceCtorEq, Job.notify.injEq, Watcher.wake.injEq, exists_eq_right',
        false_or] at hju
      exact hnojob i hi (hju ▸ hiu)

lemma waitFor {t g : Id} (b : ρ) (h : k.Waking (some t)) {a : Activity ρ}
    (ha : k.activity? t = some a) (hg : g < k.futures.size) : (k.waitFor t b g).Waking none := by
  rw [Kernel.waitFor]
  generalize hk : (k.update t fun f =>
    { f with
      activity := f.activity.map fun a => { a with body := some b, waitingFor := some g } }) = k'
  have hself : k'.activity? t = some { a with body := some b, waitingFor := some g } := by
    rw [← hk, activity?_update_map ha]
  have hother : ∀ u, u ≠ t → k'.activity? u = k.activity? u := fun u hu => by
    rw [← hk, activity?_update_of_ne hu]
  have houtcome : ∀ u, k'.outcome? u = k.outcome? u := fun u => by
    rw [← hk]
    exact outcome?_update fun _ => rfl
  have hwatchers : ∀ u, k'.watchers u = k.watchers u := fun u => by
    rw [← hk]
    exact watchers_update fun _ => rfl
  have hready : k'.ready = k.ready := by rw [← hk, ready_update]
  have hsize : k'.futures.size = k.futures.size := by rw [← hk, size_update]
  have hwait := fun ws js => @wait ρ κ ν ε k t g (k'.watch g (.wake t))
    { a with body := some b, waitingFor := some g } ws js h (h.unsettled ha)
    (by rw [activity?_watch, hself]) ⟨b, rfl⟩ rfl
    (fun u hu => by rw [activity?_watch, hother u hu])
    (fun u => by rw [outcome?_watch, houtcome]) (by rw [size_watch, hsize])
  have hwatchers' : ∀ x, x ≠ g → (k'.watch g (.wake t)).watchers x = k.watchers x := fun x hx => by
    rw [watchers_watch_of_ne hx, hwatchers]
  cases hdone : k'.isDone g with
  | true =>
    obtain ⟨o, ho⟩ := isDone_eq_true_iff.1 hdone
    refine hwait [] [.notify (.wake t) g] ?_ hwatchers' ?_ (.inr ⟨⟨o, ?_⟩, rfl, rfl⟩)
    · rw [watch_of_isDone hdone, List.append_nil]
      exact hwatchers g
    · rw [watch_of_isDone hdone, ← hready]
      rfl
    · rw [← houtcome, ho]
  | false =>
    have hopen : k'.IsOpen g := ⟨by rwa [hsize], isDone_eq_false_iff.1 hdone⟩
    refine hwait [.wake t] [] ?_ hwatchers' ?_ (.inl ⟨⟨hg, ?_⟩, rfl, rfl⟩)
    · rw [watchers_watch_self hopen, hwatchers]
    · rw [watch_of_isOpen hopen, ready_update, hready, List.append_nil]
    · rw [← houtcome]
      exact hopen.2

lemma suspend {t g : Id} (b : ρ) (h : k.Waking (some t)) {a : Activity ρ}
    (ha : k.activity? t = some a) (hg : g < k.futures.size) : (k.suspend t b g).Waking none := by
  have hwait := h.waitFor b ha hg
  rw [suspend_eq]
  split
  · split
    · exact hwait.cancel.note (isNote_uncancel _ _)
    · exact hwait.cancel
  · exact hwait

/-- What is no task is not roused. -/
lemma not_rouses_of_none {t : Id} (h : k.Waking running) (hnone : k.activity? t = none)
    {job : Job κ} (hjob : job ∈ k.ready) : ¬job.Rouses t := by
  rintro (rfl | rfl | ⟨x, rfl⟩)
  · obtain ⟨-, c, hc, -⟩ := h.due (.inl hjob)
    simp [hnone] at hc
  · obtain ⟨-, c, hc, -⟩ := h.due (.inr hjob)
    simp [hnone] at hc
  · obtain ⟨-, c, hc, -⟩ := h.told hjob
    simp [hnone] at hc

/-- Nothing is there yet. -/
lemma empty : Waking ({} : Kernel ρ κ ν ε) none where
  unsettled ha := by simp [activity?] at ha
  body ha := by simp [activity?] at ha
  idle ha := by simp [activity?] at ha
  watching hmem := by simp [Kernel.watchers] at hmem
  told hmem := absurd hmem List.not_mem_nil
  due hmem := hmem.elim (absurd · List.not_mem_nil) (absurd · List.not_mem_nil)
  awaited ha := by simp [activity?] at ha
  scheduled ha := by simp [activity?] at ha
  watchers_once _ := .nil
  jobs_once := .nil

/-- A new task is to be begun. -/
lemma spawn (h : k.Waking running) (hrun : running ≠ some k.futures.size) (b : ρ) :
    (k.spawn b).1.Waking running := by
  have hnone := (views_of_size_le (Nat.le_refl k.futures.size)).2.1
  have hactivity : ∀ u, (k.spawn b).1.activity? u =
      if u = k.futures.size then some { body := some b } else k.activity? u :=
    fun _ => activity?_add
  have hother : ∀ {u a}, k.activity? u = some a → (k.spawn b).1.activity? u = some a := by
    intro u a ha
    rw [hactivity, if_neg (Nat.ne_of_lt (lt_size_of_activity? ha)), ha]
  have houtcome : ∀ u, (k.spawn b).1.outcome? u = k.outcome? u := fun _ => outcome?_add rfl
  have hwatchers : ∀ u, (k.spawn b).1.watchers u = k.watchers u := fun _ => watchers_add rfl
  have hready : (k.spawn b).1.ready = k.ready ++ [.start k.futures.size] := rfl
  have hwaits : ∀ {u x}, (∃ a, k.activity? u = some a ∧ a.waitingFor = x) →
      ∃ a, (k.spawn b).1.activity? u = some a ∧ a.waitingFor = x := by
    rintro u x ⟨a, ha, hx⟩
    exact ⟨a, hother ha, hx⟩
  refine
    { unsettled := ?_, body := ?_, idle := ?_, watching := ?_, told := ?_, due := ?_,
      awaited := ?_, scheduled := ?_, watchers_once := ?_, jobs_once := ?_ }
  · intro u a ha
    rw [houtcome]
    rw [hactivity] at ha
    split at ha
    · next hu => exact (views_of_size_le (Nat.le_of_eq hu.symm)).1
    · exact h.unsettled ha
  · intro u a ha hne
    rw [hactivity] at ha
    split at ha
    · cases ha
      exact ⟨b, rfl⟩
    · exact h.body ha hne
  · intro u a ha hself
    rw [hactivity] at ha
    split at ha
    · cases ha
      rfl
    · exact h.idle ha hself
  · intro u x hmem
    rw [hwatchers] at hmem
    obtain ⟨⟨hlt, hout⟩, hu⟩ := h.watching hmem
    exact ⟨⟨Nat.lt_of_lt_of_eq (Nat.lt_succ_of_lt hlt) size_add.symm, by rw [houtcome, hout]⟩,
      hwaits hu⟩
  · intro u x hmem
    rw [hready, List.mem_append, List.mem_singleton] at hmem
    rcases hmem with hmem | heq
    · rw [houtcome]
      exact ⟨(h.told hmem).1, hwaits (h.told hmem).2⟩
    · cases heq
  · intro u hmem
    rw [hready] at hmem
    simp only [List.mem_append, List.mem_singleton, Job.start.injEq, reduceCtorEq,
      or_false] at hmem
    rcases hmem with (hmem | rfl) | hmem
    · exact ⟨(h.due (.inl hmem)).1, hwaits (h.due (.inl hmem)).2⟩
    · exact ⟨hrun, _, by rw [hactivity, if_pos rfl], rfl⟩
    · exact ⟨(h.due (.inr hmem)).1, hwaits (h.due (.inr hmem)).2⟩
  · intro u a x ha hx
    rw [hwatchers, hready]
    rw [hactivity] at ha
    split at ha
    · cases ha
      cases hx
    · exact (h.awaited ha hx).imp id (List.mem_append_left _)
  · intro u a ha hx hne
    rw [hready]
    rw [hactivity] at ha
    split at ha
    · next hu => exact .inl (by simp [hu])
    · exact (h.scheduled ha hx hne).imp (List.mem_append_left _) (List.mem_append_left _)
  · intro x
    rw [hwatchers]
    exact h.watchers_once x
  · rw [hready, List.pairwise_append]
    refine ⟨h.jobs_once, List.pairwise_singleton _ _, ?_⟩
    intro i hi j hj u hiu hju
    rw [List.mem_singleton.1 hj] at hju
    simp only [Job.Rouses, reduceCtorEq, Job.start.injEq, exists_false, or_false] at hju
    exact h.not_rouses_of_none hnone hi (hju ▸ hiu)

/-- A new task runs at once. -/
lemma enter (h : k.Waking none) {F : Future ρ κ ν ε} {a : Activity ρ} (houtcome : F.outcome = none)
    (hwatchers : F.watchers = []) (ha : F.activity = some a) (hidle : a.waitingFor = none) :
    (k.add F).1.Waking (some k.futures.size) := by
  have hnone := (views_of_size_le (Nat.le_refl k.futures.size)).2.1
  have hself : (k.add F).1.activity? k.futures.size = some a := by
    rw [activity?_add, if_pos rfl, ha]
  have hother : ∀ {u}, u ≠ k.futures.size → (k.add F).1.activity? u = k.activity? u := fun hu => by
    rw [activity?_add, if_neg hu]
  have hne : ∀ {u c}, k.activity? u = some c → u ≠ k.futures.size := fun hc =>
    Nat.ne_of_lt (lt_size_of_activity? hc)
  have hwaits : ∀ {u x}, (∃ c, k.activity? u = some c ∧ c.waitingFor = x) →
      ∃ c, (k.add F).1.activity? u = some c ∧ c.waitingFor = x := by
    rintro u x ⟨c, hc, hx⟩
    exact ⟨c, by rw [hother (hne hc), hc], hx⟩
  refine
    { unsettled := ?_, body := ?_, idle := ?_, watching := ?_, told := ?_, due := ?_,
      awaited := ?_, scheduled := ?_, watchers_once := ?_, jobs_once := ?_ }
  · intro u c hc
    rw [outcome?_add houtcome]
    by_cases hu : u = k.futures.size
    · rw [hu, (views_of_size_le (Nat.le_refl _)).1]
    · exact h.unsettled (by rwa [hother hu] at hc)
  · intro u c hc hrun
    have hu : u ≠ k.futures.size := fun heq => hrun (heq ▸ rfl)
    exact h.body (by rwa [hother hu] at hc) (by simp)
  · intro u c hc hrun
    cases hrun
    rw [hself] at hc
    cases hc
    exact hidle
  · intro u x hmem
    rw [watchers_add hwatchers] at hmem
    obtain ⟨⟨hlt, hout⟩, hu⟩ := h.watching hmem
    exact ⟨⟨Nat.lt_of_lt_of_eq (Nat.lt_succ_of_lt hlt) size_add.symm,
      by rw [outcome?_add houtcome, hout]⟩, hwaits hu⟩
  · intro u x hmem
    rw [outcome?_add houtcome]
    exact ⟨(h.told hmem).1, hwaits (h.told hmem).2⟩
  · intro u hmem
    obtain ⟨-, c, hc, hx⟩ := h.due hmem
    refine ⟨fun heq => hne hc (Option.some.inj heq).symm, hwaits ⟨c, hc, hx⟩⟩
  · intro u c x hc hx
    have hu : u ≠ k.futures.size := by
      rintro rfl
      rw [hself] at hc
      cases hc
      simp [hidle] at hx
    rw [watchers_add hwatchers]
    exact h.awaited (by rwa [hother hu] at hc) hx
  · intro u c hc hx hrun
    have hu : u ≠ k.futures.size := fun heq => hrun (heq ▸ rfl)
    exact h.scheduled (by rwa [hother hu] at hc) hx (by simp)
  · intro x
    rw [watchers_add hwatchers]
    exact h.watchers_once x
  · exact h.jobs_once

/-- Watchers that wake nobody and jobs that rouse nobody do not matter. -/
lemma of_rousing {k' : Kernel ρ κ ν ε} (h : k.Waking running)
    (hsize : k'.futures.size = k.futures.size) (houtcome : ∀ j, k'.outcome? j = k.outcome? j)
    (hactivity : ∀ j, k'.activity? j = k.activity? j)
    (hwatchers : ∀ j, (k'.watchers j).filter Watcher.wakes = (k.watchers j).filter Watcher.wakes)
    (hready : k'.ready.filter Job.rouses = k.ready.filter Job.rouses) : k'.Waking running := by
  have hwake : ∀ {t g}, .wake t ∈ k'.watchers g ↔ .wake t ∈ k.watchers g := fun {t g} => by
    have hmem := congrArg (fun ws => Watcher.wake t ∈ ws) (hwatchers g)
    simpa [List.mem_filter, Watcher.wakes] using hmem
  have hjob : ∀ {job : Job κ}, job.rouses = true → (job ∈ k'.ready ↔ job ∈ k.ready) := by
    intro job hjob
    have hmem := congrArg (fun js => job ∈ js) hready
    simpa [List.mem_filter, hjob] using hmem
  refine
    { unsettled := ?_, body := ?_, idle := ?_, watching := ?_, told := ?_, due := ?_,
      awaited := ?_, scheduled := ?_, watchers_once := ?_, jobs_once := ?_ }
  · intro t a ha
    rw [hactivity] at ha
    rw [houtcome, h.unsettled ha]
  · intro t a ha
    rw [hactivity] at ha
    exact h.body ha
  · intro t a ha
    rw [hactivity] at ha
    exact h.idle ha
  · intro t g hmem
    rw [hwake] at hmem
    rw [IsOpen, hsize, houtcome, hactivity]
    exact h.watching hmem
  · intro t g hmem
    rw [hjob rfl] at hmem
    rw [houtcome, hactivity]
    exact h.told hmem
  · intro t hmem
    rw [hjob rfl, hjob rfl] at hmem
    rw [hactivity]
    exact h.due hmem
  · intro t a g ha hg
    rw [hactivity] at ha
    rw [hwake, hjob rfl]
    exact h.awaited ha hg
  · intro t a ha hg hrun
    rw [hactivity] at ha
    rw [hjob rfl, hjob rfl]
    exact h.scheduled ha hg hrun
  · intro g
    have honce := (h.watchers_once g).filter Watcher.wakes
    rw [← hwatchers, List.pairwise_filter] at honce
    exact honce.imp fun hvw t hv hw => hvw (by rw [hv]; rfl) (by rw [hw]; rfl) t hv hw
  · have honce := h.jobs_once.filter Job.rouses
    rw [← hready, List.pairwise_filter] at honce
    exact honce.imp fun hij t hi hj => hij hi.rouses hj.rouses t hi hj

end Waking

/-! ## Taking a job -/

/-- Without timers the next job is the first of the queue. -/
lemma next?_eq [Inhabited ν] {k : Kernel ρ κ ν ε} (h : k.timers = #[]) (limit : Float) :
    ∃ n, k.next? limit =
      match k.ready with
      | [] => none
      | job :: rest => some (perform { k with ready := rest, batch := n } job) := by
  have hpass : k.beginPass limit = { k with batch := k.ready.length } := by
    simp [beginPass, h, dropCancelled, collectDue]
  by_cases hbatch : k.batch = 0
  · refine ⟨k.ready.length - 1, ?_⟩
    cases hready : k.ready <;> simp only [next?, hbatch, if_true, hpass, hready]
  · refine ⟨k.batch - 1, ?_⟩
    cases hready : k.ready <;> simp only [next?, if_neg hbatch, hready]

/-- The task that the first job rouses runs. -/
lemma Waking.take {k k' : Kernel ρ κ ν ε} (h : k.Waking none) {job : Job κ} {rest : List (Job κ)}
    {t : Id} {c : Activity ρ} (hready : k.ready = job :: rest) (hjob : job.Rouses t)
    (hself : k'.activity? t = some c) (hidle : c.waitingFor = none)
    (hother : ∀ u, u ≠ t → k'.activity? u = k.activity? u)
    (hunsettled : k.outcome? t = none) (houtcome : ∀ u, k'.outcome? u = k.outcome? u)
    (hsize : k'.futures.size = k.futures.size) (hwatchers : ∀ g, k'.watchers g = k.watchers g)
    (hready' : k'.ready = rest) : k'.Waking (some t) := by
  have hin : job ∈ k.ready := by simp [hready]
  have honce := h.jobs_once
  rw [hready, List.pairwise_cons] at honce
  have hrest : ∀ {i}, i ∈ rest → i ∈ k.ready := fun hi => by simp [hready, hi]
  have hne : ∀ {i u}, i ∈ rest → i.Rouses u → u ≠ t := by
    rintro i u hi hiu rfl
    exact honce.1 i hi u hjob hiu
  have hnowatch : ∀ {g}, .wake t ∉ k.watchers g := by
    intro g hmem
    obtain ⟨⟨-, hnone⟩, a, ha, hg⟩ := h.watching hmem
    rcases hjob with rfl | rfl | ⟨x, rfl⟩
    · obtain ⟨-, b, hb, hbg⟩ := h.due (.inl hin)
      simp_all
    · obtain ⟨-, b, hb, hbg⟩ := h.due (.inr hin)
      simp_all
    · obtain ⟨⟨o, ho⟩, b, hb, hbg⟩ := h.told hin
      simp_all
  have hwaits : ∀ {u x}, u ≠ t → (∃ a, k.activity? u = some a ∧ a.waitingFor = x) →
      ∃ a, k'.activity? u = some a ∧ a.waitingFor = x := by
    rintro u x hu ⟨a, ha, hx⟩
    exact ⟨a, by rw [hother u hu, ha], hx⟩
  -- a job that rouses another task is not the one taken
  have hleft : ∀ {i u}, i ∈ k.ready → i.Rouses u → u ≠ t → i ∈ rest := by
    intro i u hi hiu hu
    rw [hready] at hi
    rcases List.mem_cons.1 hi with rfl | hi
    · exact absurd (hiu.unique hjob) hu
    · exact hi
  refine
    { unsettled := ?_, body := ?_, idle := ?_, watching := ?_, told := ?_, due := ?_,
      awaited := ?_, scheduled := ?_, watchers_once := ?_, jobs_once := ?_ }
  · intro u a ha
    rw [houtcome]
    by_cases hu : u = t
    · rw [hu, hunsettled]
    · exact h.unsettled (by rwa [hother u hu] at ha)
  · intro u a ha hrun
    have hu : u ≠ t := fun hu => hrun (hu ▸ rfl)
    exact h.body (by rwa [hother u hu] at ha) (by simp)
  · intro u a ha hrun
    cases hrun
    rw [hself] at ha
    cases ha
    exact hidle
  · intro u x hmem
    rw [hwatchers] at hmem
    obtain ⟨⟨hlt, hnone⟩, hu⟩ := h.watching hmem
    refine ⟨⟨by rwa [hsize], by rw [houtcome, hnone]⟩, hwaits ?_ hu⟩
    rintro rfl
    exact hnowatch hmem
  · intro u x hmem
    rw [hready'] at hmem
    rw [houtcome]
    obtain ⟨hx, hu⟩ := h.told (hrest hmem)
    exact ⟨hx, hwaits (hne hmem (.inr (.inr ⟨x, rfl⟩))) hu⟩
  · intro u hmem
    rw [hready'] at hmem
    have hu : u ≠ t := hmem.elim (fun hmem => hne hmem (.inl rfl))
      fun hmem => hne hmem (.inr (.inl rfl))
    exact ⟨fun heq => hu (Option.some.inj heq).symm, hwaits hu (h.due (hmem.imp hrest hrest)).2⟩
  · intro u a x ha hx
    have hu : u ≠ t := by
      rintro rfl
      rw [hself] at ha
      cases ha
      simp [hidle] at hx
    rw [hwatchers, hready']
    exact (h.awaited (by rwa [hother u hu] at ha) hx).imp id
      fun hmem => hleft hmem (.inr (.inr ⟨x, rfl⟩)) hu
  · intro u a ha hx hrun
    have hu : u ≠ t := fun hu => hrun (hu ▸ rfl)
    rw [hready']
    exact (h.scheduled (by rwa [hother u hu] at ha) hx (by simp)).imp
      (fun hmem => hleft hmem (.inl rfl) hu) (fun hmem => hleft hmem (.inr (.inl rfl)) hu)
  · intro x
    rw [hwatchers]
    exact h.watchers_once x
  · rw [hready']
    exact honce.2

/-- A task was taken from the queue and runs; all else is as it was. -/
structure Taken (k k' : Kernel ρ κ ν ε) (t : Id) (rest : List (Job κ)) : Prop where
  waking : k'.Waking (some t)
  size : k'.futures.size = k.futures.size
  outcome : ∀ j, k'.outcome? j = k.outcome? j
  watchers : ∀ j, k'.watchers j = k.watchers j
  members : ∀ j, k'.members j = k.members j
  ready : k'.ready = rest
  timers : k'.timers = k.timers
  other : ∀ u, u ≠ t → k'.activity? u = k.activity? u
  self : ∃ a b, k.activity? t = some a ∧ k'.activity? t = some b ∧ b.body = none ∧
    b.waitingFor = none ∧ b.mustCancel = false ∧ b.cancelRequests = a.cancelRequests

variable {k : Kernel ρ κ ν ε} {t g : Id} {rest : List (Job κ)}

/-- Taking a task that changes its activity. -/
lemma Waking.taken (h : k.Waking none) {job : Job κ} (n : Nat) {a : Activity ρ} (c : Activity ρ)
    (hready : k.ready = job :: rest) (hjob : job.Rouses t) (ha : k.activity? t = some a)
    (hbody : c.body = none) (hidle : c.waitingFor = none) (hcancel : c.mustCancel = false)
    (hasked : c.cancelRequests = a.cancelRequests) :
    Taken k
      (({ k with ready := rest, batch := n } : Kernel ρ κ ν ε).update t fun f =>
        { f with activity := some c }) t rest := by
  obtain ⟨F, hF, -⟩ := Option.bind_eq_some_iff.1 ha
  generalize hk : ({ k with ready := rest, batch := n } : Kernel ρ κ ν ε) = k₁
  have hfutures : k₁.futures = k.futures := by rw [← hk]
  have houtcome₁ : ∀ u, k₁.outcome? u = k.outcome? u := fun u => by rw [← hk]; rfl
  have hwatchers₁ : ∀ u, k₁.watchers u = k.watchers u := fun u => by rw [← hk]; rfl
  generalize hk' : k₁.update t (fun f => { f with activity := some c }) = k'
  have hself : k'.activity? t = some c := by
    rw [← hk', activity?_update_self (show k₁.futures[t]? = some F by rw [hfutures, hF])]
  have hother : ∀ u, u ≠ t → k'.activity? u = k.activity? u := fun u hu => by
    rw [← hk', activity?_update_of_ne hu, activity?, activity?, hfutures]
  have houtcome : ∀ u, k'.outcome? u = k.outcome? u := fun u => by
    rw [← hk', ← houtcome₁]
    exact outcome?_update fun _ => rfl
  have hwatchers : ∀ u, k'.watchers u = k.watchers u := fun u => by
    rw [← hk', ← hwatchers₁]
    exact watchers_update fun _ => rfl
  have hmembers : ∀ u, k'.members u = k.members u := fun u => by
    have hmembers₁ : k₁.members u = k.members u := by rw [← hk]; rfl
    rw [← hk', ← hmembers₁]
    exact members_update fun _ => rfl
  have hsize : k'.futures.size = k.futures.size := by rw [← hk', size_update, hfutures]
  have hready' : k'.ready = rest := by rw [← hk', ready_update, ← hk]
  exact
    { waking := h.take hready hjob hself hidle hother (h.unsettled ha) houtcome hsize hwatchers
        hready'
      size := hsize
      outcome := houtcome
      watchers := hwatchers
      members := hmembers
      ready := hready'
      timers := by rw [← hk', timers_update, ← hk]
      other := hother
      self := ⟨a, c, ha, hself, hbody, hidle, hcancel, hasked⟩ }

variable [Inhabited ν]

/-- A task that is woken is given the outcome of the future that it waits for, unless it is asked
to cancel. -/
lemma perform_notify_wake (h : k.Waking none) (hready : k.ready = .notify (.wake t) g :: rest)
    (n : Nat) :
    ∃ a b o k', k.activity? t = some a ∧ a.body = some b ∧ a.waitingFor = some g ∧
      k.outcome? g = some o ∧
      perform { k with ready := rest, batch := n } (.notify (.wake t) g) =
        (k', .resume t b (if a.mustCancel then .cancelled else o)) ∧
      Taken k k' t rest := by
  obtain ⟨⟨o, ho⟩, a, ha, hg⟩ := h.told (show .notify (.wake t) g ∈ k.ready by simp [hready])
  obtain ⟨b, hb⟩ := h.body ha (by simp)
  have ha' : activity? { k with ready := rest, batch := n } t = some a := ha
  have ho' : outcome? { k with ready := rest, batch := n } g = some o := ho
  refine ⟨a, b, o, _, ha, hb, hg, ho, ?_,
    h.taken n { a with body := none, waitingFor := none, mustCancel := false } hready
      (.inr (.inr ⟨g, rfl⟩)) ha rfl rfl rfl rfl⟩
  simp only [perform, ho', wake_eq ha' hb]

/-- A task is begun, unless it was asked to cancel before. -/
lemma perform_start (h : k.Waking none) (hready : k.ready = .start t :: rest) (n : Nat) :
    ∃ a b, k.activity? t = some a ∧ a.body = some b ∧ a.waitingFor = none ∧
      (a.mustCancel = true ∧ perform { k with ready := rest, batch := n } (.start t) =
            (settle { k with ready := rest, batch := n } t .cancelled, .done) ∧
          Waking { k with ready := rest, batch := n } (some t) ∨
        ∃ k', perform { k with ready := rest, batch := n } (.start t) = (k', .begin t b) ∧
          Taken k k' t rest) := by
  obtain ⟨-, a, ha, hidle⟩ := h.due (.inl (show .start t ∈ k.ready by simp [hready]))
  obtain ⟨b, hb⟩ := h.body ha (by simp)
  have ha' : activity? { k with ready := rest, batch := n } t = some a := ha
  refine ⟨a, b, ha, hb, hidle, ?_⟩
  rw [perform, start_eq ha' hb]
  split
  · next hcancel =>
    exact .inl ⟨hcancel, rfl, h.take hready (.inl rfl) ha' hidle (fun _ _ => rfl) (h.unsettled ha)
      (fun _ => rfl) rfl (fun _ => rfl) rfl⟩
  · next hcancel =>
    exact .inr ⟨_, rfl, h.taken n { a with body := none } hready (.inl rfl) ha rfl hidle
      (by simpa using hcancel) rfl⟩

end Kernel

end SuggestBridge.Task
