import SuggestBridge.Task.Kernel
import Mathlib.Tactic.Common

/-!
# What the operations of a kernel change

A kernel is seen through four views: the outcome of a future (`outcome?`), the activity of a task
(`activity?`), the watchers of a future (`watchers`) and the queue of jobs (`ready`).  For every
operation there is one equation for each view that it changes; what an operation is not said to
change it leaves alone.

Two facts carry everything that is proved about runs: an outcome is never replaced
(`outcome?_settle_of_eq_some`), and whatever a request to cancel does is made of two small steps
(`cancelWithin_induction`).
-/

namespace SuggestBridge.Task.Kernel

variable {ρ κ ν ε : Type} {k : Kernel ρ κ ν ε} {id j : Id}

/-! ## Views -/

/-- The activity of a task that has not ended. -/
def activity? (k : Kernel ρ κ ν ε) (id : Id) : Option (Activity ρ) :=
  (k.futures[id]?).bind (·.activity)

/-- Who is told when a future is settled. -/
def watchers (k : Kernel ρ κ ν ε) (id : Id) : List (Watcher κ) :=
  ((k.futures[id]?).map (·.watchers)).getD []

/-- To whom a request to cancel a future that is no task is passed on. -/
def members (k : Kernel ρ κ ν ε) (id : Id) : List Id :=
  ((k.futures[id]?).map (·.members)).getD []

/-- A future that exists and is not settled. -/
def IsOpen (k : Kernel ρ κ ν ε) (id : Id) : Prop := id < k.futures.size ∧ k.outcome? id = none

lemma mem_of_lookup {os : List (Id × Outcome ν ε)} {u : Id} {o : Outcome ν ε}
    (h : os.lookup u = some o) : (u, o) ∈ os := by
  obtain ⟨before, after, rfl, -⟩ := List.lookup_eq_some_iff.1 h
  exact List.mem_append_right _ List.mem_cons_self

lemma isDone_eq_true_iff : k.isDone id = true ↔ ∃ o, k.outcome? id = some o := by
  rw [isDone, Option.isSome_iff_exists]

lemma isDone_eq_false_iff : k.isDone id = false ↔ k.outcome? id = none := by
  rw [isDone, Option.isSome_eq_false_iff, Option.isNone_iff_eq_none]

lemma exists_of_isOpen (h : k.IsOpen id) :
    ∃ f, k.futures[id]? = some f ∧ f.outcome = none := by
  obtain ⟨hlt, hnone⟩ := h
  refine ⟨k.futures[id], Array.getElem?_eq_getElem hlt, ?_⟩
  simpa [outcome?, hlt] using hnone

/-- Nothing is known of a future that does not exist. -/
lemma views_of_size_le (h : k.futures.size ≤ id) :
    k.outcome? id = none ∧ k.activity? id = none ∧ k.watchers id = [] := by
  simp [outcome?, activity?, watchers, h]

lemma members_of_size_le (h : k.futures.size ≤ id) : k.members id = [] := by
  simp [members, h]

lemma lt_size_of_activity? {a : Activity ρ} (h : k.activity? id = some a) :
    id < k.futures.size := by
  by_contra hle
  simp [(views_of_size_le (Nat.le_of_not_lt hle)).2.1] at h

lemma lt_size_of_outcome? {o : Outcome ν ε} (h : k.outcome? id = some o) :
    id < k.futures.size := by
  by_contra hle
  simp [(views_of_size_le (Nat.le_of_not_lt hle)).1] at h

/-! ## Changing one future -/

section Update

variable {f : Future ρ κ ν ε → Future ρ κ ν ε}

lemma getElem?_update :
    (k.update id f).futures[j]? = if id = j then (k.futures[j]?).map f else k.futures[j]? :=
  Array.getElem?_modify

@[simp] lemma size_update : (k.update id f).futures.size = k.futures.size := Array.size_modify

@[simp] lemma ready_update : (k.update id f).ready = k.ready := rfl

@[simp] lemma timers_update : (k.update id f).timers = k.timers := rfl

lemma outcome?_update (h : ∀ F, (f F).outcome = F.outcome) :
    (k.update id f).outcome? j = k.outcome? j := by
  rw [outcome?, outcome?, getElem?_update]
  split
  · cases k.futures[j]? <;> simp [h]
  · rfl

lemma watchers_update (h : ∀ F, (f F).watchers = F.watchers) :
    (k.update id f).watchers j = k.watchers j := by
  rw [watchers, watchers, getElem?_update]
  split
  · cases k.futures[j]? <;> simp [h]
  · rfl

lemma members_update (h : ∀ F, (f F).members = F.members) :
    (k.update id f).members j = k.members j := by
  rw [members, members, getElem?_update]
  split
  · cases k.futures[j]? <;> simp [h]
  · rfl

lemma activity?_update (h : ∀ F, (f F).activity = F.activity) :
    (k.update id f).activity? j = k.activity? j := by
  rw [activity?, activity?, getElem?_update]
  split
  · cases k.futures[j]? <;> simp [h]
  · rfl

lemma activity?_update_of_ne (h : j ≠ id) : (k.update id f).activity? j = k.activity? j := by
  rw [activity?, activity?, getElem?_update, if_neg (Ne.symm h)]

lemma activity?_update_self {F : Future ρ κ ν ε} (h : k.futures[id]? = some F) :
    (k.update id f).activity? id = (f F).activity := by
  rw [activity?, getElem?_update, if_pos rfl, h]
  rfl

/-- Changing the activity of a task. -/
lemma activity?_update_maps (g : Activity ρ → Activity ρ) :
    (k.update id fun F => { F with activity := F.activity.map g }).activity? j =
      (k.activity? j).map fun a => if j = id then g a else a := by
  rw [activity?, activity?, getElem?_update]
  by_cases hj : j = id
  · rw [if_pos hj.symm]
    cases k.futures[j]? with
    | none => rfl
    | some F => cases hF : F.activity <;> simp [hF, hj]
  · rw [if_neg (Ne.symm hj)]
    simp [hj]

lemma activity?_update_map {g : Activity ρ → Activity ρ} {a : Activity ρ}
    (h : k.activity? id = some a) :
    (k.update id fun F => { F with activity := F.activity.map g }).activity? id = some (g a) := by
  obtain ⟨F, hF, hact⟩ := Option.bind_eq_some_iff.1 h
  rw [activity?_update_self hF, hact]
  rfl

end Update

/-! ## New futures -/

section Add

variable {F : Future ρ κ ν ε}

lemma getElem?_add :
    (k.add F).1.futures[j]? = if j = k.futures.size then some F else k.futures[j]? :=
  Array.getElem?_push

@[simp] lemma size_add : (k.add F).1.futures.size = k.futures.size + 1 := Array.size_push F

@[simp] lemma ready_add : (k.add F).1.ready = k.ready := rfl

lemma outcome?_add (h : F.outcome = none) : (k.add F).1.outcome? j = k.outcome? j := by
  rw [outcome?, outcome?, getElem?_add]
  split
  · next hj => simp [hj, h]
  · rfl

lemma IsOpen.fresh (h : k.IsOpen id) : k.fresh.1.IsOpen id :=
  ⟨Nat.lt_of_lt_of_eq (Nat.lt_succ_of_lt h.1) size_add.symm, (outcome?_add rfl).trans h.2⟩

lemma activity?_add :
    (k.add F).1.activity? j = if j = k.futures.size then F.activity else k.activity? j := by
  rw [activity?, activity?, getElem?_add]
  split <;> rfl

lemma watchers_add (h : F.watchers = []) : (k.add F).1.watchers j = k.watchers j := by
  rw [watchers, watchers, getElem?_add]
  split
  · next hj => simp [hj, h]
  · rfl

lemma members_add (h : F.members = []) : (k.add F).1.members j = k.members j := by
  rw [members, members, getElem?_add]
  split
  · next hj => simp [hj, h]
  · rfl

lemma members_add_of_lt (h : j < k.futures.size) : (k.add F).1.members j = k.members j := by
  rw [members, members, getElem?_add, if_neg (Nat.ne_of_lt h)]

end Add

/-! ## Settling a future -/

section Settle

variable {o o' : Outcome ν ε}

lemma settle_of_not_isOpen (h : ¬k.IsOpen id) : k.settle id o = k := by
  rw [settle]
  split
  · next f hf =>
    have hsome : f.outcome.isSome = true := by
      by_contra hnone
      have hlt : id < k.futures.size := (Array.getElem?_eq_some_iff.1 hf).1
      refine h ⟨hlt, ?_⟩
      rw [outcome?, hf]
      simpa using hnone
    rw [if_pos hsome]
  · rfl

lemma settle_of_isOpen (h : k.IsOpen id) :
    k.settle id o =
      { k.update id fun f => { f with outcome := some o, watchers := [], activity := none } with
        ready := k.ready ++ (k.watchers id).map (.notify · id) } := by
  obtain ⟨f, hf, hnone⟩ := exists_of_isOpen h
  have hsome : ¬f.outcome.isSome = true := by simp [hnone]
  simp only [settle, hf, if_neg hsome, watchers, Option.map_some, Option.getD_some]
  rfl

lemma getElem?_settle_of_ne (h : j ≠ id) : (k.settle id o).futures[j]? = k.futures[j]? := by
  by_cases hopen : k.IsOpen id
  · rw [settle_of_isOpen hopen]
    exact getElem?_update.trans (if_neg (Ne.symm h))
  · rw [settle_of_not_isOpen hopen]

lemma outcome?_settle_of_ne (h : j ≠ id) : (k.settle id o).outcome? j = k.outcome? j := by
  rw [outcome?, outcome?, getElem?_settle_of_ne h]

lemma activity?_settle_of_ne (h : j ≠ id) : (k.settle id o).activity? j = k.activity? j := by
  rw [activity?, activity?, getElem?_settle_of_ne h]

lemma watchers_settle_of_ne (h : j ≠ id) : (k.settle id o).watchers j = k.watchers j := by
  rw [watchers, watchers, getElem?_settle_of_ne h]

lemma getElem?_settle_self (h : k.IsOpen id) :
    ∃ f, (k.settle id o).futures[id]? = some f ∧ f.outcome = some o ∧ f.watchers = [] ∧
      f.activity = none := by
  obtain ⟨f, hf, -⟩ := exists_of_isOpen h
  refine ⟨{ f with outcome := some o, watchers := [], activity := none }, ?_, rfl, rfl, rfl⟩
  rw [settle_of_isOpen h]
  refine getElem?_update.trans ?_
  rw [if_pos rfl, hf]
  rfl

lemma outcome?_settle_self (h : k.IsOpen id) : (k.settle id o).outcome? id = some o := by
  obtain ⟨f, hf, hout, -⟩ := @getElem?_settle_self ρ κ ν ε k id o h
  rw [outcome?, hf]
  exact hout

lemma activity?_settle_self (h : k.IsOpen id) : (k.settle id o).activity? id = none := by
  obtain ⟨f, hf, -, -, hact⟩ := @getElem?_settle_self ρ κ ν ε k id o h
  rw [activity?, hf]
  exact hact

lemma watchers_settle_self (h : k.IsOpen id) : (k.settle id o).watchers id = [] := by
  obtain ⟨f, hf, -, hwatch, -⟩ := @getElem?_settle_self ρ κ ν ε k id o h
  rw [watchers, hf]
  exact hwatch

lemma ready_settle (h : k.IsOpen id) :
    (k.settle id o).ready = k.ready ++ (k.watchers id).map (.notify · id) := by
  rw [settle_of_isOpen h]

@[simp] lemma size_settle : (k.settle id o).futures.size = k.futures.size := by
  by_cases h : k.IsOpen id
  · rw [settle_of_isOpen h]
    exact size_update
  · rw [settle_of_not_isOpen h]

@[simp] lemma timers_settle : (k.settle id o).timers = k.timers := by
  by_cases h : k.IsOpen id
  · rw [settle_of_isOpen h]
    rfl
  · rw [settle_of_not_isOpen h]

/-- An outcome is never replaced. -/
lemma outcome?_settle_of_eq_some (h : k.outcome? j = some o') :
    (k.settle id o).outcome? j = some o' := by
  by_cases hj : j = id
  · subst hj
    rw [settle_of_not_isOpen fun hopen => by simp [hopen.2] at h, h]
  · rw [outcome?_settle_of_ne hj, h]

/-- Settling a future that is no task leaves all tasks alone. -/
lemma activity?_settle_of_plain (h : k.activity? id = none) :
    (k.settle id o).activity? j = k.activity? j := by
  by_cases hj : j = id
  · subst hj
    by_cases hopen : k.IsOpen j
    · rw [activity?_settle_self hopen, h]
    · rw [settle_of_not_isOpen hopen]
  · exact activity?_settle_of_ne hj

lemma members_settle : (k.settle id o).members j = k.members j := by
  by_cases hopen : k.IsOpen id
  · rw [settle_of_isOpen hopen]
    exact members_update fun _ => rfl
  · rw [settle_of_not_isOpen hopen]

/-- The first outcome counts. -/
lemma outcome?_settle (h : id < k.futures.size) :
    (k.settle id o).outcome? j = (k.outcome? j).or (if j = id then some o else none) := by
  split
  · next hj =>
    subst hj
    cases hj : k.outcome? j with
    | some o' => exact outcome?_settle_of_eq_some hj
    | none => exact outcome?_settle_self ⟨h, hj⟩
  · next hj => rw [outcome?_settle_of_ne hj, Option.or_none]

lemma mem_watchers_settle {w : Watcher κ} (h : w ∈ (k.settle id o).watchers j) :
    w ∈ k.watchers j := by
  by_cases hopen : k.IsOpen id
  · by_cases hj : j = id
    · subst hj
      rw [watchers_settle_self hopen] at h
      exact absurd h List.not_mem_nil
    · rwa [watchers_settle_of_ne hj] at h
  · rwa [settle_of_not_isOpen hopen] at h

end Settle

/-! ## Watching a future -/

section Watch

variable {w : Watcher κ}

lemma watch_of_isDone (h : k.isDone id = true) : k.watch id w = k.soon (.notify w id) := by
  rw [watch, if_pos h]

lemma watch_of_isOpen (h : k.IsOpen id) :
    k.watch id w = k.update id fun f => { f with watchers := f.watchers ++ [w] } := by
  rw [watch, if_neg]
  simp [isDone_eq_false_iff.2 h.2]

lemma outcome?_watch : (k.watch id w).outcome? j = k.outcome? j := by
  rw [watch]
  split
  · rfl
  · exact outcome?_update fun _ => rfl

lemma activity?_watch : (k.watch id w).activity? j = k.activity? j := by
  rw [watch]
  split
  · rfl
  · exact activity?_update fun _ => rfl

@[simp] lemma size_watch : (k.watch id w).futures.size = k.futures.size := by
  rw [watch]
  split
  · rfl
  · exact size_update

@[simp] lemma timers_watch : (k.watch id w).timers = k.timers := by
  rw [watch]
  split <;> rfl

lemma watchers_watch_of_ne (h : j ≠ id) : (k.watch id w).watchers j = k.watchers j := by
  rw [watch]
  split
  · rfl
  · rw [watchers, watchers, getElem?_update, if_neg (Ne.symm h)]

lemma watchers_watch_self (h : k.IsOpen id) :
    (k.watch id w).watchers id = k.watchers id ++ [w] := by
  obtain ⟨f, hf, -⟩ := exists_of_isOpen h
  rw [watch_of_isOpen h, watchers, watchers, getElem?_update, if_pos rfl, hf]
  rfl

lemma members_watch : (k.watch id w).members j = k.members j := by
  rw [watch]
  split
  · rfl
  · exact members_update fun _ => rfl

end Watch

/-! ## Waiting for a future -/

/-- Whether the next step of a task is to be a cancellation. -/
def mustCancel (k : Kernel ρ κ ν ε) (t : Id) : Bool :=
  match k.futures[t]? with
  | some { activity := some a, .. } => a.mustCancel
  | _ => false

/-- Lets a task wait for a future, whether or not it is asked to cancel. -/
def waitFor (k : Kernel ρ κ ν ε) (t : Id) (body : ρ) (future : Id) : Kernel ρ κ ν ε :=
  (k.update t fun f =>
    { f with
      activity := f.activity.map fun a =>
        { a with body := some body, waitingFor := some future } }).watch future (.wake t)

/-- Takes back a request to cancel. -/
def uncancel (k : Kernel ρ κ ν ε) (t : Id) : Kernel ρ κ ν ε :=
  k.update t fun f =>
    { f with activity := f.activity.map fun a => { a with mustCancel := false } }

lemma suspend_eq (k : Kernel ρ κ ν ε) (t : Id) (body : ρ) (future : Id) :
    k.suspend t body future =
      if k.mustCancel t then
        if ((k.waitFor t body future).cancel future).2 then
          ((k.waitFor t body future).cancel future).1.uncancel t
        else ((k.waitFor t body future).cancel future).1
      else k.waitFor t body future := rfl

lemma finish_eq (k : Kernel ρ κ ν ε) (t : Id) (o : Outcome ν ε) :
    k.finish t o =
      match o with
      | .value _ => k.settle t (if k.mustCancel t then .cancelled else o)
      | _ => k.settle t o := rfl

lemma mustCancel_eq (k : Kernel ρ κ ν ε) (t : Id) :
    k.mustCancel t = ((k.activity? t).map (·.mustCancel)).getD false := by
  rw [mustCancel, activity?]
  rcases k.futures[t]? with _ | ⟨_, _, _ | a, _, _, _⟩ <;> rfl

lemma wasAskedToCancel_eq (k : Kernel ρ κ ν ε) (t : Id) :
    k.wasAskedToCancel t = ((k.activity? t).map fun a => decide (a.cancelRequests ≠ 0)).getD false := by
  rw [wasAskedToCancel, activity?]
  rcases k.futures[t]? with _ | ⟨_, _, _ | a, _, _, _⟩ <;> rfl

/-! ## Handing a task its turn -/

lemma wake_eq {t : Id} {a : Activity ρ} {b : ρ} (ha : k.activity? t = some a)
    (hb : a.body = some b) (o : Outcome ν ε) :
    k.wake t o =
      (k.update t fun f =>
        { f with
          activity := some { a with body := none, waitingFor := none, mustCancel := false } },
        .resume t b (if a.mustCancel then .cancelled else o)) := by
  obtain ⟨⟨_, _, act, _, _, _⟩, hF, rfl⟩ := Option.bind_eq_some_iff.1 ha
  simp only [wake, hF, hb]

lemma start_eq {t : Id} {a : Activity ρ} {b : ρ} (ha : k.activity? t = some a)
    (hb : a.body = some b) :
    k.start t =
      if a.mustCancel then (k.settle t .cancelled, .done)
      else
        (k.update t fun f => { f with activity := some { a with body := none } },
          .begin t b) := by
  obtain ⟨⟨_, _, act, _, _, _⟩, hF, rfl⟩ := Option.bind_eq_some_iff.1 ha
  simp only [start, hF, hb]

/-! ## Requests to cancel -/

/-- The change of a future concerns nothing but requests to cancel. -/
def IsNote (k : Kernel ρ κ ν ε) (id : Id) (f : Future ρ κ ν ε → Future ρ κ ν ε) : Prop :=
  ∀ F, k.futures[id]? = some F →
    (f F).outcome = F.outcome ∧ (f F).watchers = F.watchers ∧ (f F).members = F.members ∧
      (F.activity = none → (f F).activity = none) ∧
      ∀ a, F.activity = some a →
        ∃ b, (f F).activity = some b ∧ b.body = a.body ∧ b.waitingFor = a.waitingFor

/-- A task is asked to cancel once more. -/
lemma isNote_ask {a : Activity ρ} (ha : k.activity? id = some a) :
    IsNote k id fun f =>
      { f with activity := some { a with cancelRequests := a.cancelRequests + 1 } } := by
  obtain ⟨F, hF, hact⟩ := Option.bind_eq_some_iff.1 ha
  intro G hG
  rw [hF] at hG
  cases hG
  refine ⟨rfl, rfl, rfl, fun hnone => by simp [hact] at hnone, fun b hb => ?_⟩
  rw [hact] at hb
  cases hb
  exact ⟨_, rfl, rfl, rfl⟩

/-- A task keeps a request in mind. -/
lemma isNote_keep (k : Kernel ρ κ ν ε) (id : Id) :
    IsNote k id fun f =>
      { f with activity := f.activity.map fun a => { a with mustCancel := true } } :=
  fun _ _ => ⟨rfl, rfl, rfl, fun hnone => by simp [hnone],
    fun a ha => ⟨{ a with mustCancel := true }, by simp [ha], rfl, rfl⟩⟩

lemma outcome?_note {f : Future ρ κ ν ε → Future ρ κ ν ε} (h : IsNote k id f) :
    (k.update id f).outcome? j = k.outcome? j := by
  rw [outcome?, outcome?, getElem?_update]
  split
  · next hj =>
    subst hj
    cases hF : k.futures[id]? with
    | none => rfl
    | some F => exact (h F hF).1
  · rfl

lemma watchers_note {f : Future ρ κ ν ε → Future ρ κ ν ε} (h : IsNote k id f) :
    (k.update id f).watchers j = k.watchers j := by
  rw [watchers, watchers, getElem?_update]
  split
  · next hj =>
    subst hj
    cases hF : k.futures[id]? with
    | none => rfl
    | some F => exact (h F hF).2.1
  · rfl

lemma members_note {f : Future ρ κ ν ε → Future ρ κ ν ε} (h : IsNote k id f) :
    (k.update id f).members j = k.members j := by
  rw [members, members, getElem?_update]
  split
  · next hj =>
    subst hj
    cases hF : k.futures[id]? with
    | none => rfl
    | some F => exact (h F hF).2.2.1
  · rfl

/-- A note leaves every task where it was. -/
lemma activity?_note {f : Future ρ κ ν ε → Future ρ κ ν ε} (h : IsNote k id f) {a : Activity ρ}
    (ha : (k.update id f).activity? j = some a) :
    ∃ b, k.activity? j = some b ∧ b.body = a.body ∧ b.waitingFor = a.waitingFor := by
  by_cases hj : j = id
  · subst hj
    cases hF : k.futures[j]? with
    | none => simp [activity?, getElem?_update, hF] at ha
    | some F =>
      rw [activity?_update_self hF] at ha
      obtain ⟨-, -, -, hnone, hsome⟩ := h F hF
      cases hact : F.activity with
      | none => simp [hnone hact] at ha
      | some b =>
        obtain ⟨c, hc, hbody, hwaiting⟩ := hsome b hact
        rw [hc] at ha
        cases ha
        exact ⟨b, by rw [activity?, hF]; exact hact, hbody.symm, hwaiting.symm⟩
  · rw [activity?_update_of_ne hj] at ha
    exact ⟨a, ha, rfl, rfl⟩

lemma exists_activity?_note {f : Future ρ κ ν ε → Future ρ κ ν ε} (h : IsNote k id f)
    {a : Activity ρ} (ha : k.activity? j = some a) :
    ∃ b, (k.update id f).activity? j = some b ∧ b.body = a.body ∧ b.waitingFor = a.waitingFor := by
  by_cases hj : j = id
  · subst hj
    cases hF : k.futures[j]? with
    | none => simp [activity?, hF] at ha
    | some F =>
      have hact : F.activity = some a := by simpa [activity?, hF] using ha
      rw [activity?_update_self hF]
      exact (h F hF).2.2.2.2 a hact
  · exact ⟨a, by rw [activity?_update_of_ne hj, ha], rfl, rfl⟩

lemma isNote_uncancel (k : Kernel ρ κ ν ε) (id : Id) :
    IsNote k id fun f =>
      { f with activity := f.activity.map fun a => { a with mustCancel := false } } :=
  fun _ _ => ⟨rfl, rfl, rfl, fun hnone => by simp [hnone],
    fun a ha => ⟨{ a with mustCancel := false }, by simp [ha], rfl, rfl⟩⟩

/-- Whatever a request to cancel does is made of notes and of cancellations of futures that are no
tasks. -/
theorem cancelWithin_induction {P : Kernel ρ κ ν ε → Prop}
    (settle : ∀ k id, k.activity? id = none → P k → P (k.settle id .cancelled))
    (note : ∀ k id f, IsNote k id f → P k → P (k.update id f)) (fuel : Nat)
    (h : P k) : P (k.cancelWithin fuel id).1 := by
  induction fuel generalizing k id with
  | zero => exact h
  | succ fuel ih =>
    have members : ∀ (ms : List Id) (k : Kernel ρ κ ν ε) (asked : Bool), P k →
        P (ms.foldl (fun r m => ((cancelWithin r.1 fuel m).1, r.2 || (cancelWithin r.1 fuel m).2))
          (k, asked)).1 := by
      intro ms
      induction ms with
      | nil => exact fun k asked h => h
      | cons m ms ihms => exact fun k asked h => ihms _ _ (ih h)
    rw [cancelWithin]
    split
    · exact h
    · next F hF =>
      split
      · exact h
      · split
        · next a ha =>
          have hasked : P (k.update id fun f =>
              { f with activity := some { a with cancelRequests := a.cancelRequests + 1 } }) := by
            refine note k id _ (fun G hG => ⟨rfl, rfl, rfl, ?_, ?_⟩) h
            · intro hnone
              rw [hF] at hG
              cases hG
              simp [ha] at hnone
            · intro b hb
              rw [hF] at hG
              cases hG
              rw [ha] at hb
              cases hb
              exact ⟨_, rfl, rfl, rfl⟩
          have hkeep : ∀ k : Kernel ρ κ ν ε, P k → P (k.update id fun f =>
              { f with activity := f.activity.map fun a => { a with mustCancel := true } }) := by
            refine fun k hk => note k id _ (fun G _ => ⟨rfl, rfl, rfl, ?_, ?_⟩) hk
            · intro hnone
              simp [hnone]
            · intro b hb
              exact ⟨{ b with mustCancel := true }, by simp [hb], rfl, rfl⟩
          split
          · exact hkeep _ hasked
          · next target htarget =>
            have hpassed := @ih _ target hasked
            dsimp only
            split
            · exact hpassed
            · exact hkeep _ hpassed
        · next hnone =>
          split
          · exact settle k id (by rw [activity?, hF]; exact hnone) h
          · have hmembers := members F.members k false h
            dsimp only at hmembers ⊢
            split
            · exact note _ id _
                (fun G _ => ⟨rfl, rfl, rfl, fun h => h, fun a ha => ⟨a, ha, rfl, rfl⟩⟩)
                hmembers
            · exact hmembers

end SuggestBridge.Task.Kernel
