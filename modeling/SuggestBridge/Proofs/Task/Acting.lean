import SuggestBridge.Proofs.Task.Relaying
import SuggestBridge.Proofs.Task.Timers
import SuggestBridge.Proofs.Task.Waking
import Mathlib.Logic.Relation

/-!
# What routines do with a kernel

While a task runs it makes futures and tasks, settles futures that are no tasks, watches, arms
timers and asks other tasks to cancel.  `Act` lists these operations together with what is needed
for each, so that a kernel keeps to its plan; `Acts` are any number of them.  Whatever happens in
this way, no other task moves and no outcome is replaced (`Grows`).
-/

namespace SuggestBridge.Task.Kernel

variable {ρ κ ν ε τ : Type} {k k' : Kernel ρ κ ν ε} {p : Plan τ} {quiet : ρ → Prop}
  {x g t j : Id} {w v : Watcher κ} {o : Outcome ν ε}

/-! ## Views of the remaining operations -/

lemma mem_watchers_watch (h : v ∈ (k.watch g w).watchers j) :
    v ∈ k.watchers j ∨ v = w ∧ j = g := by
  by_cases hj : j = g
  · subst hj
    by_cases hopen : k.IsOpen j
    · rw [watchers_watch_self hopen, List.mem_append, List.mem_singleton] at h
      exact h.imp id fun heq => ⟨heq, rfl⟩
    · rw [watch] at h
      split at h
      · exact .inl h
      · next hdone =>
        have hle : k.futures.size ≤ j := by
          by_contra hlt
          exact hopen ⟨Nat.lt_of_not_le hlt, isDone_eq_false_iff.1 (by simpa using hdone)⟩
        have hnil : (k.update j fun f => { f with watchers := f.watchers ++ [w] }).watchers j = [] :=
          (views_of_size_le (by simpa using hle)).2.2
        rw [hnil] at h
        exact absurd h List.not_mem_nil
  · rw [watchers_watch_of_ne hj] at h
    exact .inl h

lemma mem_watch_watchers (h : v ∈ k.watchers j) : v ∈ (k.watch g w).watchers j := by
  by_cases hj : j = g
  · subst hj
    by_cases hopen : k.IsOpen j
    · rw [watchers_watch_self hopen]
      exact List.mem_append_left _ h
    · rw [watch]
      split
      · exact h
      · next hdone =>
        have hle : k.futures.size ≤ j := by
          by_contra hlt
          exact hopen ⟨Nat.lt_of_not_le hlt, isDone_eq_false_iff.1 (by simpa using hdone)⟩
        rw [(views_of_size_le hle).2.2] at h
        exact absurd h List.not_mem_nil
  · rwa [watchers_watch_of_ne hj]

lemma ready_watch :
    (k.watch g w).ready = k.ready ++ if k.isDone g then [.notify w g] else [] := by
  rw [watch]
  split
  · rfl
  · rw [ready_update, List.append_nil]

lemma filter_watchers_watch (hw : w.wakes = false) :
    ((k.watch g w).watchers j).filter Watcher.wakes = (k.watchers j).filter Watcher.wakes := by
  by_cases hj : j = g
  · subst hj
    by_cases hopen : k.IsOpen j
    · rw [watchers_watch_self hopen, List.filter_append]
      simp [hw]
    · rw [watch]
      split
      · rfl
      · next hdone =>
        have hle : k.futures.size ≤ j := by
          by_contra hlt
          exact hopen ⟨Nat.lt_of_not_le hlt, isDone_eq_false_iff.1 (by simpa using hdone)⟩
        rw [(views_of_size_le hle).2.2, (views_of_size_le (by simpa using hle)).2.2]
  · rw [watchers_watch_of_ne hj]

section Unwatch

variable {waiter : Id}

/-- The watchers that stay when the wait of a waiter is over. -/
def stays (waiter : Id) : Watcher κ → Bool
  | .release w => w != waiter
  | .countdown w => w != waiter
  | _ => true

lemma unwatch_eq (k : Kernel ρ κ ν ε) (id waiter : Id) :
    k.unwatch id waiter =
      k.update id fun f => { f with watchers := f.watchers.filter (stays waiter) } := rfl

lemma watchers_unwatch :
    (k.unwatch g waiter).watchers j =
      if g = j then (k.watchers j).filter (stays waiter) else k.watchers j := by
  rw [unwatch_eq, watchers, watchers, getElem?_update]
  split
  · cases k.futures[j]? <;> rfl
  · rfl

lemma outcome?_unwatch : (k.unwatch g waiter).outcome? j = k.outcome? j := by
  rw [unwatch_eq]
  exact outcome?_update fun _ => rfl

lemma activity?_unwatch : (k.unwatch g waiter).activity? j = k.activity? j := by
  rw [unwatch_eq]
  exact activity?_update fun _ => rfl

lemma members_unwatch : (k.unwatch g waiter).members j = k.members j := by
  rw [unwatch_eq]
  exact members_update fun _ => rfl

@[simp] lemma size_unwatch : (k.unwatch g waiter).futures.size = k.futures.size := by
  rw [unwatch_eq]
  exact size_update

lemma filter_watchers_unwatch :
    ((k.unwatch g waiter).watchers j).filter Watcher.wakes =
      (k.watchers j).filter Watcher.wakes := by
  rw [watchers_unwatch]
  split
  · rw [List.filter_filter]
    refine List.filter_congr fun w _ => ?_
    cases w <;> rfl
  · rfl

end Unwatch

section Spawn

variable {b : ρ}

@[simp] lemma size_spawn : (k.spawn b).1.futures.size = k.futures.size + 1 := size_add

lemma activity?_spawn :
    (k.spawn b).1.activity? j =
      if j = k.futures.size then some { body := some b } else k.activity? j := activity?_add

lemma activity?_spawn_of_lt (h : j < k.futures.size) :
    (k.spawn b).1.activity? j = k.activity? j := by
  rw [activity?_spawn, if_neg (Nat.ne_of_lt h)]

lemma outcome?_spawn : (k.spawn b).1.outcome? j = k.outcome? j := outcome?_add rfl

lemma watchers_spawn : (k.spawn b).1.watchers j = k.watchers j := watchers_add rfl

lemma members_spawn : (k.spawn b).1.members j = k.members j := members_add rfl

lemma ready_spawn : (k.spawn b).1.ready = k.ready ++ [.start k.futures.size] := rfl

end Spawn

/-- A future that is no task. -/
lemma activity?_add_plain {F : Future ρ κ ν ε} (h : F.activity = none) :
    (k.add F).1.activity? j = k.activity? j := by
  rw [activity?_add]
  split
  · next hj => rw [h, (views_of_size_le (Nat.le_of_eq hj.symm)).2.1]
  · rfl

lemma leaf_fresh (k : Kernel ρ κ ν ε) : k.fresh.1.Leaf k.futures.size where
  lt := Nat.lt_of_lt_of_eq (Nat.lt_succ_self _) size_add.symm
  plain := (activity?_add_plain rfl).trans (views_of_size_le (Nat.le_refl _)).2.1
  members := (members_add rfl).trans (members_of_size_le (Nat.le_refl _))

/-- A future waits for more or fewer reports. -/
def expect (k : Kernel ρ κ ν ε) (x : Id) (n : Nat → Nat) : Kernel ρ κ ν ε :=
  k.update x fun f => { f with awaited := n f.awaited }

lemma outcome?_expect {n : Nat → Nat} : (k.expect x n).outcome? j = k.outcome? j :=
  outcome?_update fun _ => rfl

lemma activity?_expect {n : Nat → Nat} : (k.expect x n).activity? j = k.activity? j :=
  activity?_update fun _ => rfl

lemma watchers_expect {n : Nat → Nat} : (k.expect x n).watchers j = k.watchers j :=
  watchers_update fun _ => rfl

lemma members_expect {n : Nat → Nat} : (k.expect x n).members j = k.members j :=
  members_update fun _ => rfl

@[simp] lemma size_expect {n : Nat → Nat} : (k.expect x n).futures.size = k.futures.size := size_update

lemma Loose.expect {n : Nat → Nat} (h : k.Loose p j) : (k.expect x n).Loose p j :=
  ⟨Nat.lt_of_lt_of_eq h.1 size_expect.symm, activity?_expect.trans h.2.1, h.2.2⟩

lemma Timely.rouses {job : Job κ} (h : k.Timely p job) : job.rouses = false := by
  cases job with
  | complete x => rfl
  | hook h => rfl
  | start t => exact h.elim
  | proceed t => exact h.elim
  | notify w g => exact h.elim

lemma Timely.proper {job : Job κ} (h : k.Timely p job) : k.Proper p job := by
  cases job with
  | complete x => exact h
  | hook h => trivial
  | start t => trivial
  | proceed t => exact h.elim
  | notify w g => exact h.elim

/-! ## Acts -/

/-- One operation of a running task. -/
inductive Act (p : Plan τ) (quiet : ρ → Prop) (k : Kernel ρ κ ν ε) : Kernel ρ κ ν ε → Prop where
  | add {F : Future ρ κ ν ε} (outcome : F.outcome = none) (watchers : F.watchers = [])
      (activity : F.activity = none) (members : ∀ m ∈ F.members, m < k.futures.size ∧ p.Free m) :
      Act p quiet k (k.add F).1
  | spawn {b : ρ} (body : quiet b) : Act p quiet k (k.spawn b).1
  | settle {x : Id} (o : Outcome ν ε) (loose : k.Loose p x) : Act p quiet k (k.settle x o)
  | watch {w : Watcher κ} {g : Id} (wakes : w.wakes = false) (aims : k.Aims p w g) :
      Act p quiet k (k.watch g w)
  | unwatch (g waiter : Id) : Act p quiet k (k.unwatch g waiter)
  | expect (x : Id) (n : Nat → Nat) : Act p quiet k (k.expect x n)
  | after (delay : Float) {job : Job κ} (timely : k.Timely p job) :
      Act p quiet k (k.after delay job).1
  | disarm (timer : Nat) : Act p quiet k (k.disarm timer)
  | soon {job : Job κ} (timely : k.Timely p job) : Act p quiet k (k.soon job)
  | cancel {t : Id} (free : p.Free t) : Act p quiet k (k.cancel t).1

/-- Any number of operations. -/
abbrev Acts (p : Plan τ) (quiet : ρ → Prop) : Kernel ρ κ ν ε → Kernel ρ κ ν ε → Prop :=
  Relation.ReflTransGen (Act p quiet)

/-! ## Nothing else moves -/

/-- Tasks were begun and futures settled; nobody was taken from its wait, and no outcome was replaced. -/
structure Bears (quiet : ρ → Prop) (k k' : Kernel ρ κ ν ε) : Prop extends Widens k k' where
  outcome : ∀ {x o}, k.outcome? x = some o → k'.outcome? x = some o
  kept : ∀ {t a}, k.activity? t = some a → ∃ b, k'.activity? t = some b ∧ b.body = a.body ∧
    b.waitingFor = a.waitingFor ∧ (a.cancelRequests ≠ 0 → b.cancelRequests ≠ 0)
  begun : ∀ {t b}, k'.activity? t = some b → (∃ a, k.activity? t = some a) ∨
    k.futures.size ≤ t ∧ b.waitingFor = none ∧ ∃ r, b.body = some r ∧ quiet r

namespace Bears

lemma refl (k : Kernel ρ κ ν ε) : Bears quiet k k where
  toWidens := .refl k
  outcome := id
  kept ha := ⟨_, ha, rfl, rfl, id⟩
  begun ha := .inl ⟨_, ha⟩

lemma trans {k'' : Kernel ρ κ ν ε} (h : Bears quiet k k') (h' : Bears quiet k' k'') :
    Bears quiet k k'' where
  toWidens := h.toWidens.trans h'.toWidens
  outcome ho := h'.outcome (h.outcome ho)
  kept ha := by
    obtain ⟨b, hb, hbody, hwaiting, hasked⟩ := h.kept ha
    obtain ⟨c, hc, hbody', hwaiting', hasked'⟩ := h'.kept hb
    exact ⟨c, hc, hbody'.trans hbody, hwaiting'.trans hwaiting, hasked' ∘ hasked⟩
  begun {t c} hc := by
    rcases h'.begun hc with ⟨b, hb⟩ | ⟨hle, hnew⟩
    · rcases h.begun hb with hold | ⟨hle, hidle, r, hr, hquiet⟩
      · exact .inl hold
      · obtain ⟨d, hd, hbody, hwaiting, -⟩ := h'.kept hb
        rw [hc] at hd
        cases hd
        exact .inr ⟨hle, hwaiting.trans hidle, r, hbody.trans hr, hquiet⟩
    · exact .inr ⟨Nat.le_trans h.size hle, hnew⟩

/-- Where no task was changed. -/
lemma of_activity (hsize : k'.futures.size = k.futures.size)
    (hout : ∀ {x o}, k.outcome? x = some o → k'.outcome? x = some o)
    (hact : ∀ x, k'.activity? x = k.activity? x)
    (hmembers : ∀ x, k'.members x = k.members x) : Bears quiet k k' where
  toWidens := .of_activity hsize (fun x hx => (hact x).trans hx) hmembers
  outcome := hout
  kept {t a} ha := ⟨a, (hact t).trans ha, rfl, rfl, id⟩
  begun {t b} hb := .inl ⟨b, (hact t).symm.trans hb⟩

end Bears

/-- Whatever else there was is as it was. -/
structure Grows (quiet : ρ → Prop) (k k' : Kernel ρ κ ν ε) : Prop extends Bears quiet k k' where
  firm : Firm k k'

namespace Grows

lemma refl (k : Kernel ρ κ ν ε) : Grows quiet k k := ⟨.refl k, .of_activity fun _ => rfl⟩

lemma trans {k'' : Kernel ρ κ ν ε} (h : Grows quiet k k') (h' : Grows quiet k' k'') :
    Grows quiet k k'' := ⟨h.toBears.trans h'.toBears, h.firm.trans h'.firm⟩

/-- Where no task was changed. -/
lemma of_activity (hsize : k'.futures.size = k.futures.size)
    (hout : ∀ {x o}, k.outcome? x = some o → k'.outcome? x = some o)
    (hact : ∀ x, k'.activity? x = k.activity? x)
    (hmembers : ∀ x, k'.members x = k.members x) : Grows quiet k k' :=
  ⟨.of_activity hsize hout hact hmembers, .of_activity hact⟩

end Grows

/-! ## A request to cancel -/

/-- What a request to cancel `root` keeps: the kernel follows its plan, no marked task but `root`
itself is concerned, and no outcome is replaced. -/
structure Spares (p : Plan τ) (root : Id) (k k' : Kernel ρ κ ν ε) : Prop where
  follows : k'.Follows p
  marked : ∀ {u}, p.mark? u ≠ none → u ≠ root → k'.activity? u = k.activity? u
  outcome : ∀ {x o}, k.outcome? x = some o → k'.outcome? x = some o
  /-- If `root` takes over an outcome, then the task that waits for it was asked. -/
  asked : ∀ {c u a}, p.relay? root = some (c, u) → k'.activity? c = some a →
    a.waitingFor = some root → a.cancelRequests ≠ 0

namespace Spares

variable {k'' : Kernel ρ κ ν ε} {root : Id} {a b : Activity ρ}

/-- A future that takes over an outcome is reached only through the task that waits for it. -/
lemma settle (h : Spares p root k k') (hplain : k'.activity? x = none) (hx : k'.Entered root x) :
    Spares p root k (k'.settle x .cancelled) := by
  have hact : ∀ {t : Id}, (k'.settle x .cancelled).activity? t = k'.activity? t :=
    activity?_settle_of_plain hplain
  have hasked : ∀ c u, p.relay? x = some (c, u) → ∀ a, k'.activity? c = some a →
      a.waitingFor = some x → a.cancelRequests ≠ 0 := by
    intro c u hcu a ha hwaiting
    rcases hx with rfl | ⟨t, b, hb, hbx, hasked⟩ | ⟨g, hg⟩
    · exact h.asked hcu ha hwaiting
    · have hct : c = t := (h.follows.waiting hb hbx).2.2 c u hcu
      subst hct
      rw [ha] at hb
      cases hb
      exact hasked
    · simp [(h.follows.members hg).2.1] at hcu
  exact
    { follows := h.follows.settle fun c u hcu => .inr ⟨rfl, hasked c u hcu⟩
      marked := fun hu hne => hact.trans (h.marked hu hne)
      outcome := fun ho => outcome?_settle_of_eq_some (h.outcome ho)
      asked := fun hcu ha => h.asked hcu (hact ▸ ha) }

/-- A task that the request has come to takes note of it. -/
lemma note (h : Spares p root k k') (ha : k'.activity? t = some a) (hx : k'.Entered root t)
    (hsize : k''.futures.size = k'.futures.size) (hready : k''.ready = k'.ready)
    (htimers : k''.timers = k'.timers) (hout : ∀ x, k''.outcome? x = k'.outcome? x)
    (hwatchers : ∀ x, k''.watchers x = k'.watchers x)
    (hmembers : ∀ x, k''.members x = k'.members x)
    (hother : ∀ u, u ≠ t → k''.activity? u = k'.activity? u) (hself : k''.activity? t = some b)
    (hbody : a.body = b.body) (hwaiting : a.waitingFor = b.waitingFor) (hasked : b.cancelRequests ≠ 0)
    (hpending : b.waitingFor = none → b.mustCancel = true) : Spares p root k k'' := by
  have hfollows : k''.Follows p := by
    refine h.follows.note hsize hready htimers hout hwatchers hmembers (fun y hy => ?_) ?_
    · have hne : y ≠ t := by
        rintro rfl
        simp [ha] at hy
      rw [hother y hne, hy]
    · intro u c hc
      by_cases hu : u = t
      · subst hu
        rw [hself] at hc
        cases hc
        exact ⟨a, ha, hbody, hwaiting, fun _ => hasked, fun _ => hasked,
          fun _ hidle _ => hpending hidle⟩
      · rw [hother u hu] at hc
        exact ⟨c, hc, rfl, rfl, id, h.follows.asked hc, h.follows.pending hc⟩
  refine ⟨hfollows, fun {u} hu hne => ?_, fun ho => (hout _).trans (h.outcome ho), ?_⟩
  · have hut : u ≠ t := by
      rintro rfl
      rcases hx with heq | ⟨t', c, hc, hcx, -⟩ | ⟨g, hg⟩
      · exact hne heq
      · exact hu (h.follows.waiting hc hcx).2.1
      · exact hu (h.follows.members hg).2.2
    rw [hother u hut, h.marked hu hne]
  · intro c u d hcu hd hroot
    by_cases hc : c = t
    · subst hc
      rw [hself] at hd
      cases hd
      exact hasked
    · rw [hother c hc] at hd
      exact h.asked hcu hd hroot

lemma ask (h : Spares p root k k') (ha : k'.activity? t = some a) (hwaiting : a.waitingFor ≠ none)
    (hx : k'.Entered root t) : Spares p root k (k'.ask t a) := by
  have hnote := isNote_ask ha
  exact h.note ha hx size_update rfl rfl (fun _ => outcome?_note hnote)
    (fun _ => watchers_note hnote) (fun _ => members_note hnote) (fun _ => activity?_ask_of_ne)
    (activity?_ask_self ha) rfl rfl (Nat.succ_ne_zero _) fun hidle => absurd hidle hwaiting

lemma keep (h : Spares p root k k') (ha : k'.activity? t = some a) (hasked : a.cancelRequests ≠ 0)
    (hx : k'.Entered root t) : Spares p root k (k'.keep t) := by
  have hnote := isNote_keep k' t
  exact h.note ha hx size_update rfl rfl (fun _ => outcome?_note hnote)
    (fun _ => watchers_note hnote) (fun _ => members_note hnote) (fun _ => activity?_keep_of_ne)
    (activity?_keep_self ha) rfl rfl hasked fun _ => rfl

lemma askKeep (h : Spares p root k k') (ha : k'.activity? t = some a) (hx : k'.Entered root t) :
    Spares p root k ((k'.ask t a).keep t) := by
  have hask := isNote_ask ha
  have hkeep := isNote_keep (k'.ask t a) t
  exact h.note ha hx (size_update.trans size_update) rfl rfl
    (fun _ => (outcome?_note hkeep).trans (outcome?_note hask))
    (fun _ => (watchers_note hkeep).trans (watchers_note hask))
    (fun _ => (members_note hkeep).trans (members_note hask))
    (fun _ hu => (activity?_keep_of_ne hu).trans (activity?_ask_of_ne hu))
    (activity?_keep_self (activity?_ask_self ha)) rfl rfl (Nat.succ_ne_zero _) fun _ => rfl

lemma markAsked (h : Spares p root k k') (g : Id) : Spares p root k (k'.markAsked g) := by
  have hnote := isNote_markAsked k' g
  refine ⟨?_, fun hu hne => activity?_markAsked.trans (h.marked hu hne),
    fun ho => (outcome?_note hnote).trans (h.outcome ho),
    fun hcu ha => h.asked hcu (activity?_markAsked ▸ ha)⟩
  refine h.follows.note size_update rfl rfl (fun _ => outcome?_note hnote)
    (fun _ => watchers_note hnote) (fun _ => members_note hnote)
    (fun x hx => activity?_markAsked.trans hx) fun {u b} hb => ?_
  rw [activity?_markAsked] at hb
  exact ⟨b, hb, rfl, rfl, id, h.follows.asked hb, h.follows.pending hb⟩

lemma cancel (h : k.Follows p)
    (hroot : ∀ {c u a}, p.relay? root = some (c, u) → k.activity? c = some a →
      a.waitingFor = some root → a.cancelRequests ≠ 0) : Spares p root k (k.cancel root).1 :=
  (cancelWithin_steps (P := Spares p root k) (fun h => h.settle) (fun h => h.ask)
    (fun h ha _ hx => h.askKeep ha hx) (fun h => h.keep) (fun h => h.markAsked _) _ (.inl rfl)
    ⟨h, fun _ _ => rfl, id, hroot⟩).1

end Spares

/-! ## What acts keep -/

namespace Follows

/-- No task is concerned, and no future that takes over an outcome is new. -/
lemma of_plain (h : k.Follows p) (hwide : Widens k k')
    (hout : ∀ x, k'.outcome? x = k.outcome? x) (hact : ∀ x, k'.activity? x = k.activity? x)
    (hwatchers : ∀ {w g}, w ∈ k'.watchers g → w ∈ k.watchers g ∨ k'.Aims p w g)
    (hkept : ∀ {x u}, .relay x ∈ k.watchers u → .relay x ∈ k'.watchers u)
    (hready : ∀ {job}, job ∈ k'.ready → job ∈ k.ready ∨ k'.Proper p job)
    (hqueued : ∀ {job}, job ∈ k.ready → job ∈ k'.ready)
    (htimers : ∀ {t}, t ∈ k'.timers → (∃ t' ∈ k.timers, t'.job = t.job) ∨ k'.Timely p t.job)
    (hmembers : ∀ {m g}, m ∈ k'.members g →
      m ∈ k.members g ∨ m < k'.futures.size ∧ p.Free m) : k'.Follows p :=
  h.mono hwide (.refl p _) hout (fun ha => .inl (hact _ ▸ ha))
    (fun hx hle => absurd (h.relay_lt hx) (Nat.not_lt.2 hle))
    (fun hu => Nat.lt_of_lt_of_le (h.marks hu) hwide.size) hwatchers hkept hready hqueued htimers
    hmembers

/-- A timer that is kept. -/
lemma same {t : Timer (Job κ)} (ht : t ∈ k.timers) :
    (∃ t' ∈ k.timers, t'.job = t.job) ∨ k'.Timely p t.job := .inl ⟨t, ht, rfl⟩

lemma add (h : k.Follows p) {F : Future ρ κ ν ε} (houtcome : F.outcome = none)
    (hwatchers : F.watchers = []) (hactivity : F.activity = none)
    (hmembers : ∀ m ∈ F.members, m < k.futures.size ∧ p.Free m) : (k.add F).1.Follows p := by
  refine h.of_plain
    ⟨by simp, fun _ hx => (activity?_add_plain hactivity).trans hx, members_add_of_lt⟩
    (fun _ => outcome?_add houtcome) (fun _ => activity?_add_plain hactivity) (fun hw => ?_) (fun hw => ?_) .inl id same
    fun {m g} hm => ?_
  · rw [watchers_add hwatchers] at hw
    exact .inl hw
  · rwa [watchers_add hwatchers]
  · rw [Kernel.members, getElem?_add] at hm
    split at hm
    · obtain ⟨hlt, hfree⟩ := hmembers m hm
      exact .inr ⟨by rw [size_add]; exact Nat.lt_succ_of_lt hlt, hfree⟩
    · exact .inl hm

/-- A task is begun, and it may be marked. -/
lemma spawnAs (h : k.Follows p) (b : ρ) {p' : Plan τ} (hp : p.Extends p' k.futures.size)
    (hrelay : ∀ x, p'.relay? x = p.relay? x) (hmark : ∀ u, k.futures.size < u → p'.mark? u = none) :
    (k.spawn b).1.Follows p' := by
  have hsize : k.futures.size ≤ (k.spawn b).1.futures.size := by simp
  refine h.mono
    ⟨hsize, fun hlt hx => (activity?_spawn_of_lt hlt).trans hx, fun _ => members_spawn⟩ hp
    (fun _ => outcome?_spawn) (fun {u a} ha => ?_)
    (fun hx hle => absurd (h.relay_lt (hrelay _ ▸ hx)) (Nat.not_lt.2 hle))
    (fun {u} hu => ?_) (fun hw => ?_) (fun hw => ?_)
    (fun {job} hjob => ?_) (List.mem_append_left _) same fun hm => ?_
  · rw [activity?_spawn] at ha
    split at ha
    · next hu =>
      cases ha
      exact .inr ⟨Nat.le_of_eq hu.symm, rfl, rfl, rfl⟩
    · exact .inl ha
  · rw [size_spawn]
    by_contra hle
    exact hu (hmark u (Nat.lt_of_lt_of_le (Nat.lt_succ_self _) (Nat.le_of_not_lt hle)))
  · rw [watchers_spawn] at hw
    exact .inl hw
  · rwa [watchers_spawn]
  · rw [ready_spawn, List.mem_append, List.mem_singleton] at hjob
    refine hjob.imp id ?_
    rintro rfl
    exact trivial
  · rw [members_spawn] at hm
    exact .inl hm

lemma spawn (h : k.Follows p) (b : ρ) : (k.spawn b).1.Follows p :=
  h.spawnAs b (.refl p _) (fun _ => rfl) fun u hu => by
    by_contra hne
    exact absurd (h.marks hne) (Nat.lt_asymm hu)

lemma watch (h : k.Follows p) (haims : k.Aims p w g) : (k.watch g w).Follows p := by
  have hwide : Widens k (k.watch g w) := .watch g w
  have haims' : (k.watch g w).Aims p w g := hwide.aims (.refl p _) h.relay_lt haims
  refine h.of_plain hwide (fun _ => outcome?_watch) (fun _ => activity?_watch) (fun hv => ?_)
    mem_watch_watchers (fun {job} hjob => ?_) (fun hjob => ?_) (fun ht => ?_) fun hm => ?_
  · rcases mem_watchers_watch hv with hv | ⟨rfl, rfl⟩
    · exact .inl hv
    · exact .inr haims'
  · rw [ready_watch, List.mem_append] at hjob
    refine hjob.imp id fun hjob => ?_
    split at hjob
    · next hdone =>
      obtain ⟨o, ho⟩ := isDone_eq_true_iff.1 hdone
      rw [List.mem_singleton.1 hjob]
      exact ⟨⟨o, outcome?_watch.trans ho⟩, haims'⟩
    · exact absurd hjob List.not_mem_nil
  · rw [ready_watch]
    exact List.mem_append_left _ hjob
  · rw [timers_watch] at ht
    exact same ht
  · rw [members_watch] at hm
    exact .inl hm

/-- A task is made that runs at once. -/
lemma enter (h : k.Follows p) {F : Future ρ κ ν ε} {a : Activity ρ} (houtcome : F.outcome = none)
    (hwatchers : F.watchers = []) (hmembers : F.members = []) (ha : F.activity = some a)
    (hidle : a.waitingFor = none) (hasked : a.cancelRequests = 0) (hmust : a.mustCancel = false) :
    (k.add F).1.Follows p := by
  have hsize : k.futures.size ≤ (k.add F).1.futures.size := by simp
  have hold : ∀ {j}, j < k.futures.size → (k.add F).1.activity? j = k.activity? j := fun hj => by
    rw [activity?_add, if_neg (Nat.ne_of_lt hj)]
  refine h.mono ⟨hsize, fun hlt hx => (hold hlt).trans hx, members_add_of_lt⟩ (.refl p _)
    (fun _ => outcome?_add houtcome) (fun {u b} hb => ?_)
    (fun hx hle => absurd (h.relay_lt hx) (Nat.not_lt.2 hle))
    (fun hu => Nat.lt_of_lt_of_le (h.marks hu) hsize) (fun hw => .inl ?_) (fun hw => ?_) .inl id same
    fun hm => .inl ?_
  · rw [activity?_add] at hb
    split at hb
    · next hu =>
      cases ha.symm.trans hb
      exact .inr ⟨Nat.le_of_eq hu.symm, hidle, hasked, hmust⟩
    · exact .inl hb
  · rwa [watchers_add hwatchers] at hw
  · rwa [watchers_add hwatchers]
  · rwa [members_add hmembers] at hm

/-- A task is going to wait through a future of its own for what comes of an open task. -/
lemma relay (h : k.Follows p) {c u : Id} (hu : u < k.futures.size) (hnone : k.outcome? u = none)
    {p' : Plan τ} (hp : p.Extends p' k.futures.size)
    (hmark : ∀ x, p'.mark? x = p.mark? x) (hself : p'.relay? k.futures.size = some (c, u))
    (hrelay : ∀ x, k.futures.size < x → p'.relay? x = none) :
    (k.fresh.1.watch u (.relay k.futures.size)).Follows p' := by
  have hsize : (k.fresh.1.watch u (.relay k.futures.size)).futures.size = k.futures.size + 1 := by
    rw [size_watch, fresh, size_add]
  have hout : ∀ x, (k.fresh.1.watch u (.relay k.futures.size)).outcome? x = k.outcome? x := fun _ =>
    outcome?_watch.trans (outcome?_add rfl)
  have hact : ∀ x, (k.fresh.1.watch u (.relay k.futures.size)).activity? x = k.activity? x :=
    fun _ => activity?_watch.trans (activity?_add_plain rfl)
  have hold : ∀ x, k.fresh.1.watchers x = k.watchers x := fun _ => watchers_add rfl
  have hopen : k.fresh.1.IsOpen u :=
    ⟨by rw [fresh, size_add]; exact Nat.lt_succ_of_lt hu, (outcome?_add rfl).trans hnone⟩
  have hready : (k.fresh.1.watch u (.relay k.futures.size)).ready = k.ready := by
    rw [watch_of_isOpen hopen, ready_update]
    rfl
  refine h.mono ⟨by rw [hsize]; exact Nat.le_succ _, fun _ hx => (hact _).trans hx,
      fun _ => by rw [members_watch, fresh, members_add rfl]⟩ hp hout
    (fun ha => .inl (hact _ ▸ ha)) (fun {x d v} hx hle => ?_) (fun hv => ?_) (fun {w g} hw => ?_)
    (fun hw => mem_watch_watchers ((hold _).symm ▸ hw)) (fun hjob => .inl (hready ▸ hjob))
    (fun hjob => hready.symm ▸ hjob) (fun ht => same (by rwa [timers_watch] at ht))
    (fun {m g} hm => .inl ?_)
  · have hxk : x = k.futures.size := by
      refine Nat.le_antisymm (Nat.le_of_not_lt fun hlt => ?_) hle
      simp [hrelay x hlt] at hx
    subst hxk
    rw [hself] at hx
    cases hx
    have hfree := (views_of_size_le (Nat.le_refl k.futures.size)).2.1
    refine ⟨by rw [hsize]; exact Nat.lt_succ_self _, by rw [hsize]; exact Nat.lt_succ_of_lt hu,
      (hact _).trans hfree, (hmark _).trans h.free_size.2,
      by rw [members_watch, fresh, members_add rfl, members_of_size_le (Nat.le_refl _)],
      .inl ⟨?_, (hout _).trans hnone⟩⟩
    rw [watchers_watch_self hopen]
    exact List.mem_append_right _ (List.mem_singleton.2 rfl)
  · rw [hsize]
    exact Nat.lt_succ_of_lt (h.marks (hmark _ ▸ hv))
  · rcases mem_watchers_watch hw with hw | ⟨rfl, rfl⟩
    · exact .inl (hold _ ▸ hw)
    · refine .inr fun x hx => .inr ?_
      cases hx
      exact ⟨rfl, c, hself⟩
  · rwa [members_watch, fresh, members_add rfl] at hm

lemma unwatch (h : k.Follows p) (g waiter : Id) : (k.unwatch g waiter).Follows p := by
  refine h.of_plain
    (.of_activity size_unwatch (fun _ hx => activity?_unwatch.trans hx) fun _ => members_unwatch)
    (fun _ => outcome?_unwatch)
    (fun _ => activity?_unwatch) (fun hw => ?_) (fun hw => ?_) .inl id same fun hm => ?_
  · rw [watchers_unwatch] at hw
    split at hw
    · exact .inl (List.mem_filter.1 hw).1
    · exact .inl hw
  · rw [watchers_unwatch]
    split
    · exact List.mem_filter.2 ⟨hw, rfl⟩
    · exact hw
  · rw [members_unwatch] at hm
    exact .inl hm

lemma expect (h : k.Follows p) (x : Id) (n : Nat → Nat) : (k.expect x n).Follows p := by
  refine h.of_plain
    (.of_activity size_expect (fun _ hx => activity?_expect.trans hx) fun _ => members_expect)
    (fun _ => outcome?_expect)
    (fun _ => activity?_expect) (fun hw => ?_) (fun hw => ?_) .inl id same fun hm => ?_
  · rw [watchers_expect] at hw
    exact .inl hw
  · rwa [watchers_expect]
  · rw [members_expect] at hm
    exact .inl hm

/-- Jobs join the queue and timers are armed or disarmed. -/
lemma queue (h : k.Follows p) (hfutures : k'.futures = k.futures)
    (hready : ∀ {job}, job ∈ k'.ready → job ∈ k.ready ∨ k.Proper p job)
    (hqueued : ∀ {job}, job ∈ k.ready → job ∈ k'.ready)
    (htimers : ∀ {t}, t ∈ k'.timers → (∃ t' ∈ k.timers, t'.job = t.job) ∨ k.Timely p t.job) :
    k'.Follows p := by
  have hout : ∀ x, k'.outcome? x = k.outcome? x := fun x => by rw [outcome?, outcome?, hfutures]
  have hact : ∀ x, k'.activity? x = k.activity? x := fun x => by rw [activity?, activity?, hfutures]
  have hwatchers : ∀ x, k'.watchers x = k.watchers x := fun x => by
    rw [watchers, watchers, hfutures]
  have hmembers : ∀ x, k'.members x = k.members x := fun x => by
    rw [Kernel.members, Kernel.members, hfutures]
  have hwide : Widens k k' :=
    .of_activity (by rw [hfutures]) (fun x hx => (hact x).trans hx) hmembers
  refine h.of_plain hwide hout hact (fun hw => .inl (hwatchers _ ▸ hw))
    (fun hw => (hwatchers _).symm ▸ hw) (fun hjob => ?_) hqueued (fun ht => ?_)
    fun hm => .inl (hmembers _ ▸ hm)
  · exact (hready hjob).imp id fun hproper =>
      hwide.proper (.refl p _) h.relay_lt (fun ho => (hout _).trans ho) hproper
  · exact (htimers ht).imp id fun htimely => hwide.timely (.refl p _) htimely

end Follows

lemma Act.follows (h : Act p quiet k k') (hf : k.Follows p) : k'.Follows p := by
  cases h with
  | add houtcome hwatchers hactivity hmembers =>
    exact hf.add houtcome hwatchers hactivity hmembers
  | spawn _ => exact hf.spawn _
  | settle o hx => exact hf.settle_free hx.2.2.1
  | watch _ haims => exact hf.watch haims
  | unwatch g waiter => exact hf.unwatch g waiter
  | expect x n => exact hf.expect x n
  | after delay htimely =>
    refine hf.queue rfl .inl id fun {t} ht => ?_
    rcases Timers.mem_push ht with ht | rfl
    · exact Follows.same ht
    · exact .inr htimely
  | disarm timer => exact hf.queue rfl .inl id fun ht => .inl (Timers.job_of_mem_cancel ht)
  | soon htimely =>
    refine hf.queue rfl (fun {job} hjob => ?_) (List.mem_append_left _) Follows.same
    refine (List.mem_append.1 hjob).imp id fun hjob => ?_
    rw [List.mem_singleton.1 hjob]
    exact htimely.proper
  | cancel hfree => exact (Spares.cancel hf fun hcu => by simp [hfree.1] at hcu).follows

lemma Act.waking {running : Option Id} (h : Act p quiet k k') (hw : k.Waking running)
    (hrun : ∀ t, running = some t → t < k.futures.size) : k'.Waking running := by
  have queue : ∀ {k' : Kernel ρ κ ν ε}, k'.futures = k.futures →
      k'.ready.filter Job.rouses = k.ready.filter Job.rouses → k'.Waking running := by
    intro k' hfutures hready
    exact hw.of_rousing (by rw [hfutures]) (fun _ => by rw [outcome?, outcome?, hfutures])
      (fun _ => by rw [activity?, activity?, hfutures])
      (fun _ => by rw [watchers, watchers, hfutures]) hready
  cases h with
  | add houtcome hwatchers hactivity _ => exact hw.add houtcome hwatchers hactivity
  | spawn _ => exact hw.spawn (fun heq => Nat.lt_irrefl _ (hrun _ heq)) _
  | settle o hx => exact hw.settle_plain hx.2.1
  | @watch w g hwakes _ =>
    refine hw.of_rousing size_watch (fun _ => outcome?_watch) (fun _ => activity?_watch)
      (fun _ => filter_watchers_watch hwakes) ?_
    have hjob : (Job.notify w g).rouses = false := by
      cases w <;> first | rfl | cases hwakes
    rw [ready_watch, List.filter_append]
    split <;> simp [hjob]
  | unwatch g waiter =>
    exact hw.of_rousing size_unwatch (fun _ => outcome?_unwatch) (fun _ => activity?_unwatch)
      (fun _ => filter_watchers_unwatch) rfl
  | expect x n =>
    exact hw.of_rousing size_expect (fun _ => outcome?_expect) (fun _ => activity?_expect)
      (fun _ => congrArg _ watchers_expect) rfl
  | after delay _ => exact queue rfl rfl
  | disarm timer => exact queue rfl rfl
  | @soon job htimely =>
    refine queue rfl ?_
    rw [show (k.soon job).ready = k.ready ++ [job] from rfl, List.filter_append]
    simp [htimely.rouses]
  | cancel _ => exact hw.cancel

/-- A request to cancel takes no task from its wait. -/
lemma Grows.cancel (k : Kernel ρ κ ν ε) (root : Id) : Grows quiet k (k.cancel root).1 := by
  have hall : (∀ t a, k.activity? t = some a → ∃ b, (k.cancel root).1.activity? t = some b ∧
        b.body = a.body ∧ b.waitingFor = a.waitingFor) ∧
      (∀ t b, (k.cancel root).1.activity? t = some b → ∃ a, k.activity? t = some a) ∧
      ∀ x o, k.outcome? x = some o → (k.cancel root).1.outcome? x = some o := by
    refine cancelWithin_induction (P := fun k' => (∀ t a, k.activity? t = some a →
        ∃ b, k'.activity? t = some b ∧ b.body = a.body ∧ b.waitingFor = a.waitingFor) ∧
        (∀ t b, k'.activity? t = some b → ∃ a, k.activity? t = some a) ∧
        ∀ x o, k.outcome? x = some o → k'.outcome? x = some o) ?_ ?_ _
      ⟨fun t a ha => ⟨a, ha, rfl, rfl⟩, fun t b hb => ⟨b, hb⟩, fun _ _ => id⟩
    · rintro k' id hplain ⟨hkept, hold, hout⟩
      refine ⟨fun t a ha => ?_, fun t b hb => ?_,
        fun x o ho => outcome?_settle_of_eq_some (hout x o ho)⟩
      · rw [activity?_settle_of_plain hplain]
        exact hkept t a ha
      · rw [activity?_settle_of_plain hplain] at hb
        exact hold t b hb
    · rintro k' id f hf ⟨hkept, hold, hout⟩
      refine ⟨fun t a ha => ?_, fun t b hb => ?_,
        fun x o ho => (outcome?_note hf).trans (hout x o ho)⟩
      · obtain ⟨b, hb, hbody, hwaiting⟩ := hkept t a ha
        obtain ⟨c, hc, hbody', hwaiting'⟩ := exists_activity?_note hf hb
        exact ⟨c, hc, hbody'.trans hbody, hwaiting'.trans hwaiting⟩
      · obtain ⟨c, hc, -, -⟩ := activity?_note hf hb
        exact hold t c hc
  obtain ⟨hkept, hold, hout⟩ := hall
  refine
    { size := Nat.le_of_eq (size_cancel k root).symm
      plain := fun {x} _ hx => ?_
      members := fun _ => (Urges.cancel k root).members _
      outcome := hout _ _
      kept := fun {t a} ha => ?_
      begun := fun {t b} hb => .inl (hold t b hb)
      firm := (Urges.cancel k root).firm }
  · cases hx' : (k.cancel root).1.activity? x with
    | none => rfl
    | some b =>
      obtain ⟨a, ha⟩ := hold x b hx'
      simp [hx] at ha
  · obtain ⟨b, hb, hbody, hwaiting⟩ := hkept t a ha
    obtain ⟨c, hc, -, hasked⟩ := (Urges.cancel k root).activity ha
    rw [hb] at hc
    cases hc
    exact ⟨b, hb, hbody, hwaiting, hasked⟩

lemma Widens.cancel (k : Kernel ρ κ ν ε) (root : Id) : Widens k (k.cancel root).1 :=
  have hgrows : Grows (fun _ => True) k (k.cancel root).1 := .cancel k root
  hgrows.toWidens

lemma Act.grows (h : Act p quiet k k') : Grows quiet k k' := by
  cases h with
  | add houtcome _ hactivity _ =>
    have hact := fun x => @activity?_add_plain ρ κ ν ε k x _ hactivity
    exact
      { size := by simp
        plain := fun _ hx => (hact _).trans hx
        members := members_add_of_lt
        outcome := fun ho => (outcome?_add houtcome).trans ho
        kept := fun ha => ⟨_, (hact _).trans ha, rfl, rfl, id⟩
        begun := fun hb => .inl ⟨_, (hact _).symm.trans hb⟩
        firm := .of_activity hact }
  | @spawn b hquiet =>
    refine
      { size := by simp
        plain := fun hlt hx => (activity?_spawn_of_lt hlt).trans hx
        members := fun _ => members_spawn
        outcome := fun ho => outcome?_spawn.trans ho
        kept := fun ha =>
          ⟨_, (activity?_spawn_of_lt (lt_size_of_activity? ha)).trans ha, rfl, rfl, id⟩
        begun := fun {t c} hc => ?_
        firm := .of_lt activity?_spawn_of_lt }
    rw [activity?_spawn] at hc
    split at hc
    · next ht =>
      cases hc
      exact .inr ⟨Nat.le_of_eq ht.symm, rfl, b, rfl, hquiet⟩
    · exact .inl ⟨c, hc⟩
  | settle o hx =>
    exact .of_activity size_settle outcome?_settle_of_eq_some
      (fun _ => activity?_settle_of_plain hx.2.1) fun _ => members_settle
  | watch _ _ =>
    exact .of_activity size_watch (fun ho => outcome?_watch.trans ho) (fun _ => activity?_watch)
      fun _ => members_watch
  | unwatch g waiter =>
    exact .of_activity size_unwatch (fun ho => outcome?_unwatch.trans ho)
      (fun _ => activity?_unwatch) fun _ => members_unwatch
  | expect x n =>
    exact .of_activity size_expect (fun ho => outcome?_expect.trans ho) (fun _ => activity?_expect)
      fun _ => members_expect
  | after delay _ => exact .of_activity rfl id (fun _ => rfl) fun _ => rfl
  | disarm timer => exact .of_activity rfl id (fun _ => rfl) fun _ => rfl
  | soon _ => exact .of_activity rfl id (fun _ => rfl) fun _ => rfl
  | cancel hfree => exact .cancel k _

/-- Marked tasks are left alone. -/
lemma Act.marked (h : Act p quiet k k') (hf : k.Follows p) {u : Id} (hu : p.mark? u ≠ none) :
    k'.activity? u = k.activity? u := by
  cases h with
  | add _ _ hactivity _ => exact activity?_add_plain hactivity
  | spawn _ => exact activity?_spawn_of_lt (hf.marks hu)
  | settle o hx => exact activity?_settle_of_plain hx.2.1
  | watch _ _ => exact activity?_watch
  | unwatch g waiter => exact activity?_unwatch
  | expect x n => exact activity?_expect
  | after delay _ => rfl
  | disarm timer => rfl
  | soon _ => rfl
  | cancel hfree =>
    refine (Spares.cancel hf fun hcu => ?_).marked hu ?_
    · simp [hfree.1] at hcu
    · rintro rfl
      exact hu hfree.2

namespace Acts

lemma follows (h : Acts p quiet k k') (hf : k.Follows p) : k'.Follows p := by
  induction h with
  | refl => exact hf
  | tail _ hact ih => exact hact.follows ih

lemma grows (h : Acts p quiet k k') : Grows quiet k k' := by
  induction h with
  | refl => exact .refl k
  | tail _ hact ih => exact ih.trans hact.grows

lemma marked (h : Acts p quiet k k') (hf : k.Follows p) {u : Id} (hu : p.mark? u ≠ none) :
    k'.activity? u = k.activity? u := by
  induction h with
  | refl => rfl
  | tail hacts hact ih => exact (hact.marked (Acts.follows hacts hf) hu).trans ih

lemma waking {running : Option Id} (h : Acts p quiet k k') (hw : k.Waking running)
    (hrun : ∀ t, running = some t → t < k.futures.size) : k'.Waking running := by
  induction h with
  | refl => exact hw
  | tail hacts hact ih =>
    exact hact.waking ih fun t ht => Nat.lt_of_lt_of_le (hrun t ht) (Acts.grows hacts).size

end Acts

end SuggestBridge.Task.Kernel
