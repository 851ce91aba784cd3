import SuggestBridge.Proofs.Isolation.Steps

/-!
# What can happen

A run of a supervisor is looked at event by event.  Every event is about one project (`Occurs`): its
next job is done, one of its timers runs out, one of its callers asks for something or gives up, one
of its daemons writes, sends, hangs up or exits.  Time alone is nobody's.  Numbers that an event draws
are put down in the book as those of its project.

The order in which the loop takes up jobs and timers of different projects is left open, so there are
more runs here than those of the loop; these are among them (`Leads.of_step?`).
-/

namespace SuggestBridge.Supervisor

open SuggestBridge.Task

/-! ## Jobs -/

/-- What the kernel asks for is done. -/
def oblige (s : Supervisor) : Kernel.Activation Routine Hook Value Failure → Supervisor
  | .done => s
  | .begin task r => s.begin task r
  | .resume task r input => s.resume task r input
  | .hook h source => s.onHook h source

/-- A job is done. -/
def carryOut (s : Supervisor) (job : Job Hook) : Supervisor :=
  oblige { s with kernel := (s.kernel.perform job).1 } (s.kernel.perform job).2

/-! ## Events -/

/-- What happens at one point of a run. -/
inductive Event where
  /-- The next job is done. -/
  | job
  /-- A timer runs out, or one that was disarmed is thrown away. -/
  | lapse (timer : Nat)
  /-- A caller begins a task. -/
  | launch (r : Routine)
  /-- A caller begins a task, which runs at once. -/
  | enter (r : Routine)
  /-- A caller asks a task to cancel. -/
  | cancel (task : Id)
  | write (pid : Nat) (output : Daemon.Output) (data : Bytes)
  | send (pid : Nat) (data : Bytes)
  | exit (pid : Nat) (code : Int)
  /-- A process has ended, but nobody was told yet. -/
  | markExited (pid : Nat) (code : Int)
  | hangUp (pid : Nat)
  | stopPeer (link : Nat)
  /-- The loop goes round: the time is set, and how many jobs belong to the current pass. -/
  | turn (now : Float) (batch : Nat)
  /-- Nothing happens, but numbers are used up. -/
  | pass

/-- What callers and daemons of a project do. -/
inductive FromOutside (o : Owners) (k : Text) : Event → (Supervisor → Supervisor) → Prop where
  | launch {r : Routine} (request : r.isRequest = true) (own : o.Has k (r.parts o.cwd)) :
      FromOutside o k (.launch r) fun s => (s.launchTask r).1
  | enter {r : Routine} (request : r.isRequest = true) (own : o.Has k (r.parts o.cwd)) :
      FromOutside o k (.enter r) fun s => s.enter r
  | cancel {task : Id} (own : o.of (.future task) = some k) :
      FromOutside o k (.cancel task) fun s => s.cancel task
  | write {pid : Nat} (output : Daemon.Output) (data : Bytes) (own : o.of (.process pid) = some k) :
      FromOutside o k (.write pid output data) fun s => s.write pid output data
  | send {pid : Nat} (data : Bytes) (own : o.of (.process pid) = some k) :
      FromOutside o k (.send pid data) fun s => s.send pid data
  | exit {pid : Nat} (code : Int) (own : o.of (.process pid) = some k) :
      FromOutside o k (.exit pid code) fun s => s.exit pid code
  | markExited {pid : Nat} (code : Int) (own : o.of (.process pid) = some k) :
      FromOutside o k (.markExited pid code) fun s => s.markExited pid code
  | hangUp {pid : Nat} (own : o.of (.process pid) = some k) :
      FromOutside o k (.hangUp pid) fun s => s.hangUpProcess pid
  | stopPeer {n : Nat} (own : o.of (.link n) = some k) :
      FromOutside o k (.stopPeer n) fun s => s.stopPeer n

/-- The supervisor with other jobs to be done and other timers. -/
def resettle (s : Supervisor) (ready : List (Job Hook)) (timers : Array (Timer (Job Hook))) :
    Supervisor :=
  { s with kernel := { s.kernel with ready, timers } }

/-- What a timer that is taken out leaves to be done: its job, unless it was disarmed. -/
def dueJobs (timer : Timer (Job Hook)) : List (Job Hook) :=
  if timer.cancelled then [] else [timer.job]

/-- An event that is about a project. -/
inductive Occurs (o : Owners) (k : Text) : Event → Supervisor → Supervisor → Prop where
  | job {s : Supervisor} {job : Job Hook} {rest : List (Job Hook)}
      (ready : s.kernel.ready = job :: rest) (own : o.Has k (jobParts job)) :
      Occurs o k .job s ((s.resettle rest s.kernel.timers).carryOut job)
  | lapse {s : Supervisor} {timer : Timer (Job Hook)} {timers : Array (Timer (Job Hook))}
      (taken : s.kernel.timers.toList.Perm (timer :: timers.toList))
      (due : timer.cancelled = true ∨ timer.due < s.kernel.now + Kernel.resolution)
      (own : o.of (.timer timer.id) = some k) :
      Occurs o k (.lapse timer.id) s (s.resettle (s.kernel.ready ++ dueJobs timer) timers)
  | outside {s : Supervisor} {e : Event} {f : Supervisor → Supervisor} (act : FromOutside o k e f) :
      Occurs o k e s (f s)

variable {k q : Text} {o : Owners} {s s' t : Supervisor} {e : Event}

/-! ## Events are about one project -/

/-- Kernel operations that ask for something settle no future. -/
lemma outcome?_of_perform {K : Machine} {job : Job Hook} (h : (K.perform job).2 ≠ .done) (i : Id) :
    (K.perform job).1.outcome? i = K.outcome? i := by
  have hwake : ∀ {task : Id} {out : Outcome Value Failure}, (K.wake task out).2 ≠ .done →
      (K.wake task out).1.outcome? i = K.outcome? i := by
    intro task out hdone
    unfold Kernel.wake at hdone ⊢
    split at hdone
    · split at hdone
      · exact absurd rfl hdone
      · exact Kernel.outcome?_update fun _ => rfl
    · exact absurd rfl hdone
  cases job with
  | start task =>
    unfold Kernel.perform Kernel.start at h ⊢
    dsimp only at h ⊢
    split at h
    · split at h
      · exact absurd rfl h
      · split at h
        · exact absurd rfl h
        · next hmust =>
          rw [if_neg hmust]
          exact Kernel.outcome?_update fun _ => rfl
    · exact absurd rfl h
  | proceed task => exact hwake h
  | complete f => exact absurd rfl h
  | hook hk => rfl
  | notify w source =>
    unfold Kernel.perform at h ⊢
    dsimp only at h ⊢
    split at h
    · exact absurd rfl h
    · cases w with
      | wake task => exact hwake h
      | hook hk => rfl
      | _ => exact absurd rfl h

/-- A task that runs refers to nothing. -/
lemma hasFuture_running : o.HasFuture k { activity := some { body := none } } where
  outcome _ hout := by cases hout
  watchers _ hw := absurd hw List.not_mem_nil
  activity a ha := by
    cases ha
    exact ⟨fun _ hr => (by cases hr), fun _ ht => (by cases ht)⟩
  members _ hm := absurd hm List.not_mem_nil

/-- The port that is named by the line with which a task has ended. -/
def portRead? (s : Supervisor) (task : Id) : Option Int :=
  match s.kernel.outcome? task with
  | some (.value (.line line)) => Integer.read? (Text.strip (Utf8.decode line))
  | _ => none

/-- What a daemon announces is the port that it listens on itself: whoever listens on a port that was
read from a daemon of a project is a daemon of the project. -/
def Candid (o : Owners) (s : Supervisor) : Prop :=
  ∀ task, task < s.kernel.futures.size → ∀ p ∈ s.processes, p.isRunning = true →
    s.portRead? task = some p.port → o.of (.process p.pid) = o.of (.future task)

instance : Decidable (Candid o s) :=
  inferInstanceAs (Decidable (∀ task, task < s.kernel.futures.size → ∀ p ∈ s.processes,
    p.isRunning = true → s.portRead? task = some p.port →
      o.of (.process p.pid) = o.of (.future task)))

lemma Candid.linesOwned (h : Candid o s) (k : Text) (ht : ∀ p ∈ t.processes, p ∈ s.processes) :
    LinesOwned k o s t := by
  intro task line htask hout port hread p hp hrunning hport
  have hread' : s.portRead? task = some p.port := by rw [portRead?, hout, hport]; exact hread
  exact (h task (Kernel.lt_size_of_outcome? hout) p (hp.elim id (ht p)) hrunning hread').trans htask

/-- No task but those that had ended before has ended with a line. -/
lemma LinesOwned.grow {o' : Owners} {K L : Machine} (h : LinesOwned k o s t) (hs : Owned o s)
    (hg : Owners.Grows k o o')
    (hK : ∀ i out, K.outcome? i = some out → s.kernel.outcome? i = some out) :
    LinesOwned k o' { s with kernel := K } { t with kernel := L } := by
  intro task line htask hout port hread p hp hrunning hport
  have hbefore := hK _ _ hout
  have hlt : task < s.kernel.futures.size := Kernel.lt_size_of_outcome? hbefore
  have hold := hg.of_old ((hs.kernel.future_iff task).2 hlt) htask
  exact hg.old (h task line hold hbefore port hread p hp hrunning hport)

namespace Joint

lemma carryOut (h : Joint k o s t) {job : Job Hook} (hjob : o.Has k (jobParts job))
    (hlines : LinesOwned k o s t) : Parallel k o s t (s.carryOut job) (t.carryOut job) := by
  obtain ⟨o', K, L, act, hK, hL, hacts, h', hact⟩ := (h.machine.perform hjob).split h
  have hsame := @outcome?_of_perform s.kernel job
  unfold Supervisor.carryOut
  rw [hK, hL]
  rw [hK] at hsame
  have hg := hacts.grows
  refine hacts.andThen ?_
  rw [← hg.cwd] at hact
  have hlines' : act ≠ .done → LinesOwned k o' { s with kernel := K } { t with kernel := L } :=
    fun hne => hlines.grow h.owned hg fun i _ hout => (hsame hne i).symm.trans hout
  cases act with
  | done => exact .refl
  | begin task r =>
    obtain ⟨htask, hr⟩ := Owners.has_cons.1 hact
    exact h'.begin htask hr (hlines' (by simp))
  | resume task r input =>
    obtain ⟨htask, hr⟩ := Owners.has_cons.1 hact
    obtain ⟨hr, hinput⟩ := Owners.has_append.1 hr
    exact h'.resume htask hr hinput (hlines' (by simp))
  | hook hook source => exact h'.onHook hact

end Joint

lemma FromOutside.parallel {f : Supervisor → Supervisor} (h : FromOutside o k e f) (hjoint : Joint k o s t)
    (hlines : LinesOwned k o s t) : Parallel k o s t (f s) (f t) := by
  cases h with
  | launch hrequest hr => exact .kernel (hjoint.machine.spawn hr)
  | @enter r hrequest hr =>
    have hadd : Act k ⟨o, s, t⟩ _ := .kernel (.single (.add (K := s.kernel) (L := t.kernel)
      (F := { activity := some { body := none } }) hasFuture_running))
    have hself := hjoint.machine.of_next
    have hadded := (Acts.single hadd).joint hjoint
    unfold Supervisor.enter
    dsimp only
    rw [hjoint.alike.kernel.size]
    refine (Acts.single hadd).andThen (hadded.begin hself (hadd.grows.has_parts hr) ?_)
    refine hlines.grow hjoint.owned hadd.grows fun i out hout => ?_
    rw [Kernel.outcome?, Kernel.getElem?_add] at hout
    split at hout
    · cases hout
    · exact hout
  | cancel hu => exact .kernel (hjoint.machine.cancel hu).1
  | write output data hpid => exact hjoint.onOutput hpid output (pours_feed data)
  | @send pid data hpid =>
    unfold Supervisor.send
    dsimp only
    rw [hjoint.process? hpid]
    split
    · next n hn =>
      obtain ⟨p, hp, hpn⟩ := Option.bind_eq_some_iff.1 hn
      exact hjoint.receive ((hjoint.hasProcess hpid hp).2.connection n hpn) data
    · exact .refl
  | exit code hpid => exact hjoint.exit hpid code
  | markExited code hpid =>
    exact .single (.process hpid (fun _ => rfl) fun _ hr => hr.marked code)
  | @hangUp pid hpid =>
    unfold Supervisor.hangUpProcess
    dsimp only
    rw [hjoint.process? hpid]
    split
    · next n hn =>
      obtain ⟨p, hp, hpn⟩ := Option.bind_eq_some_iff.1 hn
      exact hjoint.hangUp ((hjoint.hasProcess hpid hp).2.connection n hpn)
    · exact .refl
  | stopPeer hn => exact hjoint.stopPeer hn

/-! ## Taking what is to be done -/

section

variable {ready ready' : List (Job Hook)} {timers timers' : Array (Timer (Job Hook))}

lemma Owned.resettle (hs : Owned o s) (hready : ∀ job ∈ ready, ∃ k, o.Has k (jobParts job))
    (htimers : ∀ t ∈ timers, ∃ k, o.Has k (.timer t.id :: jobParts t.job)) :
    Owned o (s.resettle ready timers) :=
  { hs with kernel := { hs.kernel with ready := hready, timers := htimers } }

lemma Alike.resettle (h : Alike k o s t) :
    Alike k o (s.resettle ready timers) (t.resettle ready' timers') :=
  { h with kernel := { h.kernel with } }

lemma Twin.resettle (h : Twin q o s t)
    (hready : ready' = ready.filter fun job => o.of (jobPart job) = some q)
    (htimers : timers'.toList.Perm (timers.toList.filter fun t => o.of (.timer t.id) = some q)) :
    Twin q o (s.resettle ready timers) (t.resettle ready' timers') :=
  { h with kernel := { h.kernel with ready := hready, timers := htimers } }

/-- What is taken from another project leaves the twin as it is. -/
lemma Twin.resettle_left (h : Twin q o s t)
    (hready : t.kernel.ready = ready.filter fun job => o.of (jobPart job) = some q)
    (htimers : t.kernel.timers.toList.Perm
      (timers.toList.filter fun t => o.of (.timer t.id) = some q)) :
    Twin q o (s.resettle ready timers) t :=
  { h with kernel := { h.kernel with ready := hready, timers := htimers } }

variable {job : Job Hook} {timer : Timer (Job Hook)}

lemma Owned.withoutJob (hs : Owned o s) (hready : s.kernel.ready = job :: ready) :
    Owned o (s.resettle ready s.kernel.timers) :=
  hs.resettle (fun j hj => hs.kernel.ready j (hready ▸ List.mem_cons_of_mem _ hj)) hs.kernel.timers

/-- A timer and its job belong to one project. -/
lemma Owned.of_timer (hs : Owned o s) (htaken : s.kernel.timers.toList.Perm (timer :: timers.toList))
    (hown : o.of (.timer timer.id) = some k) : o.Has k (jobParts timer.job) := by
  obtain ⟨j, hj⟩ := hs.kernel.timers timer
    (Array.mem_toList_iff.1 (htaken.mem_iff.2 List.mem_cons_self))
  obtain ⟨hself, hjob⟩ := Owners.has_cons.1 hj
  cases hself.symm.trans hown
  exact hjob

lemma Owned.withoutTimer (hs : Owned o s)
    (htaken : s.kernel.timers.toList.Perm (timer :: timers.toList))
    (hown : o.of (.timer timer.id) = some k) :
    Owned o (s.resettle (s.kernel.ready ++ dueJobs timer) timers) := by
  refine hs.resettle (fun job hmem => ?_) fun u hu => ?_
  · rcases List.mem_append.1 hmem with hmem | hmem
    · exact hs.kernel.ready job hmem
    · unfold dueJobs at hmem
      split at hmem
      · exact absurd hmem List.not_mem_nil
      · exact ⟨k, List.mem_singleton.1 hmem ▸ hs.of_timer htaken hown⟩
  · exact hs.kernel.timers u (Array.mem_toList_iff.1
      (htaken.mem_iff.2 (List.mem_cons_of_mem _ (Array.mem_toList_iff.2 hu))))

/-- All that a timer of a project leaves to be done is the project's. -/
lemma filter_dueJobs (hown : o.Has k (jobParts timer.job)) :
    (dueJobs timer).filter (fun job => o.of (jobPart job) = some q) =
      if q = k then dueJobs timer else [] := by
  have hpart : o.of (jobPart timer.job) = some k := hown _ (jobPart_mem _)
  unfold dueJobs
  by_cases hq : q = k
  · subst hq
    split <;> simp [hpart]
  · split <;> simp [hpart, Ne.symm hq]

end

namespace Occurs

/-- Whatever happens on behalf of a project happens as well where the project is alone. -/
lemma mirror (h : Occurs o k e s s') (hP : Joint k o s t) (htwin : Twin k o s t)
    (hlines : LinesOwned k o s t) :
    ∃ o' t', Occurs o k e t t' ∧ Owners.Grows k o o' ∧ Joint k o' s' t' ∧ Twin k o' s' t' := by
  cases h with
  | @job _ job rest hready hown =>
    have hrest : t.kernel.ready = job :: rest.filter fun job => o.of (jobPart job) = some k := by
      rw [htwin.kernel.ready, hready]
      exact List.filter_cons_of_pos (decide_eq_true (hown _ (jobPart_mem job)))
    have hP' : Joint k o (s.resettle rest s.kernel.timers)
        (t.resettle (rest.filter fun job => o.of (jobPart job) = some k) t.kernel.timers) :=
      ⟨hP.owned.withoutJob hready, hP.alike.resettle⟩
    obtain ⟨o', hacts⟩ := hP'.carryOut hown hlines
    exact ⟨o', _, .job hrest hown, hacts.grows, hacts.joint hP',
      hacts.twin hP' (htwin.resettle rfl htwin.kernel.timers)⟩
  | @lapse _ timer timers htaken hdue hown =>
    let left := (timers.toList.filter fun u => o.of (.timer u.id) = some k).toArray
    have hleft : t.kernel.timers.toList.Perm (timer :: left.toList) := by
      refine htwin.kernel.timers.trans ((htaken.filter _).trans (.of_eq ?_))
      exact List.filter_cons_of_pos (decide_eq_true hown)
    refine ⟨o, _, .lapse hleft (htwin.kernel.now ▸ hdue) hown, .refl,
      ⟨hP.owned.withoutTimer htaken hown, hP.alike.resettle⟩, htwin.resettle ?_ (.of_eq rfl)⟩
    rw [List.filter_append, filter_dueJobs (hP.owned.of_timer htaken hown), if_pos rfl,
      htwin.kernel.ready]
  | outside hact =>
    obtain ⟨o', hacts⟩ := hact.parallel hP hlines
    exact ⟨o', _, .outside hact, hacts.grows, hacts.joint hP, hacts.twin hP htwin⟩

/-- Whatever happens on behalf of one project leaves alone what belongs to another one. -/
lemma aside (h : Occurs o k e s s') (hs : Owned o s) (hlines : LinesOwned k o s s) :
    ∃ o', Owners.Grows k o o' ∧ Owned o' s' ∧
      ∀ {q : Text} {u : Supervisor}, q ≠ k → Twin q o s u → Twin q o' s' u := by
  cases h with
  | @job _ job rest hready hown =>
    have hP := Joint.refl k (hs.withoutJob hready)
    obtain ⟨o', hacts⟩ := hP.carryOut hown hlines
    refine ⟨o', hacts.grows, (hacts.joint hP).owned, fun {q u} hne htwin => ?_⟩
    refine hacts.aside hP hne (htwin.resettle_left ?_ htwin.kernel.timers)
    rw [htwin.kernel.ready, hready]
    refine List.filter_cons_of_neg fun hq => hne ?_
    exact Option.some.inj ((of_decide_eq_true hq).symm.trans (hown _ (jobPart_mem job)))
  | @lapse _ timer timers htaken hdue hown =>
    refine ⟨o, .refl, hs.withoutTimer htaken hown, fun {q u} hne htwin => ?_⟩
    refine htwin.resettle_left ?_ (htwin.kernel.timers.trans ((htaken.filter _).trans (.of_eq ?_)))
    · rw [List.filter_append, filter_dueJobs (hs.of_timer htaken hown), if_neg hne, List.append_nil,
        htwin.kernel.ready]
    · refine List.filter_cons_of_neg fun hq => hne ?_
      exact Option.some.inj ((of_decide_eq_true hq).symm.trans hown)
  | outside hact =>
    have hP := Joint.refl k hs
    obtain ⟨o', hacts⟩ := hact.parallel hP hlines
    exact ⟨o', hacts.grows, (hacts.joint hP).owned, fun hne htwin => hacts.aside hP hne htwin⟩

end Occurs

end SuggestBridge.Supervisor
