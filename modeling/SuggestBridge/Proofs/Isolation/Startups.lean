import Mathlib.Data.List.Find
import SuggestBridge.Proofs.Isolation.Peers

/-!
# Startups of a project

A startup connects to whoever listens on the port that its daemon announced.  If that is a daemon of
the same project, everything that a startup does is about the project alone.
-/

namespace SuggestBridge.Supervisor

open SuggestBridge.Task

variable {k : Text} {o : Owners} {s t : Supervisor} {pid n : Nat} {port : Int}
  {out input : Outcome Value Failure}

/-! ## Parts of routines -/

/-- A routine goes on when a part of it has ended. -/
lemma Yields.andThen {σ τ : Type} {x y : Supervisor × Course σ} {wrap : σ → τ}
    {f : Supervisor → Outcome Value Failure → Supervisor × Course τ}
    {parts : σ → List Part} {parts' : τ → List Part}
    (h : Yields k o s t (courseParts parts) x y) (hP : Joint k o s t)
    (hwrap : ∀ {o' : Owners} {state : σ}, Owners.Grows k o o' → o'.Has k (parts state) →
      o'.Has k (parts' (wrap state)))
    (next : ∀ {o' : Owners} {s' t' : Supervisor} {out : Outcome Value Failure},
      Owners.Grows k o o' → Joint k o' s' t' → o'.Has k (outcomeParts out) →
      Yields k o' s' t' (courseParts parts') (f s' out) (f t' out)) :
    Yields k o s t (courseParts parts') (Progress.andThen x wrap f) (Progress.andThen y wrap f) := by
  obtain ⟨o', s', t', progress, hx, hy, hacts, hP', hparts⟩ := h.split hP
  rw [hx, hy]
  refine hacts.thenYields ?_
  cases progress with
  | waits state future =>
    obtain ⟨hfuture, hstate⟩ := Owners.has_cons.1 hparts
    exact .pure (Owners.has_cons.2 ⟨hfuture, hwrap hacts.grows hstate⟩)
  | ends out => exact next hacts.grows hP' hparts

/-- A wait that ends with a value ends as its task has ended. -/
lemma outcome?_of_resume {K : Machine} {d : Deadline} {v : Value}
    (h : (Deadline.resume K d input).2 = .ends (.settled (.value v))) :
    ∃ task, .future task ∈ deadlineParts d ∧ K.outcome? task = some (.value v) := by
  cases d with
  | waiting task waiter timer =>
    refine ⟨task, List.mem_cons_self, ?_⟩
    unfold Deadline.resume at h
    dsimp only at h
    split at h
    · unfold Deadline.conclude at h
      dsimp only at h
      split at h
      · next out hout =>
        cases h
        exact hout
      · cases h
    · cases h
  | cancelling task waiter timer interrupted =>
    refine ⟨task, List.mem_cons_self, ?_⟩
    have hsame : (Deadline.disarm (K.unwatch task waiter) timer).outcome? task = K.outcome? task := by
      cases timer <;> exact Kernel.outcome?_unwatch
    unfold Deadline.resume at h
    dsimp only at h
    rw [hsame] at h
    split at h
    · cases h
    · cases h
    · next hout =>
      cases h
      exact hout
    · cases h
    · cases h

/-- A kernel operation gives something to go on with. -/
lemma MachineYields.split {α : Type} {parts : α → List Part} {x y : Machine × α}
    (h : MachineYields k o s.kernel t.kernel parts x y) (hP : Joint k o s t) :
    ∃ (o' : Owners) (K L : Machine) (a : α), x = (K, a) ∧ y = (L, a) ∧
      Acts k ⟨o, s, t⟩ ⟨o', { s with kernel := K }, { t with kernel := L }⟩ ∧
      Joint k o' { s with kernel := K } { t with kernel := L } ∧ o'.Has k (parts a) := by
  obtain ⟨o', hacts, heq, hparts⟩ := h
  have hall : Acts k ⟨o, s, t⟩ ⟨o', { s with kernel := x.1 }, { t with kernel := y.1 }⟩ :=
    .single (.kernel hacts)
  exact ⟨o', x.1, y.1, x.2, rfl, Prod.ext rfl heq, hall, hall.joint hP, hparts⟩

/-! ## Connecting -/

/-- Whoever listens on a port is a process of the project. -/
def PortOwned (k : Text) (o : Owners) (s t : Supervisor) (port : Int) : Prop :=
  ∀ p, p ∈ s.processes ∨ p ∈ t.processes → p.isRunning = true → p.port = port →
    o.of (.process p.pid) = some k

/-- What a daemon announced is the port of a daemon of the project. -/
def LineOwned (k : Text) (o : Owners) (s t : Supervisor) (line : Bytes) : Prop :=
  ∀ port, Integer.read? (Text.strip (Utf8.decode line)) = some port → PortOwned k o s t port

/-- What daemons of a project announced are ports of daemons of the project. -/
def LinesOwned (k : Text) (o : Owners) (s t : Supervisor) : Prop :=
  ∀ task line, o.of (.future task) = some k →
    s.kernel.outcome? task = some (.value (.line line)) → LineOwned k o s t line

/-- The listener on a port is found among the processes of the project. -/
lemma find?_listener {ps : List Daemon.Process}
    (hps : ∀ p ∈ ps, p.isRunning = true → p.port = port → o.of (.process p.pid) = some k) :
    (ps.reverse.find? fun p => p.isRunning && p.port == port) =
      (ps.filter (o.isOf k)).reverse.find? fun p => p.isRunning && p.port == port := by
  rw [← List.filter_reverse, List.find?_filter]
  refine List.find?_congr fun p hp => ?_
  cases hfound : p.isRunning && p.port == port with
  | false => simp
  | true =>
    obtain ⟨hrunning, hport⟩ := Bool.and_eq_true_iff.1 hfound
    have hown := hps p (List.mem_reverse.1 hp) hrunning (beq_iff_eq.1 hport)
    simp [Owners.isOf, hown]

lemma modify_push_size {α : Type} (xs : Array α) (x : α) (f : α → α) :
    (xs.push x).modify xs.size f = xs.push (f x) := by
  refine Array.ext_getElem? fun i => ?_
  rw [Array.getElem?_modify, Array.getElem?_push, Array.getElem?_push]
  by_cases hi : i = xs.size
  · subst hi
    simp
  · simp [hi, Ne.symm hi]

namespace Joint

/-- A task begins in the background. -/
lemma track (h : Joint k o s t) {r : Routine} (hr : o.Has k (r.parts o.cwd)) :
    Parallel k o s t (s.track r) (t.track r) :=
  ⟨_, (Acts.single (.kernel (h.machine.spawn hr))).trans
    (.single (.notes s.log t.log s.events t.events (s.background ++ [(s.kernel.spawn r).2])
      (t.background ++ [(t.kernel.spawn r).2])))⟩

/-- A connection is opened, with a task that listens on it. -/
lemma join (h : Joint k o s t) (hpid : o.of (.process pid) = some k) (fault : Option Fault) :
    ∃ o', Acts k ⟨o, s, t⟩
      ⟨o', { s with
          kernel := (s.kernel.spawn (.listen s.links.size)).1
          links := s.links.push
            { connection :=
                { listener := some (s.kernel.spawn (.listen s.links.size)).2, refusalFault := fault }
              pid } },
        { t with
          kernel := (t.kernel.spawn (.listen s.links.size)).1
          links := t.links.push
            { connection :=
                { listener := some (s.kernel.spawn (.listen s.links.size)).2, refusalFault := fault }
              pid } }⟩ ∧ o'.of (.link s.links.size) = some k := by
  -- the number of the connection is drawn first: the task that listens refers to it
  have hlink : o.HasLink k { connection := { refusalFault := fault }, pid } :=
    ⟨hpid, ⟨fun _ hc => absurd hc List.not_mem_nil, fun _ hn => absurd hn List.not_mem_nil,
      ⟨fun _ hw => by cases hw⟩, fun _ hu => by cases hu⟩⟩
  have hjoin := Acts.single (Act.join hlink (s := s) (t := t))
  have hself := Owners.of_add_self (k := k) (by simp) (by simp) h.owned.none_link
  have hcount := h.alike.linkCount
  replace h := hjoin.joint h
  have hspawn := h.machine.spawn (r := .listen s.links.size) (Owners.has_cons.2 ⟨hself, Owners.has_nil⟩)
  have hlisten := hspawn.grows.old hself
  let f : Link → Link := fun l =>
    { l with connection := { l.connection with
      listener := some (s.kernel.spawn (.listen s.links.size)).2 } }
  have hupdate : Acts k _ _ := (hjoin.trans (.single (.kernel hspawn))).trans
    (.single (.link (f := f) hlisten fun l hl =>
      ⟨hl.process, hl.connection.awaits, hl.connection.callbacks, hl.connection.incoming,
        fun u hu => by cases hu; exact h.machine.of_next⟩))
  refine ⟨_, ?_, hlisten⟩
  have hpush := modify_push_size s.links { connection := { refusalFault := fault }, pid } f
  have hpush' := modify_push_size t.links { connection := { refusalFault := fault }, pid } f
  rw [hcount] at hpush'
  rw [updateLink, updateLink, hpush, hpush'] at hupdate
  exact hupdate

lemma connect (h : Joint k o s t) (hport : PortOwned k o s t port) :
    Yields k o s t (resultParts fun n => [.link n]) (s.connect port) (t.connect port) := by
  have hfind : (t.processes.reverse.find? fun p => p.isRunning && p.port == port) =
      s.processes.reverse.find? fun p => p.isRunning && p.port == port := by
    rw [find?_listener fun p hp => hport p (.inr hp),
      find?_listener fun p hp => hport p (.inl hp), h.alike.processes]
  unfold Supervisor.connect
  rw [hfind]
  cases hp : s.processes.reverse.find? fun p => p.isRunning && p.port == port with
  | none => exact .pure Owners.has_nil
  | some p =>
    have hself : o.of (.process p.pid) = some k := by
      have hfound : (p.isRunning && p.port == port) = true := by simpa using List.find?_some hp
      have hlistens := Bool.and_eq_true_iff.1 hfound
      exact hport p (.inl (List.mem_reverse.1 (List.mem_of_find?_eq_some hp))) hlistens.1
        (beq_iff_eq.1 hlistens.2)
    dsimp only
    split
    · exact .pure Owners.has_nil
    generalize Text.ofString "connect " ++ _ = event
    refine (Parallel.note event).thenYields h fun hg h => ?_
    replace hself := hg.old hself
    rw [h.alike.linkCount, h.machine.spawn_snd]
    obtain ⟨o', hjoin, hlink⟩ := h.join hself (some refusalFault)
    refine hjoin.thenYields ?_
    refine Acts.thenYields (.single (.process (f := fun p => { p with
      connection := some (s.note event).links.size }) (hjoin.grows.old hself) (fun _ => rfl)
      fun _ hr => hr.connected hlink)) ?_
    exact ⟨_, .single (.notes _ _ _ _ _ _), rfl, Owners.has_cons.2 ⟨hlink, Owners.has_nil⟩⟩

/-! ## Reading and waiting for processes -/

/-- A routine waits for what a daemon writes. -/
lemma awaitOutput (h : Joint k o s t) (hpid : o.of (.process pid) = some k) (out : Daemon.Output)
    (st : Stream Failure) {r : Routine} (hr : o.Has k (r.parts o.cwd)) :
    Yields k o s t (courseParts (Routine.parts o.cwd))
      ({ s with kernel := (st.await s.kernel).1 }.updateProcess pid fun p =>
          p.setOutput out (st.await s.kernel).2.1, .waits r (st.await s.kernel).2.2)
      ({ t with kernel := (st.await t.kernel).1 }.updateProcess pid fun p =>
          p.setOutput out (st.await t.kernel).2.1, .waits r (st.await t.kernel).2.2) := by
  obtain ⟨hacts, heq, hst, hwaiter⟩ := h.machine.await st
  have hg := hacts.grows
  rw [heq]
  refine ⟨_, (Acts.single (.kernel hacts)).trans (.single (.process (hg.old hpid) (fun r => ?_)
    fun _ hp => hp.setOutput out hst)), rfl, Owners.has_cons.2 ⟨hwaiter, hg.has hr⟩⟩
  cases out <;> rfl

lemma readLine (h : Joint k o s t) (hpid : o.of (.process pid) = some k)
    (hinput : o.Has k (outcomeParts input)) :
    Yields k o s t (courseParts (Routine.parts o.cwd)) (s.readLine pid input)
      (t.readLine pid input) := by
  unfold Supervisor.readLine
  rw [h.process? hpid]
  split
  · next p hp =>
    have hown := (h.hasProcess hpid hp).2.output .stdout
    have hstream : ∀ {o' : Owners} {s t : Supervisor} {st : Stream Failure}, o'.HasStream k st →
        o'.of (.process pid) = some k →
        Act k ⟨o', s, t⟩ ⟨o', s.updateProcess pid fun p => { p with stdout := st },
          t.updateProcess pid fun p => { p with stdout := st }⟩ := fun hst hpid =>
      .process hpid (fun _ => rfl) fun r hr => hr.setOutput .stdout hst
    split
    · next line stream hline =>
      have hst : o.HasStream k stream := by
        unfold Stream.line? at hline
        split at hline
        · cases hline
          exact ⟨hown.waiter⟩
        · cases hline
      dsimp only
      split <;> exact ⟨o, .single (hstream hst hpid), rfl, Owners.has_nil⟩
    · dsimp only
      split
      · exact ⟨o, .single (hstream ⟨hown.waiter⟩ hpid), rfl, Owners.has_nil⟩
      split
      · exact ⟨o, .single (hstream ⟨hown.waiter⟩ hpid), rfl, Owners.has_nil⟩
      · exact h.awaitOutput hpid .stdout p.stdout (Owners.has_cons.2 ⟨hpid, Owners.has_nil⟩)
  · exact .pure Owners.has_nil
  · exact .pure hinput

lemma reap (h : Joint k o s t) (hpid : o.of (.process pid) = some k)
    (hinput : o.Has k (outcomeParts input)) :
    Yields k o s t (courseParts (Routine.parts o.cwd)) (s.reap pid input) (t.reap pid input) := by
  unfold Supervisor.reap
  rw [h.process? hpid]
  split
  · next p hp =>
    split
    · exact .pure Owners.has_nil
    · have hfresh := MachineActs.fresh (k := k) (o := o) (K := s.kernel) (L := t.kernel)
      have hg := hfresh.grows
      have hself := h.machine.of_next
      dsimp only
      rw [h.machine.fresh_snd]
      refine ⟨_, (Acts.single (.kernel hfresh)).trans (.single (.process (hg.old hpid)
        (fun _ => rfl) fun _ hp => hp.awaited hself)), rfl, ?_⟩
      exact Owners.has_cons.2 ⟨hself, Owners.has_cons.2 ⟨hg.old hpid, Owners.has_nil⟩⟩
  · exact .pure Owners.has_nil
  · exact .pure hinput

lemma drain (h : Joint k o s t) (key : Text) (hpid : o.of (.process pid) = some k)
    (out : Daemon.Output) (hinput : o.Has k (outcomeParts input)) :
    Yields k o s t (courseParts (Routine.parts o.cwd)) (s.drain key pid out input)
      (t.drain key pid out input) := by
  unfold Supervisor.drain
  rw [h.process? hpid]
  split
  · next p hp =>
    have hst := (h.hasProcess hpid hp).2.output out
    dsimp only
    generalize chunkLines key out _ _ = lines
    refine (Parallel.report lines).thenYields h fun hg h => ?_
    replace hpid := hg.old hpid
    rw [← hg.cwd]
    split
    · refine ⟨_, .single (.process hpid (fun r => ?_) fun r hr =>
        hr.setOutput out ⟨fun w hw => hg.old (hst.waiter w hw)⟩), rfl, Owners.has_nil⟩
      cases out <;> rfl
    · exact h.awaitOutput hpid out _ (Owners.has_cons.2 ⟨hpid, Owners.has_nil⟩)
  · exact .pure Owners.has_nil
  · exact .pure hinput

/-! ## Giving a startup up -/

lemma abandonStartup (h : Joint k o s t) (hpid : o.of (.process pid) = some k)
    (hout : o.Has k (outcomeParts out)) :
    Yields k o s t (courseParts Startup.parts) (s.abandonStartup pid out)
      (t.abandonStartup pid out) := by
  obtain ⟨o', s', t', fault, hs', ht', hacts, h', -⟩ := (h.kill hpid).split h
  unfold Supervisor.abandonStartup
  rw [hs', ht']
  refine hacts.thenYields ?_
  cases fault with
  | some f => exact .pure Owners.has_nil
  | none =>
    obtain ⟨o'', htrack⟩ := h'.track (r := .reap pid)
      (Owners.has_cons.2 ⟨hacts.grows.old hpid, Owners.has_nil⟩)
    exact ⟨o'', htrack, rfl, htrack.grows.has (hacts.grows.has hout)⟩

lemma refuseStartup (h : Joint k o s t) (hpid : o.of (.process pid) = some k) (message : Text) :
    Yields k o s t (courseParts Startup.parts) (s.refuseStartup pid message)
      (t.refuseStartup pid message) := h.abandonStartup hpid Owners.has_nil

/-! ## Opening a session -/

/-- A session that is open is watched, and what its daemon writes is logged. -/
lemma attend (h : Joint k o s t) (key : Text) (hpid : o.of (.process pid) = some k)
    (hn : o.of (.session n) = some k) (lines : List LogLine) :
    Yields k o s t (courseParts Startup.parts)
      (((s.track (.watch n)).track (.drain key pid .stdout)).report lines, .ends (.value (.session n)))
      (((t.track (.watch n)).track (.drain key pid .stdout)).report lines,
        .ends (.value (.session n))) := by
  refine (h.track (r := .watch n) (Owners.has_cons.2 ⟨hn, Owners.has_nil⟩)).thenYields h
    fun hg h => ?_
  obtain ⟨o', htrack⟩ := h.track (r := .drain key pid .stdout)
    (Owners.has_cons.2 ⟨hg.old hpid, Owners.has_nil⟩)
  exact ⟨o', htrack.trans (.single (.notes _ _ _ _ _ _)), rfl,
    Owners.has_cons.2 ⟨htrack.grows.old (hg.old hn), Owners.has_nil⟩⟩

lemma openSession (h : Joint k o s t) {project : Project} (hkey : project.key o.cwd = k)
    (hpid : o.of (.process pid) = some k) (hport : PortOwned k o s t port) :
    Yields k o s t (courseParts Startup.parts) (s.openSession project pid port)
      (t.openSession project pid port) := by
  obtain ⟨o', s', t', result, hs', ht', hacts, h', hlink⟩ := (h.connect hport).split h
  unfold Supervisor.openSession
  rw [hs', ht']
  refine hacts.thenYields ?_
  replace hpid := hacts.grows.old hpid
  cases result with
  | error f => exact h'.abandonStartup hpid Owners.has_nil
  | ok link =>
    replace hlink := (Owners.has_cons.1 hlink).1
    have hcwd : project.key s'.cwd = k := by rw [← h'.owned.cwd, hacts.grows.cwd, hkey]
    have hcwd' : project.key t'.cwd = k := by rw [h'.alike.cwd, hcwd]
    dsimp only
    rw [h'.alike.kernel.now, h'.alike.sessionCount, h'.alike.links hlink, hcwd, hcwd']
    have hcommence := Acts.single (Act.commence (k := k) (o := o') (s := s') (t := t')
      (x := { project, key := k, pid, link, port, lastActivity := s'.kernel.now })
      ⟨rfl, hpid, hlink⟩)
    have hn := Owners.of_add_self (k := k) (by simp) (by simp) h'.owned.none_session
    have hg := hcommence.grows
    have h'' := hcommence.joint h'
    refine hcommence.thenYields ?_
    cases hl : s'.links[link]? with
    | none =>
      dsimp only
      exact h''.attend k (hg.old hpid) hn _
    | some l =>
      have hc := (h''.owned.links (hg.old hlink) hl).connection
      obtain ⟨hadded, heffects⟩ := hc.addCallback hn
      dsimp only
      refine (h''.applyAll (hg.old hlink) hadded heffects).thenYields h'' fun hg' h => ?_
      exact h.attend k (hg'.old (hg.old hpid)) (hg'.old hn) _

lemma onLine (h : Joint k o s t) {project : Project} (hkey : project.key o.cwd = k)
    (hpid : o.of (.process pid) = some k) {line : Bytes} (hline : LineOwned k o s t line) :
    Yields k o s t (courseParts Startup.parts) (s.onLine project pid line)
      (t.onLine project pid line) := by
  unfold Supervisor.onLine
  dsimp only
  split
  · have htimeout : t.settings.handshakeTimeout = s.settings.handshakeTimeout := by
      rw [h.alike.settings]
    obtain ⟨o', K, L, step, hK, hL, hacts, h', hstep⟩ :=
      (h.machine.beginDeadline s.settings.handshakeTimeout.toFloat (r := .reap pid)
        (Owners.has_cons.2 ⟨hpid, Owners.has_nil⟩)).split h
    rw [htimeout, hK, hL]
    refine hacts.thenYields ?_
    cases step with
    | waits d future =>
      obtain ⟨hfuture, hd⟩ := Owners.has_cons.1 hstep
      exact .pure (Owners.has_cons.2 ⟨hfuture, Owners.has_cons.2 ⟨hacts.grows.old hpid, hd⟩⟩)
    | ends e => exact .pure Owners.has_nil
  · split
    · next port hread => exact h.openSession hkey hpid (hline port hread)
    · exact h.refuseStartup hpid _

lemma afterAnnouncing (h : Joint k o s t) {project : Project} (hkey : project.key o.cwd = k)
    (hpid : o.of (.process pid) = some k) {step : Deadline.Step Value Failure}
    (hstep : o.Has k (deadlineStepParts step))
    (hline : ∀ line, step = .ends (.settled (.value (.line line))) → LineOwned k o s t line) :
    Yields k o s t (courseParts Startup.parts) (s.afterAnnouncing project pid step)
      (t.afterAnnouncing project pid step) := by
  unfold Supervisor.afterAnnouncing
  split
  · next d future =>
    obtain ⟨hfuture, hd⟩ := Owners.has_cons.1 hstep
    exact .pure (Owners.has_cons.2 ⟨hfuture, Owners.has_cons.2 ⟨hpid, hd⟩⟩)
  · rw [h.alike.settings]
    exact h.refuseStartup hpid _
  · next line => exact h.onLine hkey hpid (hline line rfl)
  · exact h.onLine hkey hpid nofun
  · exact h.abandonStartup hpid hstep

lemma afterDeparting (h : Joint k o s t) (hpid : o.of (.process pid) = some k)
    {step : Deadline.Step Value Failure} (hstep : o.Has k (deadlineStepParts step)) :
    Yields k o s t (courseParts Startup.parts) (s.afterDeparting pid step)
      (t.afterDeparting pid step) := by
  unfold Supervisor.afterDeparting
  split
  · next d future =>
    obtain ⟨hfuture, hd⟩ := Owners.has_cons.1 hstep
    exact .pure (Owners.has_cons.2 ⟨hfuture, Owners.has_cons.2 ⟨hpid, hd⟩⟩)
  · exact h.refuseStartup hpid _
  · exact h.refuseStartup hpid _
  · exact h.abandonStartup hpid Owners.has_nil
  · exact h.abandonStartup hpid hstep

lemma beginStartup (h : Joint k o s t) {project : Project} (hkey : project.key o.cwd = k) :
    Yields k o s t (courseParts Startup.parts) (s.beginStartup project)
      (t.beginStartup project) := by
  have hcwd : project.key s.cwd = k := by rw [← h.owned.cwd, hkey]
  have hcwd' : project.key t.cwd = k := by rw [h.alike.cwd, hcwd]
  unfold Supervisor.beginStartup
  dsimp only
  rw [hcwd, hcwd', h.alike.settings]
  generalize [Log.info _, Log.debug _] = lines
  refine (Parallel.report lines).thenYields h fun hg h => ?_
  obtain ⟨o', s', t', result, hs', ht', hacts, h', hpid⟩ :=
    (h.launch (s.settings.arguments project) project.root.toText).split h
  rw [hs', ht']
  refine hacts.thenYields ?_
  cases result with
  | error message => exact .pure Owners.has_nil
  | ok pid =>
    replace hpid := (Owners.has_cons.1 hpid).1
    dsimp only
    refine (h'.track (r := .drain k pid .stderr)
      (Owners.has_cons.2 ⟨hpid, Owners.has_nil⟩)).thenYields h' fun hg' h => ?_
    have htimeout : (t'.track (.drain k pid .stderr)).settings.handshakeTimeout =
        (s'.track (.drain k pid .stderr)).settings.handshakeTimeout := by rw [h.alike.settings]
    replace hpid := hg'.old hpid
    obtain ⟨d, future, hwaits⟩ := Kernel.exists_waits_begin
      (s'.track (.drain k pid .stderr)).kernel
      (s'.track (.drain k pid .stderr)).settings.handshakeTimeout.toFloat (.readLine pid)
    obtain ⟨o'', K, L, step, hK, hL, hacts', h, hstep⟩ :=
      (h.machine.beginDeadline
        (s'.track (.drain k pid .stderr)).settings.handshakeTimeout.toFloat (r := .readLine pid)
        (Owners.has_cons.2 ⟨hpid, Owners.has_nil⟩)).split h
    rw [htimeout, hK, hL]
    rw [hK] at hwaits
    refine hacts'.thenYields (h.afterAnnouncing ?_ (hacts'.grows.old hpid) hstep fun line heq => ?_)
    · rw [hacts'.grows.cwd, hg'.cwd, hacts.grows.cwd, hg.cwd, hkey]
    · cases hwaits.symm.trans heq

lemma resumeStartup (h : Joint k o s t) {project : Project} (hkey : project.key o.cwd = k)
    {state : Startup} (hstate : o.Has k state.parts) (input : Outcome Value Failure)
    (hlines : LinesOwned k o s t) :
    Yields k o s t (courseParts Startup.parts) (s.resumeStartup project state input)
      (t.resumeStartup project state input) := by
  cases state with
  | announcing pid d =>
    obtain ⟨hpid, hd⟩ := Owners.has_cons.1 hstate
    obtain ⟨o', K, L, step, hK, hL, hacts, h', hstep⟩ := (h.machine.resumeDeadline hd input).split h
    unfold Supervisor.resumeStartup
    dsimp only
    rw [hK, hL]
    have hg := hacts.grows
    refine hacts.thenYields (h'.afterAnnouncing (hg.cwd ▸ hkey) (hg.old hpid) hstep
      fun line heq port hread p hp hrunning hport => hg.old ?_)
    obtain ⟨task, htask, hout⟩ := outcome?_of_resume ((congrArg Prod.snd hK).trans heq)
    exact hlines task line (hd _ htask) hout port hread p hp hrunning hport
  | departing pid d =>
    obtain ⟨hpid, hd⟩ := Owners.has_cons.1 hstate
    obtain ⟨o', K, L, step, hK, hL, hacts, h', hstep⟩ := (h.machine.resumeDeadline hd input).split h
    unfold Supervisor.resumeStartup
    dsimp only
    rw [hK, hL]
    exact hacts.thenYields (h'.afterDeparting (hacts.grows.old hpid) hstep)

/-! ## The end of a startup -/

lemma onStartupEnded (h : Joint k o s t) {u : Id} (hu : o.of (.future u) = some k) :
    Parallel k o s t (s.onStartupEnded k u) (t.onStartupEnded k u) := by
  have hrelease : Parallel k o s t { s with slots := s.slots.release k u }
      { t with slots := t.slots.release k u } := by
    unfold Slots.release
    rw [h.alike.slot]
    split
    · exact .erase
    · exact .refl
  unfold Supervisor.onStartupEnded
  rw [h.machine.outcome? hu]
  split
  · exact .refl
  · exact .refl
  · exact hrelease
  · exact hrelease.andThen h fun _ _ => .report _

/-! ## Watching a daemon -/

lemma watch (h : Joint k o s t) (hn : o.of (.session n) = some k)
    (hinput : o.Has k (outcomeParts input)) :
    Yields k o s t (courseParts (Routine.parts o.cwd)) (s.watch n input) (t.watch n input) := by
  unfold Supervisor.watch
  rw [h.alike.sessions hn]
  cases hx : s.opened[n]? with
  | none => exact .pure Owners.has_nil
  | some x =>
    have hown := h.owned.sessions hn hx
    refine (h.reap hown.process hinput).andThen h (fun hg _ => ?_) fun {o' s' t' out} hg h' hout => ?_
    · exact Owners.has_cons.2 ⟨hg.old hn, Owners.has_nil⟩
    · replace hn := hg.old hn
      rw [h'.alike.sessions hn]
      split
      · next x hx =>
        have hlink := (h'.owned.sessions hn hx).link
        dsimp only
        generalize [exitLine x.key x.closing _] = lines
        refine (Parallel.report lines).thenYields h' fun hg' h => ?_
        refine (h.evict (hg'.old hn)).thenYields h fun hg'' h => ?_
        obtain ⟨o'', hstop⟩ := h.stopPeer (hg''.old (hg'.old hlink))
        exact ⟨o'', hstop, rfl, Owners.has_nil⟩
      · exact .pure hout

end Joint

end SuggestBridge.Supervisor
