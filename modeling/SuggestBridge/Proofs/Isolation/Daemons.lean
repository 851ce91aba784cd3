import SuggestBridge.Proofs.Isolation.Acts

/-!
# Daemons of a project

Whatever a daemon of a project does, and whatever is done to it, is about the project alone.
-/

namespace SuggestBridge.Supervisor

open SuggestBridge.Task

variable {k : Text} {o : Owners} {s t : Supervisor} {pid n : Nat}

/-! ## What is read -/

lemma find?_isOf (hpid : o.of (.process pid) = some k) (ps : List Daemon.Process) :
    (ps.filter (o.isOf k)).find? (fun p => p.pid == pid) = ps.find? fun p => p.pid == pid := by
  rw [List.find?_filter]
  congr 1
  funext p
  by_cases hp : p.pid = pid
  · simp [Owners.isOf, hp, hpid]
  · simp [hp]

/-- What a stream of the project goes through is the same in both kernels. -/
def Pours (k : Text) (f : Machine → Stream Failure → Machine × Stream Failure) : Prop :=
  ∀ {o : Owners} {K L : Machine} {st : Stream Failure}, MachineJoint k o K L → o.HasStream k st →
    MachineActs k ⟨o, K, L⟩ ⟨o, (f K st).1, (f L st).1⟩ ∧ (f L st).2 = (f K st).2 ∧
      o.HasStream k (f K st).2

lemma pours_feed (data : Bytes) : Pours k fun K st => st.feed K data := fun h hst => h.feed hst data

lemma pours_finish : Pours k fun K st => st.finish K := fun h hst => h.finishStream hst

namespace Owners

variable {p : Daemon.Process}

lemma HasProcess.setOutput (h : o.HasProcess k p) (out : Daemon.Output) {st : Stream Failure}
    (hst : o.HasStream k st) : o.HasProcess k (p.setOutput out st) := by
  cases out with
  | stdout =>
    exact ⟨h.self, fun | .stdout => hst | .stderr => h.output .stderr, h.exitWaiters, h.connection⟩
  | stderr =>
    exact ⟨h.self, fun | .stdout => h.output .stdout | .stderr => hst, h.exitWaiters, h.connection⟩

lemma HasProcess.reaped (h : o.HasProcess k p) (code : Int) :
    o.HasProcess k { p with exitCode := some code, reaped := true, exitWaiters := [] } :=
  ⟨h.self, fun | .stdout => h.output .stdout | .stderr => h.output .stderr,
    fun _ hw => absurd hw List.not_mem_nil, h.connection⟩

lemma HasProcess.marked (h : o.HasProcess k p) (code : Int) :
    o.HasProcess k { p with exitCode := some code } :=
  ⟨h.self, fun | .stdout => h.output .stdout | .stderr => h.output .stderr, h.exitWaiters,
    h.connection⟩

lemma HasProcess.awaited (h : o.HasProcess k p) {w : Id} (hw : o.of (.future w) = some k) :
    o.HasProcess k { p with exitWaiters := p.exitWaiters ++ [w] } where
  self := h.self
  output
    | .stdout => h.output .stdout
    | .stderr => h.output .stderr
  exitWaiters v hv := by
    rcases List.mem_append.1 hv with hv | hv
    · exact h.exitWaiters v hv
    · exact List.mem_singleton.1 hv ▸ hw
  connection := h.connection

lemma HasProcess.connected (h : o.HasProcess k p) (hn : o.of (.link n) = some k) :
    o.HasProcess k { p with connection := some n } where
  self := h.self
  output
    | .stdout => h.output .stdout
    | .stderr => h.output .stderr
  exitWaiters := h.exitWaiters
  connection m hm := by
    cases hm
    exact hn

variable {l : Link}

lemma HasLink.arrived (h : o.HasLink k l) {st : Stream Failure} (hst : o.HasStream k st) :
    o.HasLink k { l with connection := { l.connection with incoming := st } } :=
  ⟨h.process, h.connection.awaits, h.connection.callbacks, hst, h.connection.listener⟩

lemma HasLink.shut (h : o.HasLink k l) : o.HasLink k { l with isOpen := false } :=
  ⟨h.process, h.connection⟩

end Owners

/-- Lines are logged. -/
lemma Parallel.report (lines : List LogLine) :
    Parallel k o s t (s.report lines) (t.report lines) :=
  .single (.notes (s.log ++ lines) (t.log ++ lines) s.events t.events s.background t.background)

/-- Note is taken of an event. -/
lemma Parallel.note (event : Text) : Parallel k o s t (s.note event) (t.note event) :=
  .single (.notes s.log t.log (s.events ++ [event]) (t.events ++ [event]) s.background t.background)

lemma Parallel.kernel {o' : Owners} {K L : Machine}
    (h : MachineActs k ⟨o, s.kernel, t.kernel⟩ ⟨o', K, L⟩) :
    Parallel k o s t { s with kernel := K } { t with kernel := L } := .single (.kernel h)

namespace Joint

variable (h : Joint k o s t)
include h

lemma process? (hpid : o.of (.process pid) = some k) : t.process? pid = s.process? pid := by
  unfold Supervisor.process?
  rw [← find?_isOf hpid, h.alike.processes, find?_isOf hpid]

lemma hasProcess {p : Daemon.Process} (hpid : o.of (.process pid) = some k)
    (hp : s.process? pid = some p) : p.pid = pid ∧ o.HasProcess k p := by
  have hself : p.pid = pid := by simpa using List.find?_some hp
  obtain ⟨j, hj⟩ := h.owned.processes p (List.mem_of_find?_eq_some hp)
  cases (hself ▸ hj.self).symm.trans hpid
  exact ⟨hself, hj⟩

lemma isRunning (hpid : o.of (.process pid) = some k) : t.isRunning pid = s.isRunning pid := by
  rw [Supervisor.isRunning, h.process? hpid, Supervisor.isRunning]

/-! ## Streams -/

/-- Something happens to what a daemon writes. -/
lemma onOutput (hpid : o.of (.process pid) = some k) (out : Daemon.Output)
    {f : Machine → Stream Failure → Machine × Stream Failure} (hf : Pours k f) :
    Parallel k o s t (s.onOutput pid out f) (t.onOutput pid out f) := by
  unfold Supervisor.onOutput
  rw [h.process? hpid]
  cases hp : s.process? pid with
  | none => exact .refl
  | some p =>
    obtain ⟨hacts, heq, hst⟩ := hf h.machine ((h.hasProcess hpid hp).2.output out)
    dsimp only
    rw [heq]
    refine ⟨o, (Acts.single (.kernel hacts)).trans (.single (.process hpid (fun r => ?_) ?_))⟩
    · cases out <;> rfl
    · exact fun r hr => hr.setOutput out hst

/-- Something happens to what arrives over a connection. -/
lemma onIncoming (hn : o.of (.link n) = some k)
    {f : Machine → Stream Failure → Machine × Stream Failure} (hf : Pours k f) :
    Parallel k o s t (s.onIncoming n f) (t.onIncoming n f) := by
  unfold Supervisor.onIncoming
  rw [h.alike.links hn]
  cases hl : s.links[n]? with
  | none => exact .refl
  | some l =>
    obtain ⟨hacts, heq, hst⟩ := hf h.machine (h.owned.links hn hl).connection.incoming
    dsimp only
    rw [heq]
    exact ⟨o, (Acts.single (.kernel hacts)).trans
      (.single (.link hn fun r hr => hr.arrived hst))⟩

/-! ## Connections -/

lemma receive (hn : o.of (.link n) = some k) (data : Bytes) :
    Parallel k o s t (s.receive n data) (t.receive n data) := by
  unfold Supervisor.receive
  rw [h.alike.links hn]
  split
  · split
    · exact h.onIncoming hn (pours_feed data)
    · exact .refl
  · exact .refl

lemma receiveMessage (hn : o.of (.link n) = some k) (message : Sexp) :
    Parallel k o s t (s.receiveMessage n message) (t.receiveMessage n message) := by
  unfold Supervisor.receiveMessage
  split
  · exact h.receive hn _
  · exact .refl

lemma hangUp (hn : o.of (.link n) = some k) : Parallel k o s t (s.hangUp n) (t.hangUp n) := by
  unfold Supervisor.hangUp
  rw [h.alike.links hn]
  split
  · split
    · refine (Parallel.single (.link hn fun l hl => hl.shut)).andThen h fun hgrows hjoint => ?_
      exact hjoint.onIncoming (hgrows.old hn) pours_finish
    · exact .refl
  · exact .refl

/-! ## Processes -/

omit h in
/-- Those that wait for something are told. -/
lemma foldl_settle {ws : List Id} (hws : ∀ w ∈ ws, o.of (.future w) = some k)
    (out : Outcome Value Failure) (hout : o.Has k (outcomeParts out)) {K L : Machine}
    (hK : MachineJoint k o K L) :
    MachineActs k ⟨o, K, L⟩ ⟨o, ws.foldl (fun k w => k.settle w out) K,
      ws.foldl (fun k w => k.settle w out) L⟩ := by
  induction ws generalizing K L with
  | nil => exact .refl
  | cons w ws ih =>
    have hsettle := hK.settle (hws w List.mem_cons_self) hout
    exact hsettle.trans (ih (fun v hv => hws v (List.mem_cons_of_mem _ hv)) (hsettle.joint hK))

lemma exit (hpid : o.of (.process pid) = some k) (code : Int) :
    Parallel k o s t (s.exit pid code) (t.exit pid code) := by
  unfold Supervisor.exit
  rw [h.process? hpid]
  cases hp : s.process? pid with
  | none => exact .refl
  | some p =>
    dsimp only
    split
    · exact .refl
    have hown := (h.hasProcess hpid hp).2
    have hreap : Act k ⟨o, s, t⟩ _ := .process (f := fun p =>
      { p with exitCode := some code, reaped := true, exitWaiters := [] }) hpid (fun _ => rfl)
      fun _ hr => hr.reaped code
    refine (Parallel.single hreap).andThen h fun hg h => ?_
    refine (Parallel.kernel (foldl_settle (fun w hw => hg.old (hown.exitWaiters w hw))
      (.value .unit) Owners.has_nil h.machine)).andThen h fun hg' h => ?_
    replace hg := hg.trans hg'
    refine (h.onOutput (hg.old hpid) .stdout pours_finish).andThen h fun hg' h => ?_
    replace hg := hg.trans hg'
    refine (h.onOutput (hg.old hpid) .stderr pours_finish).andThen h fun hg' h => ?_
    replace hg := hg.trans hg'
    cases hc : p.connection with
    | none => exact .refl
    | some n => exact h.hangUp (hg.old (hown.connection n hc))

lemma kill (hpid : o.of (.process pid) = some k) :
    Yields k o s t (fun _ => []) (s.kill pid) (t.kill pid) := by
  unfold Supervisor.kill
  rw [h.process? hpid]
  cases hp : s.process? pid with
  | none => exact .pure Owners.has_nil
  | some p =>
    dsimp only
    split
    · exact .pure Owners.has_nil
    refine (Parallel.note ("kill " ++ Text.ofNat pid)).thenYields h fun hg h => ?_
    replace hpid := hg.old hpid
    split
    · obtain ⟨o', hacts⟩ := h.exit hpid 0
      exact ⟨o', hacts, rfl, Owners.has_nil⟩
    · exact .pure Owners.has_nil
    · split
      · exact .pure Owners.has_nil
      · exact ⟨_, .single (.kernel (MachineActs.soon (Owners.has_cons.2 ⟨hpid, Owners.has_nil⟩))),
          rfl, Owners.has_nil⟩

lemma act (hpid : o.of (.process pid) = some k) : Parallel k o s t (s.act pid) (t.act pid) := by
  unfold Supervisor.act
  rw [h.process? hpid]
  cases hp : s.process? pid with
  | none => exact .refl
  | some p =>
    dsimp only
    split
    · exact .refl
    refine (h.onOutput hpid .stderr (pours_feed p.script.stderr)).andThen h fun hg h => ?_
    replace hpid := hg.old hpid
    split
    · exact .refl
    · exact h.onOutput hpid .stdout pours_finish
    · exact h.exit hpid _
    · next line _ =>
      generalize line.getD _ = data
      refine (h.onOutput hpid .stdout (pours_feed data)).andThen h fun hg h => ?_
      split
      · exact .refl
      · exact h.onOutput (hg.old hpid) .stdout pours_finish

/-- A daemon is started, or cannot be started. -/
lemma launch (command : List Text) (cwd : Text) :
    Yields k o s t (resultParts fun pid => [.process pid]) (s.launch command cwd)
      (t.launch command cwd) := by
  have hscript : (t.scripts[t.attempts]?.or t.scripts.getLast?).getD {} =
      (s.scripts[s.attempts]?.or s.scripts.getLast?).getD {} := by
    rw [h.alike.scripts, h.alike.attempts]
  unfold Supervisor.launch
  rw [hscript, h.alike.attempts]
  dsimp only
  have hself := Owners.of_add_self (k := k) (by simp) (by simp) h.owned.none_process
  generalize (s.scripts[s.attempts]?.or s.scripts.getLast?).getD {} = script
  have hattempt := Acts.single (Act.attempt (k := k) (o := o) (s := s) (t := t))
  replace h := hattempt.joint h
  refine hattempt.thenYields ?_
  cases script.startError with
  | some message =>
    dsimp only
    generalize Text.ofString "spawn-failed " ++ _ = event
    exact (Parallel.note event).thenYields h fun _ _ => .pure Owners.has_nil
  | none =>
    dsimp only
    generalize Text.ofString "spawn " ++ _ ++ _ ++ _ ++ _ ++ _ = event
    refine (Parallel.note event).thenYields h fun hg h => ?_
    replace hself := hg.old hself
    have hafter := MachineActs.after (K := s.kernel) (L := t.kernel) script.delay
      (.hook (.act (firstPid + s.attempts))) (Owners.has_cons.2 ⟨hself, Owners.has_nil⟩)
    have hnew := hafter.grows.old hself
    refine Acts.thenYields (.single (.kernel hafter)) ⟨_, .single (.appear ?_), rfl, ?_⟩
    · refine ⟨hnew, ?_, fun _ hw => absurd hw List.not_mem_nil, fun _ hn => by cases hn⟩
      rintro (_ | _) <;> exact ⟨fun _ hw => by cases hw⟩
    · exact Owners.has_cons.2 ⟨hnew, Owners.has_nil⟩

lemma serve (hn : o.of (.link n) = some k) {p : Daemon.Process}
    (hpid : o.of (.process p.pid) = some k) (payload : Text) :
    Parallel k o s t (s.serve n p payload) (t.serve n p payload) := by
  unfold Supervisor.serve
  split
  · exact .refl
  · next r _ =>
    dsimp only
    generalize Text.ofString "request " ++ _ ++ _ ++ _ ++ _ ++ _ = event
    refine (Parallel.note event).andThen h fun hg h => ?_
    replace hn := hg.old hn
    replace hpid := hg.old hpid
    split
    · exact h.receiveMessage hn _
    · exact .kernel (MachineActs.after _ _ (Owners.has_cons.2 ⟨hn, Owners.has_nil⟩))
    · exact h.exit hpid _
    · exact h.hangUp hn
    · exact h.receive hn _
    · exact .refl

lemma transmit (hn : o.of (.link n) = some k) (frame : Bytes) :
    Parallel k o s t (s.transmit n frame) (t.transmit n frame) := by
  unfold Supervisor.transmit
  rw [h.alike.links hn]
  cases hl : s.links[n]? with
  | none => exact .refl
  | some l =>
    have hpid := (h.owned.links hn hl).process
    dsimp only
    rw [h.process? hpid]
    split
    · next p payloads _ hp hpayloads =>
      have hself := (h.hasProcess hpid hp).2.self
      clear hp hl hpid hpayloads
      induction payloads generalizing s t o with
      | nil => exact .refl
      | cons payload payloads ih =>
        refine (h.serve hn hself payload).andThen h fun hg h => ?_
        exact ih h (hg.old hn) (hg.old hself)
    · exact .refl

end Joint

end SuggestBridge.Supervisor
