import SuggestBridge.Proofs.Isolation.Startups

/-!
# Requests of callers

Getting, calling and closing a session are about its project alone.
-/

namespace SuggestBridge.Supervisor

open SuggestBridge.Task

variable {k : Text} {o : Owners} {s t : Supervisor} {pid n : Nat} {input : Outcome Value Failure}

/-! ## Closing -/

/-- Whoever closes a startup waits for its end. -/
lemma MachineJoint.withdraw {K L : Machine} (h : MachineJoint k o K L) {u : Id}
    (hu : o.of (.future u) = some k) :
    MachineYields k o K L (fun w => [.future w])
      ((((K.cancel u).1.fresh.1.update (K.cancel u).1.fresh.2 fun f => { f with awaited := 1 }).watch u
        (.countdown (K.cancel u).1.fresh.2)), (K.cancel u).1.fresh.2)
      ((((L.cancel u).1.fresh.1.update (L.cancel u).1.fresh.2 fun f => { f with awaited := 1 }).watch u
        (.countdown (L.cancel u).1.fresh.2)), (L.cancel u).1.fresh.2) := by
  have hcancel := (h.cancel hu).1
  replace h := hcancel.joint h
  have hself := h.of_next
  have hfresh := MachineActs.fresh (k := k) (o := o) (K := (K.cancel u).1) (L := (L.cancel u).1)
  have hg := hfresh.grows
  rw [h.fresh_snd]
  replace h := hfresh.joint h
  have hcount := MachineActs.update (K := (K.cancel u).1.fresh.1) (L := (L.cancel u).1.fresh.1)
    (f := fun f => { f with awaited := 1 }) hself fun _ hF =>
      ⟨hF.outcome, hF.watchers, hF.activity, hF.members⟩
  replace h := hcount.joint h
  have hwatch := h.watch (w := .countdown (K.cancel u).1.fresh.2) (hg.old hu) hself
  exact ⟨_, ((hcancel.trans hfresh).trans hcount).trans hwatch, rfl,
    Owners.has_cons.2 ⟨hself, Owners.has_nil⟩⟩

/-- All that whoever waits for a session refers to. -/
def acquiringParts (x : Text × Id) : List Part := [.future x.2]

namespace Joint

lemma afterKill (h : Joint k o s t) (hn : o.of (.session n) = some k)
    {step : Deadline.Step Value Failure} (hstep : o.Has k (deadlineStepParts step)) :
    Yields k o s t (courseParts Closing.parts) (s.afterKill n step) (t.afterKill n step) := by
  unfold Supervisor.afterKill
  split
  · next d future =>
    obtain ⟨hfuture, hd⟩ := Owners.has_cons.1 hstep
    exact .pure (Owners.has_cons.2 ⟨hfuture, Owners.has_cons.2 ⟨hn, hd⟩⟩)
  · rw [h.alike.sessions hn]
    exact (Parallel.report _).thenYields h fun _ _ => .pure Owners.has_nil
  · exact .pure Owners.has_nil
  · exact .pure hstep

lemma terminate (h : Joint k o s t) (hn : o.of (.session n) = some k) {x : Session}
    (hx : o.HasSession k x) :
    Yields k o s t (courseParts Closing.parts) (s.terminate n x) (t.terminate n x) := by
  unfold Supervisor.terminate
  dsimp only
  refine (Parallel.single (.session (f := fun x => { x with closing := true }) hn fun y hy =>
    ⟨hy.key, hy.process, hy.link⟩)).thenYields h fun hg h => ?_
  replace hx := hg.hasSession hx
  replace hn := hg.old hn
  refine (h.stopPeer hx.link).thenYields h fun hg h => ?_
  replace hx := hg.hasSession hx
  replace hn := hg.old hn
  obtain ⟨o', s', t', fault, hs', ht', hacts, h', -⟩ := (h.kill hx.process).split h
  rw [hs', ht']
  refine hacts.thenYields ?_
  cases fault with
  | some f => exact .pure Owners.has_nil
  | none =>
    have hpid := hacts.grows.old hx.process
    obtain ⟨o'', K, L, step, hK, hL, hacts', h'', hstep⟩ :=
      (h'.machine.beginDeadline killPatience (r := .reap x.pid)
        (Owners.has_cons.2 ⟨hpid, Owners.has_nil⟩)).split h'
    dsimp only
    rw [hK, hL]
    exact hacts'.thenYields (h''.afterKill (hacts'.grows.old (hacts.grows.old hn)) hstep)

lemma beginClosing (h : Joint k o s t) :
    Yields k o s t (courseParts Closing.parts) (s.beginClosing k) (t.beginClosing k) := by
  unfold Supervisor.beginClosing
  rw [h.alike.slot]
  cases hslot : s.slots.get? k with
  | none => exact .pure Owners.has_nil
  | some u =>
    dsimp only
    refine Parallel.erase.thenYields h fun hg h' => ?_
    have hu := hg.old (h.owned.slots hslot)
    have hdone : t.kernel.isDone u = s.kernel.isDone u := h'.machine.isDone hu
    have hsession : Supervisor.sessionOf? { t with slots := t.slots.erase k } u =
        Supervisor.sessionOf? { s with slots := s.slots.erase k } u := h'.sessionOf? hu
    rw [hdone, hsession]
    split
    · generalize Text.ofString "Cancelling nimsuggest startup for " ++ k = line
      refine (Parallel.report [Log.info line]).thenYields h' fun hg' h'' => ?_
      replace hu := hg'.old hu
      obtain ⟨o', hacts, heq, hw⟩ := h''.machine.withdraw hu
      refine ⟨o', .single (.kernel hacts), congrArg (fun w => Progress.waits (Closing.startup u w) w) heq, ?_⟩
      replace hw := (Owners.has_cons.1 hw).1
      exact Owners.has_cons.2 ⟨hw, Owners.has_cons.2 ⟨hacts.grows.old hu,
        Owners.has_cons.2 ⟨hw, Owners.has_nil⟩⟩⟩
    · cases hn : Supervisor.sessionOf? { s with slots := s.slots.erase k } u with
      | none => exact .pure Owners.has_nil
      | some n =>
        have hown := h'.of_sessionOf? hu hn
        dsimp only
        have hsessions := h'.alike.sessions hown
        dsimp only at hsessions
        rw [hsessions]
        cases hx : s.opened[n]? with
        | none => exact .pure Owners.has_nil
        | some x =>
          have hx := h'.owned.sessions hown hx
          dsimp only
          generalize Text.ofString "Closing nimsuggest for " ++ _ ++ _ ++ _ ++ _ = line
          refine (Parallel.report [Log.info line]).thenYields h' fun hg h => ?_
          exact h.terminate (hg.old hown) (hg.hasSession hx)

lemma resumeClosing (h : Joint k o s t) {state : Closing} (hstate : o.Has k state.parts)
    (hinput : o.Has k (outcomeParts input)) :
    Yields k o s t (courseParts Closing.parts) (s.resumeClosing state input)
      (t.resumeClosing state input) := by
  cases state with
  | startup task waiter =>
    have hacts : Acts k ⟨o, s, t⟩ _ :=
      .single (.kernel (MachineActs.unwatch (Owners.has_cons.1 hstate).1 waiter))
    unfold Supervisor.resumeClosing
    dsimp only
    cases input with
    | value v => exact hacts.thenYields (.pure Owners.has_nil)
    | _ => exact hacts.thenYields (.pure hinput)
  | process n d =>
    obtain ⟨hn, hd⟩ := Owners.has_cons.1 hstate
    obtain ⟨o', K, L, step, hK, hL, hacts, h', hstep⟩ := (h.machine.resumeDeadline hd input).split h
    unfold Supervisor.resumeClosing
    dsimp only
    rw [hK, hL]
    exact hacts.thenYields (h'.afterKill (hacts.grows.old hn) hstep)

/-! ## Getting a session -/

lemma linkOf? (h : Joint k o s t) (hn : o.of (.session n) = some k) :
    t.linkOf? n = s.linkOf? n := by
  unfold Supervisor.linkOf?
  rw [h.alike.sessions hn]
  cases hx : s.opened[n]? with
  | none => rfl
  | some x => exact h.alike.links (h.owned.sessions hn hx).link

lemma isAlive (h : Joint k o s t) (hn : o.of (.session n) = some k) :
    t.isAlive n = s.isAlive n := by
  unfold Supervisor.isAlive
  rw [h.alike.sessions hn, h.linkOf? hn]
  split
  · next x l hx _ => rw [h.isRunning (h.owned.sessions hn hx).process]
  · rfl

lemma usable? (h : Joint k o s t) : t.usable? k = s.usable? k := by
  unfold Supervisor.usable?
  rw [h.alike.slot]
  cases hslot : s.slots.get? k with
  | none => rfl
  | some u =>
    have hu := h.owned.slots hslot
    rw [Option.filter_some, Option.filter_some, h.machine.isDone hu, h.sessionOf? hu]
    cases hn : s.sessionOf? u with
    | none => rfl
    | some n =>
      simp only [h.isAlive (h.of_sessionOf? hu hn)]

lemma startupFor (h : Joint k o s t) {project : Project} (hkey : project.key o.cwd = k) :
    Yields k o s t (fun u => [.future u]) (s.startupFor project) (t.startupFor project) := by
  have hcwd : project.key s.cwd = k := by rw [← h.owned.cwd, hkey]
  have hcwd' : project.key t.cwd = k := by rw [h.alike.cwd, hcwd]
  unfold Supervisor.startupFor
  dsimp only
  rw [hcwd, hcwd', h.usable?]
  cases hu : s.usable? k with
  | some u =>
    have hslot : s.slots.get? k = some u := Option.eq_some_of_filter_eq_some hu
    exact .pure (Owners.has_cons.2 ⟨h.owned.slots hslot, Owners.has_nil⟩)
  | none =>
    have hspawn := h.machine.spawn (r := .startup project)
      (Owners.has_cons.2 ⟨congrArg some hkey, Owners.has_nil⟩)
    have hself := h.machine.of_next
    have hwatch := (hspawn.joint h.machine).watch (w := .hook (.startupEnded k)) hself rfl
    dsimp only
    rw [h.machine.spawn_snd]
    refine ⟨_, (Acts.single (.kernel (hspawn.trans hwatch))).trans (.single (.slots
      (fun {key} hne => ?_) ?_ fun {u} hu => ?_)), rfl, Owners.has_cons.2 ⟨hself, Owners.has_nil⟩⟩
    · rw [Slots.get?_fill_of_ne _ _ hne, Slots.get?_erase_of_ne _ hne]
    · rw [Slots.get?_fill_self, Slots.get?_fill_self]
    · rw [Slots.get?_fill_self] at hu
      cases hu
      exact hself

lemma beginAcquiring (h : Joint k o s t) {project : Project} (hkey : project.key o.cwd = k) :
    Yields k o s t (courseParts acquiringParts) (s.beginAcquiring project)
      (t.beginAcquiring project) := by
  obtain ⟨o', s', t', u, hs', ht', hacts, h', hu⟩ := (h.startupFor hkey).split h
  replace hu := (Owners.has_cons.1 hu).1
  unfold Supervisor.beginAcquiring
  rw [hs', ht']
  refine hacts.thenYields ?_
  dsimp only
  rw [h'.machine.outcome? hu]
  cases hout : s'.kernel.outcome? u with
  | some out => exact .pure (h'.machine.has_outcome hu hout)
  | none =>
    have hfresh := MachineActs.fresh (k := k) (o := o') (K := s'.kernel) (L := t'.kernel)
    have hself := h'.machine.of_next
    have hwatch := (hfresh.joint h'.machine).watch (w := .relay s'.kernel.fresh.2)
      (hfresh.grows.old hu) hself
    have hcwd : project.key t'.cwd = project.key s'.cwd := by rw [h'.alike.cwd]
    dsimp only
    rw [h'.machine.fresh_snd, hcwd]
    exact ⟨_, .single (.kernel (hfresh.trans hwatch)), rfl, Owners.has_cons.2
      ⟨hself, Owners.has_cons.2 ⟨hfresh.grows.old hu, Owners.has_nil⟩⟩⟩

lemma resumeAcquiring (h : Joint k o s t) {caller u : Id} (hcaller : o.of (.future caller) = some k)
    (hu : o.of (.future u) = some k) (key : Text) (hinput : o.Has k (outcomeParts input)) :
    Yields k o s t (courseParts acquiringParts) (s.resumeAcquiring caller key u input)
      (t.resumeAcquiring caller key u input) := by
  unfold Supervisor.resumeAcquiring
  rw [h.machine.isCancelled hu, h.machine.wasAskedToCancel hcaller]
  split
  · split <;> exact .pure Owners.has_nil
  · exact .pure hinput

/-! ## Calling a method -/

lemma followCall (h : Joint k o s t) (hn : o.of (.session n) = some k)
    {progress : Connection.CallProgress}
    (hprogress : ∀ st f, progress = .waits st f → o.of (.future f) = some k ∧
      o.Has k (callStateParts st)) :
    Yields k o s t (courseParts callStateParts) (s.followCall n progress)
      (t.followCall n progress) := by
  unfold Supervisor.followCall
  rw [h.alike.kernel.now]
  split
  · exact .pure (Owners.has_cons.2 (hprogress _ _ rfl))
  · exact ⟨o, .single (.session hn fun x hx => ⟨hx.key, hx.process, hx.link⟩), rfl, Owners.has_nil⟩
  · exact .pure Owners.has_nil
  · exact .pure Owners.has_nil

lemma resumeCall (h : Joint k o s t) (hn : o.of (.session n) = some k)
    {state : Connection.CallState} (hstate : o.Has k (callStateParts state))
    (input : Outcome Value Failure) :
    Yields k o s t (courseParts callStateParts) (s.resumeCall n state input)
      (t.resumeCall n state input) := by
  unfold Supervisor.resumeCall
  rw [h.alike.sessions hn, h.linkOf? hn]
  split
  · next x l hx hl =>
    have hlink := (h.owned.sessions hn hx).link
    have hc := (h.owned.links hlink (links_of_linkOf? hx hl)).connection
    have hafter := hc.within (Connection.within_resumeCall hc.awaits s.kernel.isDone state
      (input.map Value.sexp)) (Connection.outward_resumeCall _ _ _ _).confines
    have hplace := Connection.waits_resumeCall l.connection s.kernel.isDone state
      (input.map Value.sexp)
    rw [Connection.resumeCall_congr (h.awaits hc)]
    generalize l.connection.resumeCall s.kernel.isDone state (input.map Value.sexp) = r
      at hafter hplace ⊢
    obtain ⟨c, es, progress⟩ := r
    refine (h.applyAll hlink hafter.1 hafter.2).thenYields h fun hg h => ?_
    refine h.followCall (hg.old hn) fun st f hwaits => ?_
    obtain ⟨hf, hrefs⟩ := hplace st f hwaits
    refine ⟨hg.old (hstate _ (List.mem_map.2 ⟨f, hf, rfl⟩)), ?_⟩
    rw [callStateParts, hrefs]
    exact Owners.has_nil
  · exact .pure Owners.has_nil

lemma beginCall (h : Joint k o s t) (hn : o.of (.session n) = some k) (method : Text)
    (args : List Sexp) :
    Yields k o s t (courseParts callStateParts) (s.beginCall n method args)
      (t.beginCall n method args) := by
  unfold Supervisor.beginCall
  rw [h.alike.sessions hn, h.linkOf? hn]
  split
  · next x l hx hl =>
    have hlink := (h.owned.sessions hn hx).link
    have hc := (h.owned.links hlink (links_of_linkOf? hx hl)).connection
    have hnew : ∀ d ∈ l.connection.peer.pending, d.future ≠ s.kernel.fresh.2 := fun d hd heq =>
      absurd (heq ▸ h.owned.kernel.lt (hc.awaits d hd)) (Nat.lt_irrefl _)
    have hfresh := MachineActs.fresh (k := k) (o := o) (K := s.kernel) (L := t.kernel)
    have hfuture : (o.add (.future s.kernel.futures.size) k).of (.future s.kernel.fresh.2) = some k :=
      h.machine.of_next
    have hsame := h.machine.fresh_snd
    have hfreshed := hfresh.joint h.machine
    have hfresh' := MachineActs.fresh (k := k) (o := o.add (.future s.kernel.futures.size) k)
      (K := s.kernel.fresh.1) (L := t.kernel.fresh.1)
    have hdrained := hfreshed.of_next
    have hacts : Acts k ⟨o, s, t⟩ _ := .single (.kernel (hfresh.trans hfresh'))
    replace h := hacts.joint h
    replace hn := hacts.grows.old hn
    replace hlink := hacts.grows.old hlink
    replace hc := hacts.grows.hasConnection hc
    replace hfuture := hfresh'.grows.old hfuture
    dsimp only
    refine hacts.thenYields ?_
    have hdone := h.awaits hc
    have hisDone := h.machine.isDone hfuture
    have hnow := h.alike.kernel.now
    dsimp only at hdone hisDone hnow
    rw [hfreshed.fresh_snd, hsame, hnow, Connection.beginCall_congr hdone _ hisDone]
    have hafter := hc.within (Connection.within_beginCall hc.awaits _ _ hfuture hnew method args)
      (Connection.confines_beginCall l.connection s.kernel.fresh.1.fresh.1.isDone
        s.kernel.fresh.1.fresh.1.now s.kernel.fresh.2 s.kernel.fresh.1.fresh.2 method args)
    have hplace := Connection.waits_beginCall l.connection s.kernel.fresh.1.fresh.1.isDone
      s.kernel.fresh.1.fresh.1.now s.kernel.fresh.2 s.kernel.fresh.1.fresh.2 method args
    generalize l.connection.beginCall s.kernel.fresh.1.fresh.1.isDone s.kernel.fresh.1.fresh.1.now
      s.kernel.fresh.2 s.kernel.fresh.1.fresh.2 method args = r at hafter hplace ⊢
    obtain ⟨c, es, progress⟩ := r
    refine (h.applyAll hlink hafter.1 hafter.2).thenYields h fun hg h => ?_
    refine h.followCall (hg.old hn) fun st f hwaits => ?_
    obtain ⟨hf, hrefs⟩ := hplace st f hwaits
    refine ⟨?_, fun x hx => ?_⟩
    · rcases hf with rfl | rfl
      · exact hg.old hfuture
      · exact hg.old hdrained
    · obtain ⟨y, hy, rfl⟩ := List.mem_map.1 hx
      exact hrefs y hy ▸ hg.old hfuture
  · exact .pure Owners.has_nil

/-! ## Listening -/

/-- A listener waits for bytes. -/
lemma awaitIncoming (h : Joint k o s t) (hn : o.of (.link n) = some k) (st : Stream Failure) :
    Yields k o s t (courseParts (Routine.parts o.cwd))
      ({ s with kernel := (st.await s.kernel).1 }.updateLink n fun l =>
          { l with connection := { l.connection with incoming := (st.await s.kernel).2.1 } },
        .waits (.listen n) (st.await s.kernel).2.2)
      ({ t with kernel := (st.await t.kernel).1 }.updateLink n fun l =>
          { l with connection := { l.connection with incoming := (st.await t.kernel).2.1 } },
        .waits (.listen n) (st.await t.kernel).2.2) := by
  obtain ⟨hacts, heq, hst, hwaiter⟩ := h.machine.await st
  have hn := hacts.grows.old hn
  rw [heq]
  exact ⟨_, (Acts.single (.kernel hacts)).trans (.single (.link hn fun r hr => hr.arrived hst)), rfl,
    Owners.has_cons.2 ⟨hwaiter, Owners.has_cons.2 ⟨hn, Owners.has_nil⟩⟩⟩

lemma followListener (h : Joint k o s t) (hn : o.of (.link n) = some k)
    {r : Connection Nat × List (Peer.Effect Nat) × Connection.Pause}
    (hr : o.HasConnection k r.1 ∧ ∀ e ∈ r.2.1, o.Has k (effectParts e)) :
    Yields k o s t (courseParts (Routine.parts o.cwd)) (s.followListener n r)
      (t.followListener n r) := by
  obtain ⟨c, es, why⟩ := r
  unfold Supervisor.followListener
  dsimp only
  refine (h.applyAll hn hr.1 hr.2).thenYields h fun hg h => ?_
  replace hn := hg.old hn
  rw [← hg.cwd, h.alike.links hn]
  generalize s.applyAll n c es = s' at h ⊢
  generalize t.applyAll n c es = t' at h ⊢
  split
  · next l hl => exact h.awaitIncoming hn l.connection.incoming
  · exact .pure Owners.has_nil

lemma beginListening (h : Joint k o s t) (hn : o.of (.link n) = some k) :
    Yields k o s t (courseParts (Routine.parts o.cwd)) (s.beginListening n)
      (t.beginListening n) := by
  unfold Supervisor.beginListening
  rw [h.alike.links hn]
  cases hl : s.links[n]? with
  | none => exact .pure Owners.has_nil
  | some l =>
    have hc := (h.owned.links hn hl).connection
    dsimp only
    rw [Connection.beginListening_congr (h.awaits hc), h.alike.kernel.now]
    exact h.followListener hn (hc.within (Connection.within_beginListening hc.awaits _ _)
      (Connection.outward_beginListening _ _ _).confines)

lemma resumeListening (h : Joint k o s t) (hn : o.of (.link n) = some k)
    (input : Outcome Value Failure) :
    Yields k o s t (courseParts (Routine.parts o.cwd)) (s.resumeListening n input)
      (t.resumeListening n input) := by
  unfold Supervisor.resumeListening
  rw [h.alike.links hn]
  cases hl : s.links[n]? with
  | none => exact .pure Owners.has_nil
  | some l =>
    have hc := (h.owned.links hn hl).connection
    dsimp only
    rw [Connection.resumeListening_congr (h.awaits hc), h.alike.kernel.now]
    exact h.followListener hn (hc.within (Connection.within_resumeListening hc.awaits _ _ _)
      (Connection.outward_resumeListening _ _ _ _).confines)

end Joint

end SuggestBridge.Supervisor
