import SuggestBridge.Proofs.Isolation.Machine

/-!
# Kernel operations on behalf of a project

Every operation of the kernel that is about futures of a project does the same small things to two
kernels that are alike for the project, and gives the same result in both.
-/

namespace SuggestBridge.Supervisor

open SuggestBridge.Task

variable {k : Text} {o : Owners} {K L : Machine} {id : Id} {out : Outcome Value Failure}

/-- What an operation gives and what it does are the same in both kernels. -/
def MachineYields {α : Type} (k : Text) (o : Owners) (K L : Machine) (parts : α → List Part)
    (x y : Machine × α) : Prop :=
  ∃ o', MachineActs k ⟨o, K, L⟩ ⟨o', x.1, y.1⟩ ∧ y.2 = x.2 ∧ o'.Has k (parts x.2)

lemma MachineYields.after {α : Type} {parts : α → List Part} {o' : Owners} {K' L' : Machine}
    {x y : Machine × α} (h : MachineYields k o' K' L' parts x y)
    (hacts : MachineActs k ⟨o, K, L⟩ ⟨o', K', L'⟩) : MachineYields k o K L parts x y := by
  obtain ⟨o'', hmore, heq, hparts⟩ := h
  exact ⟨o'', hacts.trans hmore, heq, hparts⟩

namespace MachineActs

lemma update {f : Future Routine Hook Value Failure → Future Routine Hook Value Failure}
    (hid : o.of (.future id) = some k) (hf : ∀ F, o.HasFuture k F → o.HasFuture k (f F)) :
    MachineActs k ⟨o, K, L⟩ ⟨o, K.update id f, L.update id f⟩ := .single (.update hid hf)

/-- A task is changed where it stands. -/
lemma change {g : Activity Routine → Activity Routine} (hid : o.of (.future id) = some k)
    (hg : ∀ a, o.HasActivity k a → o.HasActivity k (g a)) :
    MachineActs k ⟨o, K, L⟩
      ⟨o, K.update id fun f => { f with activity := f.activity.map g },
        L.update id fun f => { f with activity := f.activity.map g }⟩ :=
  update hid fun F hF => by
    refine ⟨hF.outcome, hF.watchers, fun b hb => ?_, hF.members⟩
    obtain ⟨a, ha, rfl⟩ := Option.map_eq_some_iff.1 hb
    exact hg a (hF.activity a ha)

/-- A task is given another state. -/
lemma put {a : Activity Routine} (hid : o.of (.future id) = some k) (ha : o.HasActivity k a) :
    MachineActs k ⟨o, K, L⟩
      ⟨o, K.update id fun f => { f with activity := some a },
        L.update id fun f => { f with activity := some a }⟩ :=
  update hid fun F hF => by
    refine ⟨hF.outcome, hF.watchers, fun b hb => ?_, hF.members⟩
    cases hb
    exact ha

lemma ready {jobs : List (Job Hook)} (hjobs : ∀ job ∈ jobs, o.Has k (jobParts job)) :
    MachineActs k ⟨o, K, L⟩
      ⟨o, { K with ready := K.ready ++ jobs }, { L with ready := L.ready ++ jobs }⟩ :=
  .single (.ready hjobs)

lemma soon {job : Job Hook} (hjob : o.Has k (jobParts job)) :
    MachineActs k ⟨o, K, L⟩ ⟨o, K.soon job, L.soon job⟩ :=
  ready fun _ hmem => List.mem_singleton.1 hmem ▸ hjob

lemma unwatch (hid : o.of (.future id) = some k) (waiter : Id) :
    MachineActs k ⟨o, K, L⟩ ⟨o, K.unwatch id waiter, L.unwatch id waiter⟩ := by
  unfold Kernel.unwatch
  refine update hid fun F hF => ?_
  exact ⟨hF.outcome, fun w hw => hF.watchers w (List.mem_filter.1 hw).1, hF.activity, hF.members⟩

lemma fresh : MachineActs k ⟨o, K, L⟩ ⟨o.add (.future K.futures.size) k, K.fresh.1, L.fresh.1⟩ :=
  .single (.add Owners.hasFuture_empty)

lemma after (delay : Float) (job : Job Hook) (hjob : o.Has k (jobParts job)) :
    MachineActs k ⟨o, K, L⟩
      ⟨o.add (.timer K.nextTimer) k, (K.after delay job).1, (L.after delay job).1⟩ :=
  .single (.after hjob)

lemma disarm {timer : Nat} (htimer : o.of (.timer timer) = some k) :
    MachineActs k ⟨o, K, L⟩ ⟨o, K.disarm timer, L.disarm timer⟩ := .single (.disarm htimer)

end MachineActs

namespace MachineJoint

section

variable (h : MachineJoint k o K L)
include h

/-! ## What is read -/

lemma outcome? (hid : o.of (.future id) = some k) : L.outcome? id = K.outcome? id := by
  rw [Kernel.outcome?, h.alike.futures hid, Kernel.outcome?]

lemma isDone (hid : o.of (.future id) = some k) : L.isDone id = K.isDone id := by
  rw [Kernel.isDone, h.outcome? hid, Kernel.isDone]

lemma isCancelled (hid : o.of (.future id) = some k) : L.isCancelled id = K.isCancelled id := by
  rw [Kernel.isCancelled, h.outcome? hid, Kernel.isCancelled]

lemma wasAskedToCancel (hid : o.of (.future id) = some k) :
    L.wasAskedToCancel id = K.wasAskedToCancel id := by
  rw [Kernel.wasAskedToCancel, h.alike.futures hid, Kernel.wasAskedToCancel]

lemma mustCancel (hid : o.of (.future id) = some k) : L.mustCancel id = K.mustCancel id := by
  rw [Kernel.mustCancel, h.alike.futures hid, Kernel.mustCancel]

lemma has_outcome (hid : o.of (.future id) = some k) (ho : K.outcome? id = some out) :
    o.Has k (outcomeParts out) := by
  obtain ⟨F, hF, hFo⟩ := Option.bind_eq_some_iff.1 ho
  exact (h.owned.futures hid hF).outcome out hFo

/-- A number that is drawn becomes that of the project. -/
lemma of_next : (o.add (.future K.futures.size) k).of (.future K.futures.size) = some k :=
  Owners.of_add_future h.owned.none_future

lemma of_next_timer : (o.add (.timer K.nextTimer) k).of (.timer K.nextTimer) = some k :=
  Owners.of_add_timer h.owned.none_timer

/-! ## Futures -/

lemma settle (hid : o.of (.future id) = some k) (hout : o.Has k (outcomeParts out)) :
    MachineActs k ⟨o, K, L⟩ ⟨o, K.settle id out, L.settle id out⟩ := by
  unfold Kernel.settle
  rw [h.alike.futures hid]
  cases hF : K.futures[id]? with
  | none => exact .refl
  | some F =>
    dsimp only
    split
    · exact .refl
    · have hown := h.owned.futures hid hF
      refine (MachineActs.update hid fun G hG => ?_).trans
        (MachineActs.ready fun job hjob => ?_)
      · refine ⟨fun out' hout' => ?_, fun w hw => absurd hw List.not_mem_nil, ?_, hG.members⟩
        · cases hout'
          exact hout
        · rintro a ⟨⟩
      · obtain ⟨w, hw, rfl⟩ := List.mem_map.1 hjob
        exact Owners.has_cons.2 ⟨hid, Owners.has_cons.2 ⟨hown.watchers w hw, Owners.has_nil⟩⟩

lemma watch {w : Watcher Hook} (hid : o.of (.future id) = some k)
    (hw : o.of (watcherPart w) = some k) :
    MachineActs k ⟨o, K, L⟩ ⟨o, K.watch id w, L.watch id w⟩ := by
  unfold Kernel.watch
  rw [h.isDone hid]
  split
  · exact MachineActs.soon (Owners.has_cons.2 ⟨hid, Owners.has_cons.2 ⟨hw, Owners.has_nil⟩⟩)
  · refine MachineActs.update hid fun G hG => ⟨hG.outcome, fun w' hw' => ?_, hG.activity, hG.members⟩
    rcases List.mem_append.1 hw' with hw' | hw'
    · exact hG.watchers w' hw'
    · exact List.mem_singleton.1 hw' ▸ hw

lemma spawn {r : Routine} (hr : o.Has k (r.parts o.cwd)) :
    MachineActs k ⟨o, K, L⟩
      ⟨o.add (.future K.futures.size) k, (K.spawn r).1, (L.spawn r).1⟩ := by
  have hadd : MachineActs k ⟨o, K, L⟩ ⟨o.add (.future K.futures.size) k,
      (K.add { activity := some { body := some r } }).1,
      (L.add { activity := some { body := some r } }).1⟩ :=
    .single (.add (Owners.hasFuture_of_body hr))
  have hsoon : (L.spawn r).1 = (L.add { activity := some { body := some r } }).1.soon
      (.start K.futures.size) := by rw [← h.alike.size]; rfl
  rw [hsoon]
  exact hadd.trans (MachineActs.soon (Owners.has_cons.2 ⟨h.of_next, Owners.has_nil⟩))

end

/-! ## Cancelling -/

/-- A task keeps a request to cancel in mind. -/
lemma keep (hid : o.of (.future id) = some k) :
    MachineActs k ⟨o, K, L⟩
      ⟨o, K.update id fun f => { f with activity := f.activity.map fun a =>
          { a with mustCancel := true } },
        L.update id fun f => { f with activity := f.activity.map fun a =>
          { a with mustCancel := true } }⟩ :=
  MachineActs.change hid fun _ ha => ⟨ha.body, ha.waitingFor⟩

/-- A request to cancel is passed on to all members of a group. -/
lemma foldl_cancelWithin {fuel : Nat}
    (cancel : ∀ {K L : Machine} {m : Id}, MachineJoint k o K L → o.of (.future m) = some k →
      MachineActs k ⟨o, K, L⟩ ⟨o, (K.cancelWithin fuel m).1, (L.cancelWithin fuel m).1⟩ ∧
        (L.cancelWithin fuel m).2 = (K.cancelWithin fuel m).2)
    {members : List Id} (hmembers : ∀ m ∈ members, o.of (.future m) = some k) (asked : Bool)
    (h : MachineJoint k o K L) :
    let pass := fun (r : Machine × Bool) (m : Id) =>
      ((r.1.cancelWithin fuel m).1, r.2 || (r.1.cancelWithin fuel m).2)
    MachineActs k ⟨o, K, L⟩
        ⟨o, (members.foldl pass (K, asked)).1, (members.foldl pass (L, asked)).1⟩ ∧
      (members.foldl pass (L, asked)).2 = (members.foldl pass (K, asked)).2 := by
  intro pass
  induction members generalizing K L asked with
  | nil => exact ⟨.refl, rfl⟩
  | cons m ms ih =>
    obtain ⟨hacts, hflag⟩ := cancel h (hmembers m List.mem_cons_self)
    obtain ⟨hrest, hflags⟩ := ih (fun m' hm' => hmembers m' (List.mem_cons_of_mem _ hm'))
      (asked || (K.cancelWithin fuel m).2) (hacts.joint h)
    have hpass : pass (L, asked) m =
        ((L.cancelWithin fuel m).1, asked || (K.cancelWithin fuel m).2) := by
      simp only [pass, hflag]
    rw [List.foldl_cons, List.foldl_cons, hpass]
    exact ⟨hacts.trans hrest, hflags⟩

lemma cancelWithin (h : MachineJoint k o K L) (fuel : Nat) (hid : o.of (.future id) = some k) :
    MachineActs k ⟨o, K, L⟩ ⟨o, (K.cancelWithin fuel id).1, (L.cancelWithin fuel id).1⟩ ∧
      (L.cancelWithin fuel id).2 = (K.cancelWithin fuel id).2 := by
  induction fuel generalizing K L id with
  | zero => exact ⟨.refl, rfl⟩
  | succ fuel ih =>
    unfold Kernel.cancelWithin
    rw [h.alike.futures hid]
    cases hF : K.futures[id]? with
    | none => exact ⟨.refl, rfl⟩
    | some F =>
      have hown := h.owned.futures hid hF
      dsimp only
      split
      · exact ⟨.refl, rfl⟩
      cases ha : F.activity with
      | none =>
        dsimp only
        split
        · exact ⟨h.settle hid Owners.has_nil, rfl⟩
        · obtain ⟨hacts, hflag⟩ := foldl_cancelWithin ih hown.members false h
          rw [hflag]
          split
          · refine ⟨hacts.trans (MachineActs.update hid fun G hG => ?_), rfl⟩
            exact ⟨hG.outcome, hG.watchers, hG.activity, hG.members⟩
          · exact ⟨hacts, rfl⟩
      | some a =>
        have hactivity := hown.activity a ha
        obtain ⟨body, waitingFor, mustCancel, cancelRequests⟩ := a
        have hask := MachineActs.put (K := K) (L := L) hid
          (a := ⟨body, waitingFor, mustCancel, cancelRequests + 1⟩)
          ⟨hactivity.body, hactivity.waitingFor⟩
        cases waitingFor with
        | none => exact ⟨hask.trans (keep hid), rfl⟩
        | some target =>
          obtain ⟨hacts, hflag⟩ := ih (hask.joint h) (hactivity.waitingFor target rfl)
          dsimp only at hacts hflag ⊢
          rw [hflag]
          split
          · exact ⟨hask.trans hacts, rfl⟩
          · exact ⟨(hask.trans hacts).trans (keep hid), rfl⟩

lemma cancel (h : MachineJoint k o K L) (hid : o.of (.future id) = some k) :
    MachineActs k ⟨o, K, L⟩ ⟨o, (K.cancel id).1, (L.cancel id).1⟩ ∧
      (L.cancel id).2 = (K.cancel id).2 := by
  rw [Kernel.cancel, Kernel.cancel, h.alike.size]
  exact h.cancelWithin _ hid

/-! ## Waiting and ending -/

lemma suspend (h : MachineJoint k o K L) {r : Routine} {future : Id}
    (hid : o.of (.future id) = some k) (hr : o.Has k (r.parts o.cwd))
    (hfuture : o.of (.future future) = some k) :
    MachineActs k ⟨o, K, L⟩ ⟨o, K.suspend id r future, L.suspend id r future⟩ := by
  have hwait : MachineActs k ⟨o, K, L⟩ ⟨o, K.waitFor id r future, L.waitFor id r future⟩ := by
    have hstand := MachineActs.change (K := K) (L := L)
      (g := fun a => { a with body := some r, waitingFor := some future }) hid fun a ha => by
        refine ⟨fun r' hr' => ?_, fun t ht => ?_⟩
        · cases hr'
          exact hr
        · cases ht
          exact hfuture
    exact hstand.trans ((hstand.joint h).watch hfuture hid)
  rw [Kernel.suspend_eq, Kernel.suspend_eq, h.mustCancel hid]
  split
  · obtain ⟨hcancel, hflag⟩ := (hwait.joint h).cancel hfuture
    rw [hflag]
    split
    · refine (hwait.trans hcancel).trans ?_
      exact MachineActs.change hid fun a ha => ⟨ha.body, ha.waitingFor⟩
    · exact hwait.trans hcancel
  · exact hwait

lemma finish (h : MachineJoint k o K L) (hid : o.of (.future id) = some k)
    (hout : o.Has k (outcomeParts out)) :
    MachineActs k ⟨o, K, L⟩ ⟨o, K.finish id out, L.finish id out⟩ := by
  rw [Kernel.finish_eq, Kernel.finish_eq, h.mustCancel hid]
  cases out with
  | value v =>
    dsimp only
    split
    · exact h.settle hid Owners.has_nil
    · exact h.settle hid hout
  | _ => exact h.settle hid hout

/-! ## Jobs -/

lemma wake (h : MachineJoint k o K L) (hid : o.of (.future id) = some k)
    (hout : o.Has k (outcomeParts out)) :
    MachineYields k o K L (activationParts o.cwd) (K.wake id out) (L.wake id out) := by
  unfold Kernel.wake
  rw [h.alike.futures hid]
  split
  · next _ _ _ a _ _ _ hF =>
    have hactivity := (h.owned.futures hid hF).activity a rfl
    cases hbody : a.body with
    | none => exact ⟨o, .refl, rfl, Owners.has_nil⟩
    | some r =>
      refine ⟨o, MachineActs.put hid ⟨fun _ hb => ?_, fun _ ht => ?_⟩, rfl, ?_⟩
      · cases hb
      · cases ht
      · refine Owners.has_cons.2 ⟨hid, Owners.has_append.2 ⟨hactivity.body r hbody, ?_⟩⟩
        split
        · exact Owners.has_nil
        · exact hout
  · exact ⟨o, .refl, rfl, Owners.has_nil⟩

lemma start (h : MachineJoint k o K L) (hid : o.of (.future id) = some k) :
    MachineYields k o K L (activationParts o.cwd) (K.start id) (L.start id) := by
  unfold Kernel.start
  rw [h.alike.futures hid]
  split
  · next _ _ _ a _ _ _ hF =>
    have hactivity := (h.owned.futures hid hF).activity a rfl
    cases hbody : a.body with
    | none => exact ⟨o, .refl, rfl, Owners.has_nil⟩
    | some r =>
      dsimp only
      split
      · exact ⟨o, h.settle hid Owners.has_nil, rfl, Owners.has_nil⟩
      · refine ⟨o, MachineActs.put hid ⟨fun _ hb => ?_, hactivity.waitingFor⟩, rfl, ?_⟩
        · cases hb
        · exact Owners.has_cons.2 ⟨hid, hactivity.body r hbody⟩
  · exact ⟨o, .refl, rfl, Owners.has_nil⟩

/-- A report is counted. -/
lemma lower (hid : o.of (.future id) = some k) :
    MachineActs k ⟨o, K, L⟩ ⟨o, K.update id fun f => { f with awaited := f.awaited - 1 },
      L.update id fun f => { f with awaited := f.awaited - 1 }⟩ :=
  MachineActs.update hid fun _ hF => ⟨hF.outcome, hF.watchers, hF.activity, hF.members⟩

lemma noteMember (h : MachineJoint k o K L) (hid : o.of (.future id) = some k)
    (hout : o.Has k (outcomeParts out)) :
    MachineActs k ⟨o, K, L⟩ ⟨o, K.noteMember id out, L.noteMember id out⟩ := by
  cases out with
  | value v =>
    unfold Kernel.noteMember
    rw [h.alike.futures hid]
    cases hF : K.futures[id]? with
    | none => exact .refl
    | some F =>
      dsimp only
      split
      · exact .refl
      split
      · refine (lower hid).trans (((lower hid).joint h).settle hid ?_)
        split <;> exact Owners.has_nil
      · exact lower hid
  | _ => exact h.settle hid hout

lemma count (h : MachineJoint k o K L) (hid : o.of (.future id) = some k) :
    MachineActs k ⟨o, K, L⟩ ⟨o, K.count id, L.count id⟩ := by
  unfold Kernel.count
  rw [h.alike.futures hid]
  cases hF : K.futures[id]? with
  | none => exact .refl
  | some F =>
    dsimp only
    split
    · exact (lower hid).trans (((lower hid).joint h).settle hid Owners.has_nil)
    · exact lower hid

/-- A job of the project asks for something that is about the project. -/
lemma perform (h : MachineJoint k o K L) {job : Job Hook} (hjob : o.Has k (jobParts job)) :
    MachineYields k o K L (activationParts o.cwd) (K.perform job) (L.perform job) := by
  cases job with
  | start t => exact h.start (Owners.has_cons.1 hjob).1
  | proceed t => exact h.wake (Owners.has_cons.1 hjob).1 Owners.has_nil
  | complete t =>
    exact ⟨o, h.settle (Owners.has_cons.1 hjob).1 Owners.has_nil, rfl, Owners.has_nil⟩
  | hook hk => exact ⟨o, .refl, rfl, hjob⟩
  | notify w source =>
    obtain ⟨hsource, hw⟩ := Owners.has_cons.1 hjob
    replace hw := (Owners.has_cons.1 hw).1
    unfold Kernel.perform
    dsimp only
    rw [h.outcome? hsource]
    cases hout : K.outcome? source with
    | none => exact ⟨o, .refl, rfl, Owners.has_nil⟩
    | some out =>
      have hparts := h.has_outcome hsource hout
      cases w with
      | wake t => exact h.wake hw hparts
      | relay t => exact ⟨o, h.settle hw hparts, rfl, Owners.has_nil⟩
      | release t => exact ⟨o, h.settle hw Owners.has_nil, rfl, Owners.has_nil⟩
      | countdown t => exact ⟨o, h.count hw, rfl, Owners.has_nil⟩
      | gather t => exact ⟨o, h.noteMember hw hparts, rfl, Owners.has_nil⟩
      | hook hk =>
        exact ⟨o, .refl, rfl, Owners.has_cons.2 ⟨hw, Owners.has_cons.2 ⟨hsource, Owners.has_nil⟩⟩⟩

/-! ## Drawing numbers -/

lemma fresh_snd (h : MachineJoint k o K L) : L.fresh.2 = K.fresh.2 := h.alike.size

lemma spawn_snd (h : MachineJoint k o K L) (r : Routine) : (L.spawn r).2 = (K.spawn r).2 :=
  h.alike.size

lemma after_snd (h : MachineJoint k o K L) (delay : Float) (job : Job Hook) :
    (L.after delay job).2 = (K.after delay job).2 := h.alike.nextTimer

/-! ## Deadlines -/

lemma abandon (h : MachineJoint k o K L) {task : Id} (timer : Option Nat) (interrupted : Bool)
    (htask : o.of (.future task) = some k) (htimer : o.Has k (timer.toList.map .timer)) :
    MachineYields k o K L deadlineStepParts (Deadline.abandon K task timer interrupted)
      (Deadline.abandon L task timer interrupted) := by
  have hfresh := MachineActs.fresh (k := k) (o := o) (K := K) (L := L)
  have hgrows := hfresh.grows
  have hwatch := (hfresh.joint h).watch (w := .release K.fresh.2) (hgrows.old htask) h.of_next
  obtain ⟨hcancel, -⟩ := (hwatch.joint (hfresh.joint h)).cancel (hgrows.old htask)
  unfold Deadline.abandon
  dsimp only
  rw [h.fresh_snd]
  refine ⟨_, (hfresh.trans hwatch).trans hcancel, rfl, ?_⟩
  exact Owners.has_cons.2 ⟨h.of_next, Owners.has_cons.2 ⟨hgrows.old htask,
    Owners.has_cons.2 ⟨h.of_next, hgrows.has htimer⟩⟩⟩

lemma beginDeadline (h : MachineJoint k o K L) (timeout : Float) {r : Routine}
    (hr : o.Has k (r.parts o.cwd)) :
    MachineYields k o K L deadlineStepParts (Deadline.begin K timeout r)
      (Deadline.begin L timeout r) := by
  unfold Deadline.begin
  split
  · have hspawn := h.spawn hr
    have hjoint := hspawn.joint h
    dsimp only
    rw [h.spawn_snd]
    exact (hjoint.abandon none false h.of_next Owners.has_nil).after hspawn
  · have hfresh := MachineActs.fresh (k := k) (o := o) (K := K) (L := L)
    have hfreshed := hfresh.joint h
    have hafter := MachineActs.after (K := K.fresh.1) (L := L.fresh.1) timeout (.complete K.fresh.2)
      (Owners.has_cons.2 ⟨h.of_next, Owners.has_nil⟩)
    have harmed := hafter.joint hfreshed
    have hspawn := harmed.spawn ((hfresh.trans hafter).grows.has_parts hr)
    have hspawned := hspawn.joint harmed
    have hgrows := (hafter.trans hspawn).grows
    have hwatch := hspawned.watch (w := .release K.fresh.2) harmed.of_next (hgrows.old h.of_next)
    dsimp only
    rw [h.fresh_snd, hfreshed.after_snd, harmed.spawn_snd]
    refine ⟨_, ((hfresh.trans hafter).trans hspawn).trans hwatch, rfl, ?_⟩
    exact Owners.has_cons.2 ⟨hgrows.old h.of_next, Owners.has_cons.2 ⟨harmed.of_next,
      Owners.has_cons.2 ⟨hgrows.old h.of_next,
        Owners.has_cons.2 ⟨hspawn.grows.old hfreshed.of_next_timer, Owners.has_nil⟩⟩⟩⟩

lemma conclude (h : MachineJoint k o K L) {task : Id} (htask : o.of (.future task) = some k) :
    Deadline.conclude L task = Deadline.conclude K task ∧
      o.Has k (deadlineStepParts (Deadline.conclude K task)) := by
  unfold Deadline.conclude
  rw [h.outcome? htask]
  cases hout : K.outcome? task with
  | none => exact ⟨rfl, Owners.has_nil⟩
  | some out => exact ⟨rfl, h.has_outcome htask hout⟩

lemma disarmDeadline {timer : Option Nat} (htimer : o.Has k (timer.toList.map .timer)) :
    MachineActs k ⟨o, K, L⟩ ⟨o, Deadline.disarm K timer, Deadline.disarm L timer⟩ := by
  cases timer with
  | none => exact .refl
  | some t => exact MachineActs.disarm (Owners.has_cons.1 htimer).1

lemma resumeDeadline (h : MachineJoint k o K L) {d : Deadline} (hd : o.Has k (deadlineParts d))
    (input : Outcome Value Failure) :
    MachineYields k o K L deadlineStepParts (Deadline.resume K d input)
      (Deadline.resume L d input) := by
  cases d with
  | waiting task waiter timer =>
    obtain ⟨htask, hd⟩ := Owners.has_cons.1 hd
    have htimer := (Owners.has_cons.1 hd).2
    unfold Deadline.resume
    dsimp only
    rw [h.isDone htask]
    split
    · rw [(h.conclude htask).1]
      exact ⟨o, MachineActs.disarm (Owners.has_cons.1 htimer).1, rfl, (h.conclude htask).2⟩
    · have hunwatch := MachineActs.unwatch (K := K) (L := L) htask waiter
      exact ((hunwatch.joint h).abandon (some timer) _ htask htimer).after hunwatch
  | cancelling task waiter timer interrupted =>
    obtain ⟨htask, hd⟩ := Owners.has_cons.1 hd
    have htimer := (Owners.has_cons.1 hd).2
    have hunwatch := MachineActs.unwatch (K := K) (L := L) htask waiter
    have hacts := hunwatch.trans (disarmDeadline htimer)
    have hjoint := hacts.joint h
    unfold Deadline.resume
    dsimp only
    rw [hjoint.outcome? htask]
    split
    · exact ⟨o, hacts, rfl, Owners.has_nil⟩
    · exact ⟨o, hacts, rfl, Owners.has_nil⟩
    · next hout => exact ⟨o, hacts, rfl, hjoint.has_outcome htask hout⟩
    · exact ⟨o, hacts, rfl, Owners.has_nil⟩
    · exact ⟨o, hacts, rfl, Owners.has_nil⟩

/-! ## Streams -/

/-- What an operation makes of a stream. -/
lemma notify (h : MachineJoint k o K L) (st : Stream Failure) (hst : o.HasStream k st)
    (hout : o.Has k (outcomeParts out)) :
    MachineActs k ⟨o, K, L⟩ ⟨o, (st.notify K out).1, (st.notify L out).1⟩ ∧
      (st.notify L out).2 = (st.notify K out).2 ∧ o.HasStream k (st.notify K out).2 := by
  obtain ⟨buffer, ended, failure, waiter⟩ := st
  cases waiter with
  | none => exact ⟨.refl, rfl, hst⟩
  | some w => exact ⟨h.settle (hst.waiter w rfl) hout, rfl, ⟨fun _ hw => by cases hw⟩⟩

lemma feed (h : MachineJoint k o K L) {st : Stream Failure} (hst : o.HasStream k st)
    (data : Bytes) :
    MachineActs k ⟨o, K, L⟩ ⟨o, (st.feed K data).1, (st.feed L data).1⟩ ∧
      (st.feed L data).2 = (st.feed K data).2 ∧ o.HasStream k (st.feed K data).2 := by
  unfold Stream.feed
  split
  · exact ⟨.refl, rfl, hst⟩
  · exact h.notify { st with buffer := st.buffer ++ data } ⟨hst.waiter⟩ Owners.has_nil

lemma finishStream (h : MachineJoint k o K L) {st : Stream Failure} (hst : o.HasStream k st) :
    MachineActs k ⟨o, K, L⟩ ⟨o, (st.finish K).1, (st.finish L).1⟩ ∧
      (st.finish L).2 = (st.finish K).2 ∧ o.HasStream k (st.finish K).2 :=
  h.notify { st with ended := true } ⟨hst.waiter⟩ Owners.has_nil

/-- A task waits for bytes. -/
lemma await (h : MachineJoint k o K L) (st : Stream Failure) :
    MachineActs k ⟨o, K, L⟩
        ⟨o.add (.future K.futures.size) k, (st.await K).1, (st.await L).1⟩ ∧
      (st.await L).2 = (st.await K).2 ∧
      (o.add (.future K.futures.size) k).HasStream k (st.await K).2.1 ∧
      (o.add (.future K.futures.size) k).of (.future (st.await K).2.2) = some k := by
  have hself := h.of_next
  unfold Stream.await
  dsimp only
  rw [h.fresh_snd]
  refine ⟨MachineActs.fresh, rfl, ⟨fun w hw => ?_⟩, hself⟩
  cases hw
  exact hself

end MachineJoint

end SuggestBridge.Supervisor
