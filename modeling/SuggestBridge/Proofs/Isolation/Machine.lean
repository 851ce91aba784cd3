import SuggestBridge.Proofs.Isolation.Owners
import SuggestBridge.Proofs.Task.Heap

/-!
# What a project does to a kernel

A step of a project is looked at in two kernels at once, which are alike as far as the project is
concerned.  `MachineAct` lists the small things that such a step does to both; all of them are about
futures, timers and jobs of the project.  So the two kernels stay alike, and what belongs to another
project stays as it is.
-/

namespace SuggestBridge.Supervisor

open SuggestBridge.Task

/-- Two states of one kind, and a book for both. -/
structure Duo (σ : Type) where
  owners : Owners
  left : σ
  right : σ

/-- The same small thing is done to two kernels, on behalf of a project. -/
inductive MachineAct (k : Text) : Duo Machine → Duo Machine → Prop where
  | update {o : Owners} {K L : Machine} {id : Id}
      {f : Future Routine Hook Value Failure → Future Routine Hook Value Failure}
      (own : o.of (.future id) = some k) (keeps : ∀ F, o.HasFuture k F → o.HasFuture k (f F)) :
      MachineAct k ⟨o, K, L⟩ ⟨o, K.update id f, L.update id f⟩
  | ready {o : Owners} {K L : Machine} {jobs : List (Job Hook)}
      (own : ∀ job ∈ jobs, o.Has k (jobParts job)) :
      MachineAct k ⟨o, K, L⟩
        ⟨o, { K with ready := K.ready ++ jobs }, { L with ready := L.ready ++ jobs }⟩
  | add {o : Owners} {K L : Machine} {F : Future Routine Hook Value Failure}
      (own : o.HasFuture k F) :
      MachineAct k ⟨o, K, L⟩ ⟨o.add (.future K.futures.size) k, (K.add F).1, (L.add F).1⟩
  | after {o : Owners} {K L : Machine} {delay : Float} {job : Job Hook}
      (own : o.Has k (jobParts job)) :
      MachineAct k ⟨o, K, L⟩
        ⟨o.add (.timer K.nextTimer) k, (K.after delay job).1, (L.after delay job).1⟩
  | disarm {o : Owners} {K L : Machine} {timer : Nat} (own : o.of (.timer timer) = some k) :
      MachineAct k ⟨o, K, L⟩ ⟨o, K.disarm timer, L.disarm timer⟩

/-- Any number of them. -/
def MachineActs (k : Text) : Duo Machine → Duo Machine → Prop :=
  Relation.ReflTransGen (MachineAct k)

/-- Two kernels are alike for a project, and have drawn the same numbers. -/
structure MachineAlike (k : Text) (o : Owners) (K L : Machine) : Prop where
  now : L.now = K.now
  size : L.futures.size = K.futures.size
  nextTimer : L.nextTimer = K.nextTimer
  futures : ∀ {i}, o.of (.future i) = some k → L.futures[i]? = K.futures[i]?

/-- The kernel `L` has nothing to do but what `K` has to do for the project `q`. -/
structure MachineTwin (q : Text) (o : Owners) (K L : Machine) : Prop where
  now : L.now = K.now
  futures : ∀ {i}, o.of (.future i) = some q → L.futures[i]? = K.futures[i]?
  ready : L.ready = K.ready.filter fun job => o.of (jobPart job) = some q
  timers : L.timers.toList.Perm (K.timers.toList.filter fun t => o.of (.timer t.id) = some q)

variable {k q : Text} {o o' : Owners} {K K' L L' : Machine}

lemma MachineAlike.refl (k : Text) (o : Owners) (K : Machine) : MachineAlike k o K K :=
  ⟨rfl, rfl, rfl, fun _ => rfl⟩

namespace MachineOwned

variable (h : MachineOwned o K)
include h

lemma lt {i : Id} (hi : o.of (.future i) = some k) : i < K.futures.size :=
  (h.future_iff i).1 (by rw [hi]; rfl)

lemma none_future : o.of (.future K.futures.size) = none := by
  by_contra hsome
  obtain ⟨j, hj⟩ := Option.ne_none_iff_exists'.1 hsome
  exact absurd (h.lt hj) (Nat.lt_irrefl _)

lemma none_timer : o.of (.timer K.nextTimer) = none := by
  by_contra hsome
  exact absurd ((h.timer_iff _).1 (Option.isSome_iff_ne_none.2 hsome)) (Nat.lt_irrefl _)

lemma update {id : Id} {f : Future Routine Hook Value Failure → Future Routine Hook Value Failure}
    (hid : o.of (.future id) = some k) (hkeeps : ∀ F, o.HasFuture k F → o.HasFuture k (f F)) :
    MachineOwned o (K.update id f) := by
  refine { h with future_iff := fun i => ?_, futures := fun {i j F} hi hF => ?_ }
  · rw [h.future_iff, Kernel.update, Array.size_modify]
  · rw [Kernel.getElem?_update] at hF
    split at hF
    · next heq =>
      subst heq
      cases hi.symm.trans hid
      obtain ⟨F₀, hF₀, rfl⟩ := Option.map_eq_some_iff.1 hF
      exact hkeeps F₀ (h.futures hi hF₀)
    · exact h.futures hi hF

lemma withReady {jobs : List (Job Hook)} (hjobs : ∀ job ∈ jobs, o.Has k (jobParts job)) :
    MachineOwned o { K with ready := K.ready ++ jobs } := by
  refine { h with ready := fun job hjob => ?_ }
  rcases List.mem_append.1 hjob with hjob | hjob
  · exact h.ready job hjob
  · exact ⟨k, hjobs job hjob⟩

lemma add {F : Future Routine Hook Value Failure} (hF : o.HasFuture k F) :
    MachineOwned (o.add (.future K.futures.size) k) (K.add F).1 := by
  have hgrows := Owners.Grows.add o (.future K.futures.size) k
  refine
    { future_iff := fun i => ?_, timer_iff := fun i => ?_, futures := fun {i j G} hi hG => ?_
      ready := fun job hjob => (h.ready job hjob).imp fun _ => hgrows.has
      timers := fun t ht => (h.timers t ht).imp fun _ => hgrows.has }
  · refine Owners.isSome_numbered_add.trans ?_
    rw [Kernel.size_add, Nat.lt_succ_iff_lt_or_eq, ← h.future_iff i, Part.future.injEq]
    exact Iff.rfl
  · refine Owners.isSome_numbered_add.trans ?_
    simp only [reduceCtorEq, or_false]
    exact h.timer_iff i
  · rw [Kernel.getElem?_add] at hG
    split at hG
    · next heq =>
      cases hG
      rcases Owners.of_add hi with hi | ⟨-, rfl⟩
      · exact absurd heq (Nat.ne_of_lt (h.lt hi))
      · exact hgrows.hasFuture hF
    · next hne =>
      rcases Owners.of_add hi with hi | ⟨heq, -⟩
      · exact hgrows.hasFuture (h.futures hi hG)
      · cases heq
        exact absurd rfl hne

lemma after {delay : Float} {job : Job Hook} (hjob : o.Has k (jobParts job)) :
    MachineOwned (o.add (.timer K.nextTimer) k) (K.after delay job).1 := by
  have hgrows := Owners.Grows.add o (.timer K.nextTimer) k
  refine
    { future_iff := fun i => ?_, timer_iff := fun i => ?_, futures := fun {i j G} hi hG => ?_
      ready := fun job hjob => (h.ready job hjob).imp fun _ => hgrows.has
      timers := fun t ht => ?_ }
  · refine Owners.isSome_numbered_add.trans ?_
    simp only [reduceCtorEq, or_false]
    exact h.future_iff i
  · refine Owners.isSome_numbered_add.trans ?_
    change _ ↔ i < K.nextTimer + 1
    rw [Nat.lt_succ_iff_lt_or_eq, ← h.timer_iff i, Part.timer.injEq]
    exact Iff.rfl
  · rcases Owners.of_add hi with hi | ⟨heq, -⟩
    · exact hgrows.hasFuture (h.futures hi hG)
    · cases heq
  · rcases Timers.mem_push ht with ht | rfl
    · exact (h.timers t ht).imp fun _ => hgrows.has
    · exact ⟨k, Owners.has_cons.2 ⟨Owners.of_add_timer h.none_timer, hgrows.has hjob⟩⟩

lemma disarm {timer : Nat} : MachineOwned o (K.disarm timer) := by
  refine { h with timers := fun t ht => ?_ }
  obtain ⟨u, hu, rfl⟩ := Array.mem_map.1 ht
  obtain ⟨j, hj⟩ := h.timers u hu
  refine ⟨j, ?_⟩
  split <;> exact hj

end MachineOwned

namespace MachineAct

lemma grows (h : MachineAct k ⟨o, K, L⟩ ⟨o', K', L'⟩) : Owners.Grows k o o' := by
  cases h with
  | add => exact .add _ _ _
  | after => exact .add _ _ _
  | _ => exact .refl

lemma owned (h : MachineAct k ⟨o, K, L⟩ ⟨o', K', L'⟩) (hP : MachineOwned o K) :
    MachineOwned o' K' := by
  cases h with
  | update hid hkeeps => exact hP.update hid hkeeps
  | ready hjobs => exact hP.withReady hjobs
  | add hF => exact hP.add hF
  | after hjob => exact hP.after hjob
  | disarm => exact hP.disarm

/-- What is done to both keeps them alike. -/
lemma alike (h : MachineAct k ⟨o, K, L⟩ ⟨o', K', L'⟩) (hP : MachineAlike k o K L) :
    MachineAlike k o' K' L' := by
  cases h with
  | @update _ _ _ id f hid hf =>
    refine { hP with size := ?_, futures := fun {i} hi => ?_ }
    · rw [Kernel.update, Kernel.update, Array.size_modify, Array.size_modify, hP.size]
    · rw [Kernel.getElem?_update, Kernel.getElem?_update, hP.futures hi]
  | ready => exact { hP with }
  | @add _ _ _ F hF =>
    refine { hP with size := ?_, futures := fun {i} hi => ?_ }
    · rw [Kernel.size_add, Kernel.size_add, hP.size]
    · rw [Kernel.getElem?_add, Kernel.getElem?_add, hP.size]
      split
      · rfl
      · next hne =>
        rcases Owners.of_add hi with hi | ⟨heq, -⟩
        · exact hP.futures hi
        · cases heq
          exact absurd rfl hne
  | @after _ _ _ delay job hjob =>
    refine { hP with nextTimer := congrArg (· + 1) hP.nextTimer, futures := fun {i} hi => ?_ }
    rcases Owners.of_add hi with hi | ⟨heq, -⟩
    · exact hP.futures hi
    · cases heq
  | disarm => exact { hP with }

lemma filter_disarm {l : List (Timer (Job Hook))} {timer : Nat} (f : Nat → Bool) :
    (l.map fun t => if t.id = timer then { t with cancelled := true } else t).filter
        (fun t => f t.id) =
      (l.filter fun t => f t.id).map
        fun t => if t.id = timer then { t with cancelled := true } else t := by
  rw [List.filter_map]
  congr 1
  refine List.filter_congr fun t _ => ?_
  simp only [Function.comp]
  split <;> rfl

/-- A project that has a kernel to itself does there what it does among others. -/
lemma twin (h : MachineAct k ⟨o, K, L⟩ ⟨o', K', L'⟩) (hP : MachineOwned o K)
    (halike : MachineAlike k o K L) (htwin : MachineTwin k o K L) : MachineTwin k o' K' L' := by
  have hgrows := h.grows
  have hfutures : ∀ {i}, o'.of (.future i) = some k → L'.futures[i]? = K'.futures[i]? :=
    (h.alike halike).futures
  have hready : (K.ready.filter fun job => o'.of (jobPart job) = some k) =
      K.ready.filter fun job => o.of (jobPart job) = some k := by
    refine List.filter_congr fun job hjob => ?_
    obtain ⟨j, hj⟩ := hP.ready job hjob
    exact decide_eq_decide.2 (hgrows.of_iff_of_has (hj _ (jobPart_mem job)))
  have htimers : (K.timers.toList.filter fun t => o'.of (.timer t.id) = some k) =
      K.timers.toList.filter fun t => o.of (.timer t.id) = some k := by
    refine List.filter_congr fun t ht => ?_
    obtain ⟨j, hj⟩ := hP.timers t (Array.mem_toList_iff.1 ht)
    exact decide_eq_decide.2 (hgrows.of_iff_of_has (hj _ List.mem_cons_self))
  have hready' := htwin.ready.trans hready.symm
  have htimers' := htwin.timers.trans (.of_eq htimers.symm)
  cases h with
  | update => exact ⟨htwin.now, hfutures, hready', htimers'⟩
  | @ready _ _ _ jobs hjobs =>
    refine ⟨htwin.now, hfutures, ?_, htimers'⟩
    have hall : (jobs.filter fun job => o.of (jobPart job) = some k) = jobs :=
      List.filter_eq_self.2 fun job hjob =>
        decide_eq_true (hjobs job hjob _ (jobPart_mem job))
    rw [List.filter_append, hall, hready']
  | add => exact ⟨htwin.now, hfutures, hready', htimers'⟩
  | @after _ _ _ delay job hjob =>
    refine ⟨htwin.now, hfutures, hready', ?_⟩
    have hown : (o.add (.timer K.nextTimer) k).of (.timer K.nextTimer) = some k :=
      Owners.of_add_timer hP.none_timer
    refine (Timers.perm_push _ _).trans (.trans ?_ ((Timers.perm_push _ _).filter _).symm)
    rw [halike.now, halike.nextTimer]
    refine (htimers'.cons _).trans (.of_eq (List.filter_cons_of_pos ?_).symm)
    exact decide_eq_true hown
  | @disarm _ _ _ timer htimer =>
    refine ⟨htwin.now, hfutures, hready', ?_⟩
    have hmap := htimers'.map fun t => if t.id = timer then { t with cancelled := true } else t
    refine (List.Perm.of_eq ?_).trans (hmap.trans (.of_eq ?_))
    · exact Array.toList_map
    · refine (filter_disarm fun i => decide (o.of (.timer i) = some k)).symm.trans ?_
      exact congrArg (List.filter _) Array.toList_map.symm

/-- What is done on behalf of one project leaves alone what belongs to another one. -/
lemma aside (h : MachineAct k ⟨o, K, L⟩ ⟨o', K', L'⟩) (hne : q ≠ k) (hP : MachineOwned o K)
    {M : Machine} (htwin : MachineTwin q o K M) : MachineTwin q o' K' M := by
  have hiff : ∀ {x}, o'.of x = some q ↔ o.of x = some q := h.grows.of_iff hne
  have hother : ∀ {x}, o.of x = some k → ¬o.of x = some q := fun hk hq =>
    hne (Option.some.inj (hq.symm.trans hk))
  have hready := htwin.ready
  have htimers := htwin.timers
  have hfutures : ∀ {i}, o'.of (.future i) = some q → M.futures[i]? = K.futures[i]? :=
    fun hi => htwin.futures (hiff.1 hi)
  simp only [← hiff] at hready htimers
  cases h with
  | @update _ _ _ id f hid hf =>
    refine ⟨htwin.now, fun {i} hi => ?_, hready, htimers⟩
    have hdiffer : i ≠ id := by
      rintro rfl
      exact hother hid hi
    rw [hfutures hi, Kernel.getElem?_update, if_neg hdiffer.symm]
  | @ready _ _ _ jobs hjobs =>
    refine ⟨htwin.now, hfutures, ?_, htimers⟩
    have hnone : (jobs.filter fun job => o.of (jobPart job) = some q) = [] :=
      List.filter_eq_nil_iff.2 fun job hjob hown =>
        hother (hjobs job hjob _ (jobPart_mem job)) (of_decide_eq_true hown)
    rw [List.filter_append, hnone, List.append_nil, hready]
  | @add _ _ _ F hF =>
    refine ⟨htwin.now, fun {i} hi => ?_, hready, htimers⟩
    have hlt : i < K.futures.size := hP.lt (hiff.1 hi)
    rw [hfutures hi, Kernel.getElem?_add, if_neg (Nat.ne_of_lt hlt)]
  | @after _ _ _ delay job hjob =>
    refine ⟨htwin.now, hfutures, hready, htimers.trans (.symm ?_)⟩
    refine ((Timers.perm_push _ _).filter _).trans (.of_eq (List.filter_cons_of_neg ?_))
    rw [decide_eq_true_iff]
    intro hown
    exact hne (Option.some.inj (hown.symm.trans (Owners.of_add_timer hP.none_timer)))
  | @disarm _ _ _ timer htimer =>
    refine ⟨htwin.now, hfutures, hready, htimers.trans (.of_eq (.symm ?_))⟩
    refine (congrArg (List.filter _) Array.toList_map).trans ?_
    refine (filter_disarm fun i => decide (o.of (.timer i) = some q)).trans ?_
    refine (List.map_congr_left fun t ht => ?_).trans (List.map_id _)
    have hown : o.of (.timer t.id) = some q := of_decide_eq_true (List.mem_filter.1 ht).2
    rw [if_neg]
    · rfl
    · intro heq
      exact hother htimer (heq ▸ hown)

end MachineAct

/-- A kernel in order, and another one that is like it for a project. -/
structure MachineJoint (k : Text) (o : Owners) (K L : Machine) : Prop where
  owned : MachineOwned o K
  alike : MachineAlike k o K L

namespace MachineActs

variable {P P' P'' : Duo Machine}

@[refl] lemma refl : MachineActs k P P := Relation.ReflTransGen.refl

lemma single (h : MachineAct k P P') : MachineActs k P P' := Relation.ReflTransGen.single h

lemma trans (h : MachineActs k P P') (h' : MachineActs k P' P'') : MachineActs k P P'' :=
  Relation.ReflTransGen.trans h h'

/-- What every small thing keeps is kept by many of them. -/
lemma keeps {motive : Owners → Machine → Machine → Prop}
    (h : MachineActs k ⟨o, K, L⟩ ⟨o', K', L'⟩)
    (hstep : ∀ {o o' K K' L L'}, MachineAct k ⟨o, K, L⟩ ⟨o', K', L'⟩ → motive o K L →
      motive o' K' L') (hstart : motive o K L) : motive o' K' L' := by
  suffices hduo : ∀ {P P' : Duo Machine}, MachineActs k P P' →
      motive P.owners P.left P.right → motive P'.owners P'.left P'.right from hduo h hstart
  intro P P' hacts hP
  induction hacts with
  | refl => exact hP
  | tail _ hact ih => exact hstep hact ih

lemma grows (h : MachineActs k ⟨o, K, L⟩ ⟨o', K', L'⟩) : Owners.Grows k o o' :=
  h.keeps (motive := fun o' _ _ => Owners.Grows k o o') (fun hact hg => hg.trans hact.grows) .refl

lemma joint (h : MachineActs k ⟨o, K, L⟩ ⟨o', K', L'⟩) (hP : MachineJoint k o K L) :
    MachineJoint k o' K' L' :=
  h.keeps (motive := MachineJoint k)
    (fun hact hj => ⟨hact.owned hj.owned, hact.alike hj.alike⟩) hP

lemma twin (h : MachineActs k ⟨o, K, L⟩ ⟨o', K', L'⟩) (hP : MachineJoint k o K L)
    (htwin : MachineTwin k o K L) : MachineTwin k o' K' L' :=
  (h.keeps (motive := fun o K L => MachineJoint k o K L ∧ MachineTwin k o K L)
    (fun hact hj => ⟨⟨hact.owned hj.1.owned, hact.alike hj.1.alike⟩,
      hact.twin hj.1.owned hj.1.alike hj.2⟩) ⟨hP, htwin⟩).2

lemma aside (h : MachineActs k ⟨o, K, L⟩ ⟨o', K', L'⟩) (hP : MachineJoint k o K L) (hne : q ≠ k)
    {M : Machine} (htwin : MachineTwin q o K M) : MachineTwin q o' K' M :=
  (h.keeps (motive := fun o K L => MachineJoint k o K L ∧ MachineTwin q o K M)
    (fun hact hj => ⟨⟨hact.owned hj.1.owned, hact.alike hj.1.alike⟩,
      hact.aside hne hj.1.owned hj.2⟩) ⟨hP, htwin⟩).2

end MachineActs

end SuggestBridge.Supervisor
