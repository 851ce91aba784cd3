import SuggestBridge.Proofs.Peer.Order

/-!
# Events keep the order

An event asks at most one task to cancel, settles futures that are no tasks, and changes the
connection (`Orderly.event`).  With the jobs this makes every run orderly (`orderly_of_run`), and
what has happened stays so (`Orderly.persists`).
-/

namespace SuggestBridge.Exchange

open Peer (History Ledger outcomesOf)
open SuggestBridge.Task (Outcome)
open SuggestBridge.Task.Kernel (Settled Noted)

variable {x y : Exchange} {h : History}

/-! ## The rule for events -/

section Event

variable {k : Task.Kernel Routine Empty Sexp Failure} {t : Task.Id}
  {os : List (Task.Id × Outcome Sexp Failure)}

/-- Tasks stay as they are, save that one may have been asked to cancel. -/
lemma stayed_of_noted (noted : Noted x.kernel k t)
    (asked : k = x.kernel ∨ x.connection.listener ≠ some t ∨ y.connection.peer.closed = true)
    (settled : Settled k y.kernel os) {u : Task.Id} {b : Task.Activity Routine}
    (hb : y.kernel.activity? u = some b) :
    ∃ a, x.kernel.activity? u = some a ∧ a.body = b.body ∧ a.waitingFor = b.waitingFor ∧
      (b.mustCancel = true → a.mustCancel = true ∨ x.connection.listener ≠ some u ∨
        y.connection.peer.closed = true) := by
  rw [settled.activity] at hb
  by_cases hut : u = t
  · subst hut
    rcases asked with rfl | hlistener
    · exact ⟨b, hb, rfl, rfl, .inl⟩
    · obtain ⟨a, ha, hbody, hwaiting⟩ := noted.self hb
      exact ⟨a, ha, hbody, hwaiting, fun _ => .inr hlistener⟩
  · rw [noted.other u hut] at hb
    exact ⟨b, hb, rfl, rfl, .inl⟩

lemma stays_of_noted (noted : Noted x.kernel k t) (settled : Settled k y.kernel os) {u : Task.Id}
    {a : Task.Activity Routine} (ha : x.kernel.activity? u = some a) :
    ∃ b, y.kernel.activity? u = some b := by
  rw [settled.activity]
  by_cases hut : u = t
  · subst hut
    exact noted.kept ha
  · exact ⟨a, by rw [noted.other u hut, ha]⟩

/-- An event keeps the order. -/
lemma Orderly.event (hx : Orderly x h) (noted : Noted x.kernel k t)
    (asked : k = x.kernel ∨ x.connection.listener ≠ some t ∨ y.connection.peer.closed = true)
    (settled : Settled k y.kernel os) (calls : y.calls = x.calls)
    (listener : y.connection.listener = x.connection.listener)
    (closed : x.connection.peer.closed = true → y.connection.peer.closed = true)
    (buffer : y.connection.peer.buffer = x.connection.peer.buffer)
    (pending : ∀ c ∈ x.connection.peer.pending, y.kernel.outcome? c.future = none →
      c ∈ y.connection.peer.pending)
    (draining : ∀ d ∈ x.connection.draining, y.kernel.outcome? d = none →
      d ∈ y.connection.draining)
    (fewer : ∀ d ∈ y.connection.draining, d ∈ x.connection.draining)
    (waiter : ∀ w, y.connection.incoming.waiter = some w → x.connection.incoming.waiter = some w)
    (stream : ∀ w, y.kernel.outcome? w = none → x.connection.incoming.waiter = some w →
      x.connection.incoming.readiness = .blocked →
      y.connection.incoming.waiter = some w ∧ y.connection.incoming.readiness = .blocked)
    (ledger : Ledger h y.connection.peer y.kernel.outcome?) :
    Orderly y h ∧ Later x h y h none := by
  have hcallers : y.callers = x.callers := by rw [Exchange.callers, calls]; rfl
  have hsize : y.kernel.futures.size = x.kernel.futures.size := settled.size.trans noted.size
  have hlater : Later x h y h none :=
    { size := Nat.le_of_eq hsize.symm
      outcome := fun {u o} ho => by rw [settled.outcome, noted.outcome, ho, Option.some_or]
      plain := fun _ hu => by rw [settled.activity, noted.plain hu]
      stays := fun _ ha => stays_of_noted noted settled ha
      stayed := fun _ _ hb => stayed_of_noted noted asked settled hb
      issues := ⟨[], (List.append_nil _).symm, by simp⟩
      received := ⟨[], (List.append_nil _).symm⟩
      callers := fun hu => hcallers ▸ hu
      newCallers := fun hu => .inl (hcallers ▸ hu)
      listener := listener
      closed := closed
      pending := fun c hc hopen => .inl (pending c hc hopen)
      draining := draining
      stream := fun _ => ⟨rfl, buffer, stream⟩ }
  -- no task was moved, and none is new
  have hmoved : ∀ {u}, u < y.kernel.futures.size →
      ¬((none : Option Task.Id) = some u ∨ x.kernel.futures.size ≤ u) := by
    rintro u hlt (heq | hle)
    · cases heq
    · exact absurd (hsize ▸ hlt) (Nat.not_lt_of_le hle)
  have hcaller : ∀ u ∈ y.callers, u < y.kernel.futures.size := fun u hu =>
    hsize ▸ hx.callers_lt (hcallers ▸ hu)
  refine ⟨hx.later hlater settled.waking settled.tasksOnly ledger (fun i hi => .inl hi)
    (fun hu ha _ => absurd hu (hmoved (Task.Kernel.lt_size_of_activity? ha)))
    (fun i hi => .inl hi) (fun u hu hm => absurd hm (hmoved (hcaller u hu)))
    (fun u hu hm => absurd hm (hmoved (hcaller u hu))) (fun u heq => absurd heq.symm (Option.some_ne_none u)) ?_
    (fun d hd => .inl (fewer d hd)), hlater⟩
  exact fun w hw => ⟨.inl (waiter w hw), fun hmem => (hx.waiter w (waiter w hw)).2 (fewer w hmem)⟩

end Event

/-! ## The events -/

/-- A call is made. -/
lemma Orderly.call (hx : Orderly x h) (name method : Text) (args : List Sexp) :
    Orderly (x.call name method args) h ∧ Later x h (x.call name method args) h none := by
  have hactivity : ∀ u, (x.call name method args).kernel.activity? u =
      if u = x.kernel.futures.size then some { body := some (.call method args) }
      else x.kernel.activity? u := fun _ => Task.Kernel.activity?_add
  have houtcome : ∀ u, (x.call name method args).kernel.outcome? u = x.kernel.outcome? u :=
    fun _ => Task.Kernel.outcome?_add rfl
  have hunknown := Task.Kernel.views_of_size_le (Nat.le_refl x.kernel.futures.size)
  have hold : ∀ {u}, u < x.kernel.futures.size →
      (x.call name method args).kernel.activity? u = x.kernel.activity? u := fun hlt => by
    rw [hactivity, if_neg (Nat.ne_of_lt hlt)]
  have hcallers : (x.call name method args).callers = x.callers ++ [x.kernel.futures.size] :=
    List.map_append
  have hcaller : ∀ {u}, u ∈ (x.call name method args).callers →
      u ∈ x.callers ∨ u = x.kernel.futures.size := by
    intro u hu
    rw [hcallers, List.mem_append, List.mem_singleton] at hu
    exact hu
  have hlater : Later x h (x.call name method args) h none :=
    { size := Nat.le_succ _ |>.trans (Nat.le_of_eq (Array.size_push _).symm)
      outcome := fun ho => by rw [houtcome, ho]
      plain := fun hlt hu => by rw [hold hlt, hu]
      stays := fun {u a} _ ha => ⟨a, by rw [hold (Task.Kernel.lt_size_of_activity? ha), ha]⟩
      stayed := fun {u b} _ hlt hb => ⟨b, by rwa [hold hlt] at hb, rfl, rfl, .inl⟩
      issues := ⟨[], (List.append_nil _).symm, by simp⟩
      received := ⟨[], (List.append_nil _).symm⟩
      callers := fun hu => hcallers ▸ List.mem_append_left _ hu
      newCallers := fun hu => (hcaller hu).imp id fun heq => Nat.le_of_eq heq.symm
      listener := rfl
      closed := id
      pending := fun c hc _ => .inl hc
      draining := fun d hd _ => hd
      stream := fun _ => ⟨rfl, rfl, fun w _ hw hready => ⟨hw, hready⟩⟩ }
  have hnew : ∀ {u}, u ∈ (x.call name method args).callers →
      (none : Option Task.Id) = some u ∨ x.kernel.futures.size ≤ u → u = x.kernel.futures.size := by
    rintro u hu (heq | hle)
    · cases heq
    · exact (hcaller hu).resolve_left fun hu => absurd (hx.callers_lt hu) (Nat.not_lt_of_le hle)
  refine ⟨hx.later hlater (hx.waking.spawn nofun _) (hx.tasksOnly.spawn _)
    (hx.ledger.of_outcome fun i _ o ho => .inl (by rwa [houtcome] at ho)) (fun i hi => .inl hi) ?_
    (fun i hi => .inl hi) ?_ ?_ (fun u heq => nomatch heq)
    (fun w hw => ⟨.inl hw, (hx.waiter w hw).2⟩) (fun d hd => .inl hd), hlater⟩
  · rintro u a b (heq | hle) ha hb
    · cases heq
    · rw [hactivity] at ha
      split at ha
      · next hu =>
        cases ha
        cases hb
        refine ⟨rfl, by rw [hcallers, hu]; simp, fun i hi htask => ?_⟩
        exact absurd (htask ▸ hx.callers_lt (hx.makers i hi)) (Nat.not_lt_of_le hle)
      · rw [(Task.Kernel.views_of_size_le hle).2.1] at ha
        cases ha
  · intro u hu hmoved _
    exact ⟨_, by rw [hactivity, if_pos (hnew hu hmoved)]⟩
  · intro u hu hmoved v hv
    rw [houtcome, hnew hu hmoved, hunknown.1] at hv
    cases hv

/-- What a task waits for is no task. -/
lemma Orderly.target_plain (hx : Orderly x h) {t g : Task.Id} {a : Task.Activity Routine}
    (ha : x.kernel.activity? t = some a) (hg : a.waitingFor = some g) :
    g < x.kernel.futures.size ∧ x.kernel.activity? g = none := by
  obtain ⟨b, hb⟩ := hx.waking.body ha (by simp)
  have hplaced := hx.placed ha hb
  cases b with
  | call method args => simp [hplaced.1] at hg
  | calling state =>
    cases state with
    | awaiting uid future =>
      obtain ⟨hw, ⟨i, hi, -, -, rfl⟩, -⟩ := hplaced
      rw [hw] at hg
      cases hg
      exact hx.futures i hi
    | draining uid future =>
      obtain ⟨⟨d, hd, hspare, -⟩, -⟩ := hplaced
      rw [hd] at hg
      cases hg
      exact ⟨hspare.1, hspare.2.1⟩
  | listen =>
    obtain ⟨hspare, -⟩ := hplaced.2.2.2 g hg
    exact ⟨hspare.1, hspare.2.1⟩

/-- A task is asked to cancel: that is noted, and a future that is no task may be cancelled. -/
lemma Orderly.cancelled (hx : Orderly x h) (t : Task.Id)
    (hopen : x.kernel.outcome? t = none → ∃ a, x.kernel.activity? t = some a) :
    ∃ k os, Noted x.kernel k t ∧ (k = x.kernel ∨ x.kernel.outcome? t = none) ∧
      Settled k (x.kernel.cancel t).1 os ∧ (∀ p ∈ os, p.2 = .cancelled) ∧
      ∀ p ∈ os, ∃ a, x.kernel.activity? t = some a ∧ a.waitingFor = some p.1 := by
  have hwaking := @Task.Kernel.Waking.cancel _ _ _ _ _ _ hx.waking t
  have honly := hx.tasksOnly.cancel t
  cases ho : x.kernel.outcome? t with
  | some o =>
    rw [Task.Kernel.cancel_of_isDone ho]
    exact ⟨x.kernel, [], .refl _ _, .inl rfl, .nil hx.waking hx.tasksOnly, by simp, by simp⟩
  | none =>
    obtain ⟨a, ha⟩ := hopen ho
    obtain ⟨k, hnoted, heq | ⟨g, hg, heq⟩⟩ := Task.Kernel.cancel_cases hx.tasksOnly.members ho ha
      fun g hg => (hx.target_plain ha hg).2
    · rw [heq] at hwaking honly ⊢
      exact ⟨k, [], hnoted, .inr rfl, .nil hwaking honly, by simp, by simp⟩
    · obtain ⟨hlt, hplain⟩ := hx.target_plain ha hg
      rw [heq] at hwaking honly ⊢
      refine ⟨k, [(g, .cancelled)], hnoted, .inr rfl, ⟨hwaking, honly, ?_, ?_, ?_⟩, by simp, ?_⟩
      · exact Task.Kernel.size_settle
      · exact fun u => Task.Kernel.activity?_settle_of_plain (hnoted.plain hplain)
      · exact Task.Kernel.outcome?_settle_or (hnoted.size ▸ hlt) _
      · simpa using ⟨a, ha, hg⟩

/-- Nothing but cancellations was added to the outcomes. -/
lemma Ledger.of_cancelled {κ : Type} {p : Peer κ} {k k' : Task.Kernel Routine Empty Sexp Failure}
    {os : List (Task.Id × Outcome Sexp Failure)} (l : Ledger h p k.outcome?)
    (hout : ∀ u, k'.outcome? u = (k.outcome? u).or (os.lookup u))
    (hos : ∀ p ∈ os, p.2 = .cancelled) : Ledger h p k'.outcome? := by
  refine l.of_outcome fun i _ o ho => ?_
  rw [hout] at ho
  rcases Option.or_eq_some_iff.1 ho with ho | ⟨-, ho⟩
  · exact .inl ho
  · exact .inr (hos (i.future, o) (Task.Kernel.mem_of_lookup ho))

lemma Orderly.cancel (hx : Orderly x h) (name : Text) :
    Orderly (x.cancel name) h ∧ Later x h (x.cancel name) h none := by
  have hsame : Orderly x h ∧ Later x h x h none :=
    hx.event (.refl x.kernel 0) (.inl rfl) (.nil hx.waking hx.tasksOnly) rfl rfl id rfl
      (fun _ hc _ => hc) (fun _ hd _ => hd) (fun _ hd => hd) (fun _ hw => hw)
      (fun _ _ hw hready => ⟨hw, hready⟩) hx.ledger
  rw [Exchange.cancel]
  split
  · next t ht =>
    have hcaller : t ∈ x.callers := by
      obtain ⟨c, hc, rfl⟩ := Option.map_eq_some_iff.1 ht
      exact List.mem_map_of_mem (List.mem_reverse.1 (List.mem_of_find?_eq_some hc))
    obtain ⟨k, os, hnoted, hk, hsettled, hos, -⟩ := hx.cancelled t (hx.callers t hcaller)
    refine hx.event hnoted (.inr (.inl (not_mem_callers hx hcaller))) hsettled rfl rfl id rfl
      (fun _ hc _ => hc) (fun _ hd _ => hd) (fun _ hd => hd) (fun _ hw => hw)
      (fun _ _ hw hready => ⟨hw, hready⟩) ?_
    exact Ledger.of_cancelled hx.ledger
      (fun u => by rw [hsettled.outcome, hnoted.outcome]) hos
  · exact hsame

/-- A change of the connection that concerns neither calls nor the stream. -/
lemma Orderly.connection (hx : Orderly x h) (hkernel : y.kernel.outcome? = x.kernel.outcome?)
    (hsettled : Settled x.kernel y.kernel [])
    (calls : y.calls = x.calls) (listener : y.connection.listener = x.connection.listener)
    (incoming : y.connection.incoming = x.connection.incoming)
    (pending : y.connection.peer.pending = x.connection.peer.pending)
    (next : y.connection.peer.nextUid = x.connection.peer.nextUid)
    (closed : y.connection.peer.closed = x.connection.peer.closed)
    (buffer : y.connection.peer.buffer = x.connection.peer.buffer)
    (draining : y.connection.draining = x.connection.draining) :
    Orderly y h ∧ Later x h y h none :=
  hx.event (.refl x.kernel 0) (.inl rfl) hsettled calls listener (closed ▸ id) buffer
    (fun _ hc _ => pending ▸ hc) (fun _ hd _ => draining ▸ hd) (fun _ hd => draining ▸ hd)
    (fun _ hw => incoming ▸ hw) (fun _ _ hw hready => incoming ▸ ⟨hw, hready⟩)
    (hkernel ▸ hx.ledger.of_peer pending next closed)

/-- The stream changes, and whoever waits for it is woken. -/
lemma Orderly.notify (hx : Orderly x h) (s : Task.Stream Failure)
    (hs : s.waiter = x.connection.incoming.waiter) (o : Outcome Sexp Failure) :
    Orderly (x.onIncoming fun k _ => s.notify k o) h ∧
      Later x h (x.onIncoming fun k _ => s.notify k o) h none := by
  rw [onIncoming, Task.Stream.notify, hs]
  cases hw : x.connection.incoming.waiter with
  | none =>
    exact hx.event (.refl x.kernel 0) (.inl rfl) (.nil hx.waking hx.tasksOnly) rfl rfl id rfl
      (fun _ hc _ => hc) (fun _ hd _ => hd) (fun _ hd => hd)
      (fun w hw' => by rw [hs] at hw'; exact hw')
      (fun w _ hw' => by simp [hw] at hw') hx.ledger
  | some w =>
    obtain ⟨⟨hlt, hplain, hfuture⟩, -⟩ := hx.waiter w hw
    have hsettled : Settled x.kernel (x.kernel.settle w o) [(w, o)] :=
      (Settled.nil hx.waking hx.tasksOnly).settle hlt hplain
    refine hx.event (.refl x.kernel 0) (.inl rfl) hsettled rfl rfl id rfl (fun _ hc _ => hc)
      (fun _ hd _ => hd) (fun _ hd => hd) (fun _ hw' => nomatch hw') (fun w' hopen hw' => ?_)
      (hx.ledger.of_outcome fun i hi o' ho => .inl ?_)
    · rw [hw] at hw'
      cases hw'
      have hdone := (hsettled.outcome w).symm.trans hopen
      simp at hdone
    · rwa [Task.Kernel.outcome?_settle_of_ne (hfuture i hi)] at ho

lemma Orderly.data (hx : Orderly x h) (bytes : Bytes) :
    Orderly (x.data bytes) h ∧ Later x h (x.data bytes) h none := by
  rw [Exchange.data]
  by_cases hnothing : (bytes.isEmpty || x.connection.incoming.ended) = true
  · have hsame : (x.onIncoming fun k s => s.feed k bytes) = x := by
      rw [onIncoming, Task.Stream.feed, if_pos hnothing]
    rw [hsame]
    exact hx.connection rfl (.nil hx.waking hx.tasksOnly) rfl rfl rfl rfl rfl rfl rfl rfl
  · have hfeed : (x.onIncoming fun k s => s.feed k bytes) = x.onIncoming fun k _ =>
        Task.Stream.notify k { x.connection.incoming with
          buffer := x.connection.incoming.buffer ++ bytes } (.value default) := by
      rw [onIncoming, Task.Stream.feed, if_neg hnothing]
      rfl
    rw [hfeed]
    exact hx.notify { x.connection.incoming with buffer := x.connection.incoming.buffer ++ bytes }
      rfl _

lemma Orderly.endOfStream (hx : Orderly x h) :
    Orderly x.endOfStream h ∧ Later x h x.endOfStream h none :=
  hx.notify { x.connection.incoming with ended := true } rfl _

lemma Orderly.readFault (hx : Orderly x h) (f : Fault) :
    Orderly (x.readFault f) h ∧ Later x h (x.readFault f) h none :=
  hx.notify { x.connection.incoming with failure := some (.fault f) } rfl _

lemma Orderly.relieve (hx : Orderly x h) (fault : Option Fault) :
    Orderly (x.relieve fault) h ∧ Later x h (x.relieve fault) h none := by
  have hplain : ∀ p ∈ x.connection.draining.map (·, drainOutcome fault),
      p.1 < x.kernel.futures.size ∧ x.kernel.activity? p.1 = none := by
    intro p hp
    obtain ⟨d, hd, rfl⟩ := List.mem_map.1 hp
    exact ⟨(hx.draining d hd).1, (hx.draining d hd).2.1⟩
  have hsettled := (Settled.nil hx.waking hx.tasksOnly).settleAll _ hplain
  rw [List.foldl_map, List.nil_append] at hsettled
  refine hx.event (.refl x.kernel 0) (.inl rfl) hsettled rfl rfl id rfl (fun _ hc _ => hc)
    (fun d hd hopen => ?_) (fun _ hd => nomatch hd) (fun _ hw => hw)
    (fun _ _ hw hready => ⟨hw, hready⟩) (hx.ledger.of_outcome fun i hi o' ho => .inl ?_)
  · -- every future that was waited for is settled now
    obtain ⟨-, hlookup⟩ := Option.or_eq_none_iff.1 ((hsettled.outcome d).symm.trans hopen)
    rw [List.lookup_eq_none_iff] at hlookup
    simpa using hlookup (d, drainOutcome fault) (List.mem_map.2 ⟨d, hd, rfl⟩)
  · have hlookup : (x.connection.draining.map (·, drainOutcome fault)).lookup i.future = none := by
      rw [List.lookup_eq_none_iff]
      intro p hp
      obtain ⟨d, hd, rfl⟩ := List.mem_map.1 hp
      simpa using (hx.draining d hd).2.2 i hi
    have hor := (hsettled.outcome i.future).symm.trans ho
    rwa [hlookup, Option.or_none] at hor

lemma stop_eq (hopen : x.connection.peer.closed = false) {l : Task.Id}
    (hl : x.connection.listener = some l) :
    x.stop = applyAll { x with kernel := (x.kernel.cancel l).1 }
      { x.connection with
        peer := (x.connection.peer.close (x.kernel.cancel l).1.isDone none).1 }
      (x.connection.peer.close (x.kernel.cancel l).1.isDone none).2 := by
  rw [Exchange.stop, if_neg (by simp [hopen])]
  split
  · next l' hl' =>
    cases hl.symm.trans hl'
    rfl
  · next hl' => simp [hl] at hl'

/-- The connection is closed from this side. -/
lemma Orderly.stop (hx : Orderly x h) : Orderly x.stop h ∧ Later x h x.stop h none := by
  cases hclosed : x.connection.peer.closed with
  | true =>
    rw [Exchange.stop, if_pos hclosed]
    exact hx.connection rfl (.nil hx.waking hx.tasksOnly) rfl rfl rfl rfl rfl rfl rfl rfl
  | false =>
    obtain ⟨l, hl, -⟩ := hx.listener
    obtain ⟨k, os, hnoted, -, hsettled, hos, -⟩ := hx.cancelled l (hx.listener_active hl)
    have hhandled := Peer.handled_close hx.ledger.distinct hx.ledger.closed
      (x.kernel.cancel l).1.isDone none
    have hnow := Peer.closed_close x.connection.peer (x.kernel.cancel l).1.isDone none
    have hbuffer := congrArg (·.buffer)
      (Peer.close_fst x.connection.peer (x.kernel.cancel l).1.isDone none)
    rw [stop_eq hclosed hl]
    revert hhandled hnow hbuffer
    generalize x.connection.peer.close (x.kernel.cancel l).1.isDone none = r
    obtain ⟨q, es⟩ := r
    intro hhandled hnow hbuffer
    dsimp only at hhandled hnow hbuffer ⊢
    obtain ⟨⟨closes, hconnection⟩, hkernel, hcalls⟩ :=
      applyAll_eq { x with kernel := (x.kernel.cancel l).1 } { x.connection with peer := q } es
    generalize applyAll { x with kernel := (x.kernel.cancel l).1 } { x.connection with peer := q }
      es = y at hconnection hkernel hcalls ⊢
    have hplain : ∀ p ∈ outcomesOf es, p.1 < k.futures.size ∧ k.activity? p.1 = none := by
      intro p hp
      obtain ⟨⟨f, res⟩, hmem, rfl⟩ := List.mem_map.1 hp
      obtain ⟨c, hc, rfl, -⟩ := (hhandled.settled f res).1 hmem
      obtain ⟨hlt, hnone⟩ := hx.pending_plain c hc
      exact ⟨hnoted.size ▸ hlt, hnoted.plain hnone⟩
    have hsettled' := hsettled.settleAll (outcomesOf es) hplain
    rw [← hkernel] at hsettled'
    have houtcome : ∀ u, y.kernel.outcome? u =
        ((x.kernel.cancel l).1.outcome? u).or ((outcomesOf es).lookup u) := by
      intro u
      rw [hsettled'.outcome, List.lookup_append, ← Option.or_assoc, ← hsettled.outcome]
    have hledger : Ledger h x.connection.peer (x.kernel.cancel l).1.outcome? :=
      Ledger.of_cancelled hx.ledger (fun u => by rw [hsettled.outcome, hnoted.outcome]) hos
    have hpeer : y.connection.peer = q := by rw [hconnection]
    refine hx.event hnoted (.inr (.inr (hpeer ▸ hnow))) hsettled' hcalls (by rw [hconnection])
      (fun _ => hpeer ▸ hnow) (hpeer ▸ hbuffer) (fun c hc hopen => ?_)
      (by rw [hconnection]; exact fun _ hd _ => hd) (by rw [hconnection]; exact fun _ hd => hd)
      (by rw [hconnection]; exact fun _ hw => hw)
      (by rw [hconnection]; exact fun _ _ hw hready => ⟨hw, hready⟩)
      (hpeer ▸ hledger.broken hhandled hnow houtcome)
    rw [hpeer]
    exact hhandled.gone (fun _ => rfl) hc ((houtcome c.future).symm.trans hopen)

lemma Orderly.addCallback (hx : Orderly x h) (k : NamedCallback) :
    Orderly (x.addCallback k).1 h ∧ Later x h (x.addCallback k).1 h none := by
  rw [Exchange.addCallback]
  split
  · exact hx.connection rfl (.nil hx.waking hx.tasksOnly) rfl rfl rfl rfl rfl rfl rfl rfl
  · next hclosed =>
    rw [Connection.withPeer, Peer.addCallback, if_neg hclosed]
    exact hx.connection rfl (.nil hx.waking hx.tasksOnly) rfl rfl rfl rfl rfl rfl rfl rfl

/-! ## Runs -/

/-- Whatever happens from outside keeps the order. -/
lemma Orderly.occur (hx : Orderly x h) (e : Event) :
    Orderly (x.occur e) h ∧ Later x h (x.occur e) h none := by
  have hnothing : Settled x.kernel x.kernel [] := .nil hx.waking hx.tasksOnly
  cases e with
  | call name method args => exact hx.call name method args
  | cancel name => exact hx.cancel name
  | data bytes => exact hx.data bytes
  | endOfStream => exact hx.endOfStream
  | readFault fault => exact hx.readFault fault
  | stop => exact hx.stop
  | addCallback k => exact hx.addCallback k
  | congest => exact hx.connection rfl hnothing rfl rfl rfl rfl rfl rfl rfl rfl
  | relieve fault => exact hx.relieve fault
  | faults write refusal drain close =>
    exact hx.connection rfl hnothing rfl rfl rfl rfl rfl rfl rfl rfl
  | elapse now =>
    refine hx.connection rfl ⟨?_, ?_, rfl, fun _ => rfl, fun _ => ?_⟩ rfl rfl rfl rfl rfl rfl rfl
      rfl
    · exact hx.waking.of_views (Nat.le_refl _) (fun _ => rfl) (fun _ => rfl) rfl
        (fun {j a} ha => ⟨a, ha, rfl, rfl⟩) fun {j a} ha => ⟨a, ha, rfl, rfl⟩
    · exact hx.tasksOnly.of_views rfl (fun _ hj => hj) (fun _ => rfl) fun _ => rfl
    · rw [List.lookup_nil, Option.or_none]
      rfl

/-- At the start the listener is to begin, and nothing else has happened. -/
lemma orderly_start : Orderly (start {}) {} := by
  have hactivity : ∀ u, (start {}).kernel.activity? u =
      if u = 0 then some { body := some .listen } else none := by
    intro u
    refine Task.Kernel.activity?_add.trans ?_
    simp [Task.Kernel.activity?]
  have houtcome : ∀ u, (start {}).kernel.outcome? u = none := by
    intro u
    refine (Task.Kernel.outcome?_add rfl).trans ?_
    simp [Task.Kernel.outcome?]
  refine
    { waking := Task.Kernel.Waking.empty.spawn (fun heq => by cases heq) _
      tasksOnly := Task.Kernel.TasksOnly.empty.spawn _
      ledger := ?_
      futures := fun _ hi => absurd hi List.not_mem_nil
      placed := ?_
      makers := fun _ hi => absurd hi List.not_mem_nil
      callers := fun _ hu => absurd hu List.not_mem_nil
      answered := fun _ hu => absurd hu List.not_mem_nil
      listener := ⟨0, rfl, List.not_mem_nil, .inl ⟨_, by rw [hactivity, if_pos rfl], rfl⟩⟩
      waiter := fun w hw => absurd hw.symm (Option.some_ne_none w)
      draining := fun _ hd => absurd hd List.not_mem_nil }
  · exact
      { uids := rfl
        next := rfl
        tasks := .nil
        futures := .nil
        received := fun _ hi => absurd hi List.not_mem_nil
        entries := fun _ hc => absurd hc List.not_mem_nil
        sorted := .nil
        closed := fun _ => rfl
        settled := fun _ hi => absurd hi List.not_mem_nil }
  · intro u a b ha hb
    rw [hactivity] at ha
    split at ha
    · next hu =>
      subst hu
      cases ha
      cases hb
      have hshort : ([] : Bytes).length < Frame.headerSize := by decide
      have hdrain := Frame.drain_of_incomplete (Frame.front_of_short hshort)
      refine ⟨rfl, fun hmust => (by cases hmust), ?_, fun _ hwaiting => by cases hwaiting⟩
      rw [History.received, Frame.leading_of_drain hdrain]
      exact hdrain
    · cases ha

lemma Orderly.leads {h' : History} (hx : Orderly x h) (hl : Leads x h y h') : Orderly y h' := by
  induction hl with
  | refl => exact hx
  | occur e _ ih => exact (ih.occur e).1
  | work limit _ hstep ih => exact (ih.work (work_of_step? ih hstep)).1

/-- Every run is orderly. -/
theorem orderly_of_run (hrun : Run x h) : Orderly x h := orderly_start.leads hrun

/-- An outcome is never replaced, and what was received stays the beginning of what is received. -/
lemma Orderly.persists {h' : History} (hx : Orderly x h) (hl : Leads x h y h') :
    (∀ {u o}, x.kernel.outcome? u = some o → y.kernel.outcome? u = some o) ∧
      ∃ new, h'.received = h.received ++ new := by
  induction hl with
  | refl => exact ⟨id, [], (List.append_nil _).symm⟩
  | occur e hl ih =>
    obtain ⟨-, hlater⟩ := (hx.leads hl).occur e
    exact ⟨fun ho => hlater.outcome (ih.1 ho), ih.2⟩
  | work limit hl hstep ih =>
    obtain ⟨-, t, hlater⟩ := (hx.leads hl).work (work_of_step? (hx.leads hl) hstep)
    obtain ⟨new, hnew⟩ := ih.2
    obtain ⟨more, hmore⟩ := hlater.received
    exact ⟨fun ho => hlater.outcome (ih.1 ho), new ++ more, by
      rw [hmore, hnew, List.append_assoc]⟩

end SuggestBridge.Exchange
