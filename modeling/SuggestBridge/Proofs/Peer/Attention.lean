import SuggestBridge.Proofs.Peer.Moves

/-!
# Why the listener is woken

The listener of an open peer is woken for a reason: bytes have arrived, or the stream is over
(`Attentive`).  So it never takes the connection for over just because nothing is there to read.
This holds in every run (`attentive_of_run`).
-/

namespace SuggestBridge.Exchange

open Peer (History)
open SuggestBridge.Task (Outcome)

variable {x y : Exchange} {h h' : History}

/-- There is a reason to wake the listener with an outcome. -/
def Stirs (x : Exchange) (o : Outcome Sexp Failure) : Prop :=
  x.connection.peer.closed = true ∨ x.connection.incoming.ended = true ∨
    x.connection.incoming.failure ≠ none ∨
      (∃ v, o = .value v) ∧ x.connection.incoming.buffer ≠ []

/-- The listener was woken for a reason, if it was. -/
def Attentive (x : Exchange) : Prop :=
  ∀ t a w o, x.kernel.activity? t = some a → a.body = some .listen → a.waitingFor = some w →
    x.kernel.outcome? w = some o → x.Stirs o

/-! ## Jobs -/

/-- Only the listener could have taken the reason away, and it waits for another one then. -/
lemma Attentive.work (hat : x.Attentive) (hx : Orderly x h) {limit : Float}
    (hwork : Work x limit y) : y.Attentive := by
  intro t a w o ha hb hw ho
  obtain ⟨u, b, made, os, progress, m⟩ := hx.moves hwork
  obtain ⟨-, _, hlater⟩ := hx.work hwork
  obtain ⟨hne, hxa⟩ := m.other_of_settled ha hb hw ho nofun
  obtain ⟨hlistener, -, -, hwaits⟩ := hx.placed hxa hb
  rw [m.outcome_spare (hwaits w hw).1] at ho
  have hincoming : y.connection.incoming = x.connection.incoming := by
    refine m.incoming fun hlisten => hne ?_
    have hl := (hx.placed m.activity hlisten).1
    exact Option.some.inj (hlistener.symm.trans hl)
  rw [Stirs, hincoming]
  exact (hat t a w o hxa hb hw ho).imp_left hlater.closed

/-! ## Events -/

/-- The reasons to wake the listener stay. -/
structure Grows (x y : Exchange) : Prop where
  ended : x.connection.incoming.ended = true → y.connection.incoming.ended = true
  failure : x.connection.incoming.failure ≠ none → y.connection.incoming.failure ≠ none
  buffer : x.connection.incoming.buffer ≠ [] → y.connection.incoming.buffer ≠ []

lemma Grows.of_incoming (hincoming : y.connection.incoming = x.connection.incoming) :
    Grows x y := by
  refine ⟨?_, ?_, ?_⟩ <;> rw [hincoming] <;> exact id

/-- An event that wakes the listener gives a reason. -/
lemma Attentive.of_later (hat : x.Attentive) (hx : Orderly x h)
    (hevent : Orderly y h ∧ Later x h y h none) (hgrows : Grows x y)
    (hwakes : ∀ w o, x.connection.incoming.waiter = some w → x.kernel.outcome? w = none →
      y.kernel.outcome? w = some o → y.Stirs o) : y.Attentive := by
  intro t a w o ha hb hw ho
  obtain ⟨hy, hlater⟩ := hevent
  have hl : x.connection.listener = some t := hlater.listener ▸ (hy.placed ha hb).1
  have hlt : t < x.kernel.futures.size := by
    obtain ⟨l, hl', -, ⟨b, hb', -⟩ | ⟨-, o, ho'⟩⟩ := hx.listener
    · cases hl.symm.trans hl'
      exact Task.Kernel.lt_size_of_activity? hb'
    · cases hl.symm.trans hl'
      exact Task.Kernel.lt_size_of_outcome? ho'
  obtain ⟨b, hxb, hbody, hwaiting, -⟩ := hlater.stayed nofun hlt ha
  rw [hb] at hbody
  rw [hw] at hwaiting
  cases hopen : x.kernel.outcome? w with
  | none =>
    obtain ⟨-, hready⟩ := (hx.placed hxb hbody).2.2.2 w hwaiting
    exact hwakes w o (hready hopen).1 hopen ho
  | some o' =>
    cases (hlater.outcome hopen).symm.trans ho
    rcases hat t b w _ hxb hbody hwaiting hopen with hclosed | hended | hfailure | ⟨hvalue, hbuffer⟩
    · exact .inl (hlater.closed hclosed)
    · exact .inr (.inl (hgrows.ended hended))
    · exact .inr (.inr (.inl (hgrows.failure hfailure)))
    · exact .inr (.inr (.inr ⟨hvalue, hgrows.buffer hbuffer⟩))

/-- An event that settles nothing. -/
lemma Attentive.of_outcome (hat : x.Attentive) (hx : Orderly x h)
    (hevent : Orderly y h ∧ Later x h y h none)
    (hincoming : y.connection.incoming = x.connection.incoming)
    (houtcome : ∀ u, y.kernel.outcome? u = x.kernel.outcome? u) : y.Attentive :=
  hat.of_later hx hevent (.of_incoming hincoming) fun w o _ hopen ho => by
    rw [houtcome, hopen] at ho
    cases ho

/-- The stream changes, and its change is a reason to wake the listener. -/
lemma Attentive.notify (hat : x.Attentive) (hx : Orderly x h) (s : Task.Stream Failure)
    (hs : s.waiter = x.connection.incoming.waiter) (o : Outcome Sexp Failure)
    (hgrows : ∀ y : Exchange, y.connection.incoming = { s with waiter := none } →
      Grows x y ∧ y.Stirs o) :
    (x.onIncoming fun k _ => s.notify k o).Attentive := by
  have hevent := hx.notify s hs o
  cases hw : x.connection.incoming.waiter with
  | none =>
    have hsame : { s with waiter := none } = s := by rw [← hw, ← hs]
    have hkernel : (x.onIncoming fun k _ => s.notify k o).kernel = x.kernel := by
      rw [onIncoming, Task.Stream.notify, hs, hw]
    have hincoming : (x.onIncoming fun k _ => s.notify k o).connection.incoming =
        { s with waiter := none } := by
      rw [hsame, onIncoming, Task.Stream.notify, hs, hw]
    refine hat.of_later hx hevent (hgrows _ hincoming).1 fun w o' hw' => ?_
    simp [hw] at hw'
  | some w =>
    have hkernel : (x.onIncoming fun k _ => s.notify k o).kernel = x.kernel.settle w o := by
      rw [onIncoming, Task.Stream.notify, hs, hw]
    have hincoming : (x.onIncoming fun k _ => s.notify k o).connection.incoming =
        { s with waiter := none } := by
      rw [onIncoming, Task.Stream.notify, hs, hw]
    refine hat.of_later hx hevent (hgrows _ hincoming).1 fun w' o' hw' hopen ho => ?_
    cases hw.symm.trans hw'
    rw [hkernel, Task.Kernel.outcome?_settle_self ⟨(hx.waiter w hw).1.1, hopen⟩] at ho
    cases ho
    exact (hgrows _ hincoming).2

lemma Attentive.data (hat : x.Attentive) (hx : Orderly x h) (bytes : Bytes) :
    (x.data bytes).Attentive := by
  by_cases hnothing : (bytes.isEmpty || x.connection.incoming.ended) = true
  · have hsame : x.data bytes = x := by
      rw [Exchange.data, onIncoming, Task.Stream.feed, if_pos hnothing]
    rwa [hsame]
  · have hbytes : bytes ≠ [] := fun hempty => hnothing (by simp [hempty])
    have hfeed : x.data bytes = x.onIncoming fun k _ =>
        Task.Stream.notify k { x.connection.incoming with
          buffer := x.connection.incoming.buffer ++ bytes } (.value default) := by
      rw [Exchange.data, onIncoming, Task.Stream.feed, if_neg hnothing]
      rfl
    rw [hfeed]
    refine hat.notify hx { x.connection.incoming with
      buffer := x.connection.incoming.buffer ++ bytes } rfl _ fun y hy => ?_
    have hbuffer : y.connection.incoming.buffer ≠ [] := by
      rw [hy]
      exact List.append_ne_nil_of_right_ne_nil _ hbytes
    refine ⟨⟨?_, ?_, fun _ => hbuffer⟩, .inr (.inr (.inr ⟨⟨_, rfl⟩, hbuffer⟩))⟩ <;> rw [hy] <;>
      exact id

/-- A caller that is asked to cancel does not wake the listener. -/
lemma Attentive.cancel (hat : x.Attentive) (hx : Orderly x h) (name : Text) :
    (x.cancel name).Attentive := by
  have hevent := hx.cancel name
  rw [Exchange.cancel] at hevent ⊢
  split at hevent
  · next t ht =>
    have hcaller : t ∈ x.callers := by
      obtain ⟨c, hc, rfl⟩ := Option.map_eq_some_iff.1 ht
      exact List.mem_map_of_mem (List.mem_reverse.1 (List.mem_of_find?_eq_some hc))
    obtain ⟨k, os, hnoted, -, hsettled, -, htarget⟩ := hx.cancelled t (hx.callers t hcaller)
    refine hat.of_later hx hevent (.of_incoming rfl) fun w o hw hopen ho => ?_
    obtain ⟨hspare, hnot⟩ := hx.waiter w hw
    have hlookup : os.lookup w = some o := by
      have hor := (hsettled.outcome w).symm.trans ho
      rwa [hnoted.outcome, hopen, Option.none_or] at hor
    -- what a caller waits for is not what the listener waits for
    obtain ⟨a, ha, hg⟩ := htarget _ (Task.Kernel.mem_of_lookup hlookup)
    obtain ⟨b, hb⟩ := hx.waking.body ha (by simp)
    have hplaced := hx.placed ha hb
    cases b with
    | call method args => simp [hplaced.1] at hg
    | listen => exact absurd hplaced.1 (not_mem_callers hx hcaller)
    | calling state =>
      cases state with
      | awaiting uid future =>
        obtain ⟨hwaiting, ⟨i, hi, -, -, rfl⟩, -⟩ := hplaced
        cases hwaiting.symm.trans hg
        exact absurd rfl (hspare.2.2 i hi)
      | draining uid future =>
        obtain ⟨⟨d, hd, -, hdraining⟩, -⟩ := hplaced
        cases hd.symm.trans hg
        exact absurd (hdraining hopen) hnot
  · exact hat

lemma closed_stop (hx : Orderly x h) : x.stop.connection.peer.closed = true := by
  cases hclosed : x.connection.peer.closed with
  | true => rwa [Exchange.stop, if_pos hclosed]
  | false =>
    obtain ⟨l, hl, -⟩ := hx.listener
    obtain ⟨⟨closes, hconnection⟩, -⟩ := applyAll_eq { x with kernel := (x.kernel.cancel l).1 }
      { x.connection with
        peer := (x.connection.peer.close (x.kernel.cancel l).1.isDone none).1 }
      (x.connection.peer.close (x.kernel.cancel l).1.isDone none).2
    rw [stop_eq hclosed hl, hconnection]
    exact Peer.closed_close _ _ _

lemma Attentive.relieve (hat : x.Attentive) (hx : Orderly x h) (fault : Option Fault) :
    (x.relieve fault).Attentive := by
  refine hat.of_later hx (hx.relieve fault) (.of_incoming rfl) fun w o hw hopen ho => ?_
  have hplain : ∀ p ∈ x.connection.draining.map (·, drainOutcome fault),
      p.1 < x.kernel.futures.size ∧ x.kernel.activity? p.1 = none := by
    intro p hp
    obtain ⟨d, hd, rfl⟩ := List.mem_map.1 hp
    exact ⟨(hx.draining d hd).1, (hx.draining d hd).2.1⟩
  have hsettled := (Task.Kernel.Settled.nil hx.waking hx.tasksOnly).settleAll _ hplain
  rw [List.foldl_map, List.nil_append] at hsettled
  have hor := (hsettled.outcome w).symm.trans ho
  rw [hopen, Option.none_or] at hor
  obtain ⟨d, hd, heq⟩ := List.mem_map.1 (Task.Kernel.mem_of_lookup hor)
  cases heq
  exact absurd hd (hx.waiter w hw).2

lemma incoming_addCallback (x : Exchange) (k : NamedCallback) :
    (x.addCallback k).1.kernel = x.kernel ∧
      (x.addCallback k).1.connection.incoming = x.connection.incoming := by
  rw [addCallback]
  split
  · exact ⟨rfl, rfl⟩
  · next hopen =>
    rw [Peer.addCallback, if_neg hopen]
    exact ⟨rfl, rfl⟩

/-- Whatever happens from outside, the listener is woken for a reason. -/
lemma Attentive.occur (hat : x.Attentive) (hx : Orderly x h) (e : Event) :
    (x.occur e).Attentive := by
  have hevent := hx.occur e
  cases e with
  | call name method args => exact hat.of_outcome hx hevent rfl fun _ => Task.Kernel.outcome?_add rfl
  | cancel name => exact hat.cancel hx name
  | data bytes => exact hat.data hx bytes
  | endOfStream =>
    refine hat.notify hx { x.connection.incoming with ended := true } rfl _ fun y hy => ?_
    have hended : y.connection.incoming.ended = true := by rw [hy]
    refine ⟨⟨fun _ => hended, ?_, ?_⟩, .inr (.inl hended)⟩ <;> rw [hy] <;> exact id
  | readFault fault =>
    refine hat.notify hx { x.connection.incoming with failure := some (.fault fault) } rfl _
      fun y hy => ?_
    have hfailure : y.connection.incoming.failure ≠ none := by rw [hy]; exact nofun
    refine ⟨⟨?_, fun _ => hfailure, ?_⟩, .inr (.inr (.inl hfailure))⟩ <;> rw [hy] <;> exact id
  | stop => exact fun _ _ _ _ _ _ _ _ => .inl (closed_stop hx)
  | addCallback k =>
    obtain ⟨hkernel, hincoming⟩ := incoming_addCallback x k
    exact hat.of_outcome hx hevent hincoming fun u => congrArg (·.outcome? u) hkernel
  | congest => exact hat.of_outcome hx hevent rfl fun _ => rfl
  | relieve fault => exact hat.relieve hx fault
  | faults write refusal drain close => exact hat.of_outcome hx hevent rfl fun _ => rfl
  | elapse now => exact hat.of_outcome hx hevent rfl fun _ => rfl

/-! ## Runs -/

lemma Attentive.leads (hat : x.Attentive) (hx : Orderly x h) (hl : Leads x h y h') :
    y.Attentive := by
  induction hl with
  | refl => exact hat
  | occur e hl ih => exact ih.occur (hx.leads hl) e
  | work limit hl hstep ih => exact ih.work (hx.leads hl) (work_of_step? (hx.leads hl) hstep)

/-- In every run the listener is woken for a reason. -/
theorem attentive_of_run (hrun : Run x h) : x.Attentive := by
  refine Attentive.leads (fun t a w o ha hb hw ho => ?_) orderly_start hrun
  -- at the start nothing is settled
  have houtcome : (start {}).kernel.outcome? w = none :=
    (Task.Kernel.outcome?_add rfl).trans (by simp [Task.Kernel.outcome?])
  simp [houtcome] at ho

end SuggestBridge.Exchange
