import SuggestBridge.Proofs.Peer.Conduct
import SuggestBridge.Proofs.Peer.Delivery

/-!
# Closing a peer

A peer closes when it is told to, when its listener finds the connection over, or when a call finds
that it cannot write.  Whichever comes first, the calls that wait are settled at once, nothing is
written from then on, later calls fail, and every callback is run once (`final_of_registers`).

The registrations of callbacks are no part of a state, so a run is followed together with them
(`Registers`); every run can be (`Leads.registers`).
-/

namespace SuggestBridge

/-! ## The order of effects -/

namespace Connection

open Peer (Outward frames called)

variable {κ : Type} {c d : Connection κ} {es : List (Peer.Effect κ)}

/-- What may be done with a connection next: a call begins or goes on, the listener begins or goes
on, or the connection is closed from this side. -/
inductive Operates (c : Connection κ) : Connection κ → List (Peer.Effect κ) → Prop
  | begins (isDone : Task.Id → Bool) (now : Float) (future drained : Task.Id) (method : Text)
    (args : List Sexp) :
    Operates c (c.beginCall isDone now future drained method args).1
      (c.beginCall isDone now future drained method args).2.1
  | goesOn (isDone : Task.Id → Bool) (state : CallState) (input : Task.Outcome Sexp Failure) :
    Operates c (c.resumeCall isDone state input).1 (c.resumeCall isDone state input).2.1
  | listens (isDone : Task.Id → Bool) (now : Float) :
    Operates c (c.beginListening isDone now).1 (c.beginListening isDone now).2.1
  | reads (isDone : Task.Id → Bool) (now : Float) (input : Task.Outcome Sexp Failure) :
    Operates c (c.resumeListening isDone now input).1 (c.resumeListening isDone now input).2.1
  | stops (isDone : Task.Id → Bool) :
    Operates c (c.withPeer (c.peer.close isDone none)).1 (c.withPeer (c.peer.close isDone none)).2

/-- An operation writes a frame at most, and then does to the outside what no call does. -/
lemma Operates.outward (h : Operates c d es) :
    ∃ p before after, es = before ++ after ∧ (∀ e ∈ before, ∃ frame, e = .send frame) ∧
      Outward p d.peer after := by
  have hof : Outward c.peer d.peer es → ∃ p before after, es = before ++ after ∧
      (∀ e ∈ before, ∃ frame, e = .send frame) ∧ Outward p d.peer after :=
    fun h => ⟨c.peer, [], es, rfl, nofun, h⟩
  cases h with
  | goesOn isDone state input => exact hof (outward_resumeCall c isDone state input)
  | listens isDone now => exact hof (outward_beginListening c isDone now)
  | reads isDone now input => exact hof (outward_resumeListening c isDone now input)
  | stops isDone => exact hof (Peer.outward_close c.peer isDone none)
  | begins isDone now future drained method args =>
    cases hclosed : c.peer.closed with
    | true =>
      simp only [beginCall, issue_of_closed c.peer now future method args hclosed] at hof ⊢
      exact hof (outward_nothing c.peer)
    | false =>
      rcases beginCall_cases c hclosed isDone now future drained method args with
        ⟨m, heq⟩ | ⟨frame, d, es, progress, heq, -, -, hout, -⟩
      · rw [heq]
        exact ⟨numbered c.peer, [], [], rfl, nofun, outward_nothing _⟩
      · rw [heq]
        refine ⟨_, c.written frame, es, rfl, fun e he => ⟨frame, ?_⟩, hout⟩
        rw [written] at he
        split at he
        · exact List.mem_singleton.1 he
        · exact absurd he List.not_mem_nil

/-- Behind the end of the connection an operation writes nothing. -/
lemma Operates.silent (h : Operates c d es) {before after : List (Peer.Effect κ)}
    (heq : es = before ++ .closeConnection :: after) : frames after = [] := by
  obtain ⟨p, first, rest, rfl, hfirst, hout⟩ := h.outward
  rcases List.append_eq_append_iff.1 heq with ⟨mid, rfl, hrest⟩ | ⟨mid, rfl, hcut⟩
  · exact (hout.silent mid after hrest).2
  · cases mid with
    | nil => exact (hout.silent [] after (by simpa using hcut.symm)).2
    | cons e mid =>
      rw [List.cons_append, List.cons.injEq] at hcut
      obtain ⟨frame, heq⟩ := hfirst e (by simp)
      rw [← hcut.1] at heq
      cases heq

/-- Callbacks are run when the peer is closed. -/
lemma Operates.closed_of_callback (h : Operates c d es) {k : κ} (hk : .callback k ∈ es) :
    d.peer.closed = true := by
  obtain ⟨p, first, rest, rfl, hfirst, hout⟩ := h.outward
  have hrest : .callback k ∈ rest := by
    refine (List.mem_append.1 hk).resolve_left fun hmem => ?_
    obtain ⟨frame, heq⟩ := hfirst _ hmem
    cases heq
  have hcalled : k ∈ called rest := List.mem_filterMap.2 ⟨_, hrest, rfl⟩
  cases hd : d.peer.closed with
  | true => rfl
  | false =>
    rw [hout.early hd] at hcalled
    exact absurd hcalled List.not_mem_nil

/-- A call that closes the peer fails, and so do the others. -/
lemma Went.closes {isDone : Task.Id → Bool} {uid : Nat} {future : Task.Id}
    {drained : Option Task.Id} {progress : CallProgress}
    (h : Went c isDone uid future drained d es progress) (hopen : c.peer.closed = false)
    (hclosed : d.peer.closed = true) :
    (∃ m, progress = .ends (.failure (.closed m))) ∧
      Peer.Handled (c.peer.forget uid) d.peer isDone (fun _ => some (.error Peer.closing)) es := by
  cases h with
  | breaks handled => exact ⟨⟨_, rfl⟩, handled⟩
  | _ => exact absurd hclosed (by simp [hopen])

end Connection

namespace Exchange

open Peer (History firstVerdict closing Outward frames called)
open Connection (corruption endFailure)
open SuggestBridge.Task (Outcome)

/-! ## Runs and registrations -/

/-- What can come of a state, with the callbacks that were registered meanwhile, oldest first. -/
inductive Registers (x : Exchange) (h : History) : List NamedCallback → Exchange → History → Prop
  | refl : Registers x h [] x h
  | add {ks y h'} (k : NamedCallback) : Registers x h ks y h' →
    Registers x h (ks ++ [k]) (y.occur (.addCallback k)) h'
  | occur {ks y h'} (e : Event) : (∀ k, e ≠ .addCallback k) → Registers x h ks y h' →
    Registers x h ks (y.occur e) h'
  | work {ks y z h'} (limit : Float) : Registers x h ks y h' → y.step? limit = some z →
    Registers x h ks z (note h' y limit z)

variable {x y : Exchange} {h h' : History} {ks : List NamedCallback}

lemma Registers.leads (hr : Registers x h ks y h') : Leads x h y h' := by
  induction hr with
  | refl => exact .refl
  | add k _ ih => exact .occur (.addCallback k) ih
  | occur e _ _ ih => exact .occur e ih
  | work limit _ hstep ih => exact .work limit ih hstep

/-- Every run can be followed with its registrations. -/
theorem Leads.registers (hl : Leads x h y h') : ∃ ks, Registers x h ks y h' := by
  induction hl with
  | refl => exact ⟨[], .refl⟩
  | occur e _ ih =>
    obtain ⟨ks, hr⟩ := ih
    by_cases he : ∃ k, e = .addCallback k
    · obtain ⟨k, rfl⟩ := he
      exact ⟨_, .add k hr⟩
    · exact ⟨ks, .occur e (fun k heq => he ⟨k, heq⟩) hr⟩
  | work limit _ hstep ih =>
    obtain ⟨ks, hr⟩ := ih
    exact ⟨ks, .work limit hr hstep⟩

/-! ## The calls that wait -/

/-- How the calls that wait are settled by a job that closes the peer. -/
inductive Breaks (x : Exchange) (y : Exchange) (h h' : History) : Prop
  /-- A call could not be written: it fails, and so do all others. -/
  | call (t : Task.Id) (uid : Nat) (m : Text)
    (maker : ∃ i ∈ h'.issues, i.task = t ∧ i.uid = uid)
    (failed : y.kernel.outcome? t = some (.failure (.closed m)))
    (others : ∀ c ∈ x.connection.peer.pending, c.uid ≠ uid → x.kernel.outcome? c.future = none →
      y.kernel.outcome? c.future = some (.failure (.closed Peer.closedMessage)))
  /-- The listener found the connection over: calls whose replies it had just read are settled by
  these, and all others fail, for the corrupt header if there is one. -/
  | listener (done : List Text) (received : h.received ++ done <+: h'.received)
    (settled : ∀ c ∈ x.connection.peer.pending, x.kernel.outcome? c.future = none →
      y.kernel.outcome? c.future = some (.ofExcept ((firstVerdict c.uid done).getD
        (.error (endFailure (Frame.drain h'.read).payloads)))))

/-- What a turn settles of the calls that waited. -/
lemma Orderly.settled_of_handled (hx : Orderly x h) {t : Task.Id} {a : Task.Activity Routine}
    {made : Nat} {p q : Peer NamedCallback} {es : List (Peer.Effect NamedCallback)}
    {verdict : Nat → Option (Except Failure Sexp)}
    {progress : Task.Progress Routine Sexp Failure} (ha : x.kernel.activity? t = some a)
    (turn : Task.Kernel.Turn x.kernel y.kernel t made (Peer.outcomesOf es) progress)
    (hp : p.Distinct) (handled : Peer.Handled p q x.kernel.isDone verdict es)
    {c : PendingCall} (hc : c ∈ x.connection.peer.pending) (hcp : c ∈ p.pending)
    (hopen : x.kernel.outcome? c.future = none) :
    y.kernel.outcome? c.future = (verdict c.uid).map Outcome.ofExcept := by
  have hne : c.future ≠ t := by
    rintro rfl
    simp [(hx.pending_plain c hc).2] at ha
  rw [turn.outcome _ hne, hopen, Option.none_or,
    handled.lookup hp hcp (Task.Kernel.isDone_eq_false_iff.2 hopen)]

/-- A job that closes the peer settles the calls that wait. -/
lemma Orderly.breaks (hx : Orderly x h) {limit : Float} (hwork : Work x limit y)
    (hopen : x.connection.peer.closed = false) (hclosed : y.connection.peer.closed = true) :
    Breaks x y h (note h x limit y) := by
  have hstays : y.connection.peer.closed ≠ x.connection.peer.closed := by simp [hopen, hclosed]
  obtain ⟨hy, -⟩ := hx.work hwork
  cases hwork with
  | cancelled ha hb hidle hasked turn hissue hconnection =>
    exact absurd (by rw [hconnection]) hstays
  | answered ha hb ho turn hissue hconnection => exact absurd (by rw [hconnection]; rfl) hstays
  | late ha hb told ho turn hissue hconnection => exact absurd (by rw [hconnection]; rfl) hstays
  | listens ha hb listened told turn hissue hconnection =>
    exact absurd (by rw [hconnection, (listened.blocked rfl).2.1]) hstays
  | @call t a method args d es progress closes ha hb begun turn hissue hconnection =>
    have hd : d.peer.closed = true := by rw [← hclosed, hconnection]
    cases begun with
    | refused closed => simp [hopen] at closed
    | unsendable closed => simp [Connection.numbered, hopen] at hd
    | issued closed went =>
      obtain ⟨⟨m, rfl⟩, handled⟩ := went.closes hopen hd
      have hfuture : ∀ c ∈ x.connection.peer.pending, c.future ≠ x.kernel.futures.size :=
        fun c hc => Nat.ne_of_lt (hx.pending_plain c hc).1
      have hlisted := Connection.distinct_listed hx.ledger.distinct hx.ledger.pending_uid_lt hfuture
      refine .call t x.connection.peer.nextUid m
        ⟨⟨t, x.connection.peer.nextUid, x.kernel.futures.size, h.received.length⟩, ?_, rfl, rfl⟩
        (turn.ended _ rfl).2 fun c hc hne hnone => ?_
      · rw [note, hissue, hopen]
        exact List.mem_append_right _ (List.mem_singleton_self _)
      · refine hx.settled_of_handled ha turn ((hlisted _ _).of_sublist List.filter_sublist) handled
          hc ?_ hnone
        exact List.mem_filter.2 ⟨List.mem_append_left _ hc, by simpa using hne⟩
  | @drained t a uid future d es progress closes ha hb told went turn hissue hconnection =>
    have hd : d.peer.closed = true := by rw [← hclosed, hconnection]
    obtain ⟨⟨m, rfl⟩, handled⟩ := went.closes hopen hd
    obtain ⟨-, ⟨i, hi, htask, huid, -⟩, -⟩ := hx.placed ha hb
    refine .call t uid m ⟨i, List.mem_append_left _ hi, htask, huid⟩ (turn.ended _ rfl).2
      fun c hc hne hnone => ?_
    exact hx.settled_of_handled ha turn (hx.ledger.distinct.of_sublist List.filter_sublist) handled
      hc (List.mem_filter.2 ⟨hc, by simpa using hne⟩) hnone
  | @closes t a bytes done rejection d es cause closes ha hb listened told why turn hissue
      hconnection =>
    have hnote := note_of_read h hissue
      (by rw [hconnection]; exact listened.read : x.connection.incoming.buffer =
        bytes ++ y.connection.incoming.buffer)
    obtain ⟨-, -, hdrain, -⟩ := hx.placed ha hb
    obtain ⟨-, -, -, hfront⟩ := Frame.drain_eq_ok_iff.1 hdrain
    obtain ⟨more, hmore⟩ := listened.done_prefix
    have hcause := listened.cause (fun hblocked => by cases hblocked) hfront
    have hread : corruption (Frame.drain (h.add bytes).read).payloads =
        corruption (Frame.drain (x.connection.peer.buffer ++ bytes)).payloads := by
      rw [History.add, Frame.drain_append_of_ok hdrain, Connection.corruption_map]
    refine .listener done ⟨more, ?_⟩ fun c hc hnone => ?_
    · rw [hnote, received_add hx ha hb bytes, ← hmore, List.append_assoc]
    · rw [hx.settled_of_handled ha turn hx.ledger.distinct listened.handled hc hc hnone, hnote,
        ← Connection.getD_corruption, hread, hcause, Connection.verdictOn, Option.map_some,
        Option.or_some, Option.map_some]

/-- Closing the connection from this side settles the calls that wait. -/
lemma Orderly.stop_settles (hx : Orderly x h) (hopen : x.connection.peer.closed = false)
    {c : PendingCall} (hc : c ∈ x.connection.peer.pending)
    (hnone : x.kernel.outcome? c.future = none) :
    x.stop.kernel.outcome? c.future = some (.failure (.closed Peer.closedMessage)) := by
  obtain ⟨l, hl, -, ⟨a, ha, hb⟩ | ⟨hclosed, -⟩⟩ := hx.listener
  · obtain ⟨k, os, hnoted, -, hsettled, -, htarget⟩ := hx.cancelled l (hx.listener_active hl)
    -- asking the listener to cancel settles no future of a call
    have hlookup : os.lookup c.future = none := by
      rw [List.lookup_eq_none_iff]
      intro p hp
      obtain ⟨a', ha', hg⟩ := htarget p hp
      cases ha.symm.trans ha'
      obtain ⟨i, hi, -, hfuture, -⟩ := hx.ledger.entries c hc
      obtain ⟨⟨-, -, hspare⟩, -⟩ := (hx.placed ha hb).2.2.2 p.1 hg
      simpa using hfuture ▸ hspare i hi
    have hcancelled : (x.kernel.cancel l).1.outcome? c.future = none := by
      rw [hsettled.outcome, hnoted.outcome, hnone, Option.none_or, hlookup]
    have hhandled := Peer.handled_close hx.ledger.distinct hx.ledger.closed
      (x.kernel.cancel l).1.isDone none
    have hplain : ∀ p ∈ Peer.outcomesOf
        (x.connection.peer.close (x.kernel.cancel l).1.isDone none).2,
        p.1 < k.futures.size ∧ k.activity? p.1 = none := by
      intro p hp
      obtain ⟨⟨f, r⟩, hmem, rfl⟩ := List.mem_map.1 hp
      obtain ⟨d, hd, rfl, -⟩ := (hhandled.settled f r).1 hmem
      obtain ⟨hlt, hplain⟩ := hx.pending_plain d hd
      exact ⟨hnoted.size ▸ hlt, hnoted.plain hplain⟩
    have hall := (hsettled.settleAll _ hplain).outcome c.future
    rw [stop_eq hopen hl, (applyAll_eq _ _ _).2.1, hall, List.lookup_append, ← Option.or_assoc,
      ← hsettled.outcome, hcancelled, Option.none_or, hhandled.lookup hx.ledger.distinct hc
        (Task.Kernel.isDone_eq_false_iff.2 hcancelled)]
    rfl
  · simp [hopen] at hclosed

lemma sent_addCallback (x : Exchange) (k : NamedCallback) :
    (x.addCallback k).1.sent = x.sent ∧
      (x.addCallback k).1.connection.peer.closed = x.connection.peer.closed := by
  rw [addCallback]
  split
  · exact ⟨rfl, rfl⟩
  · next hopen =>
    rw [Peer.addCallback, if_neg hopen]
    exact ⟨rfl, rfl⟩

/-- No other event closes a peer. -/
lemma stop_of_closed (hopen : x.connection.peer.closed = false) (e : Event)
    (hclosed : (x.occur e).connection.peer.closed = true) : e = .stop := by
  cases e with
  | stop => rfl
  | cancel name =>
    rw [occur, cancel] at hclosed
    split at hclosed <;> simp [hopen] at hclosed
  | addCallback k =>
    rw [occur, (sent_addCallback x k).2, hopen] at hclosed
    cases hclosed
  | _ => exact absurd (hopen.symm.trans hclosed) Bool.false_ne_true

/-! ## Callers -/

/-- A task ends in its own turn only. -/
lemma eq_of_ended {t u : Task.Id} {a : Task.Activity Routine} {made : Nat}
    {os : List (Task.Id × Outcome Sexp Failure)} {progress : Task.Progress Routine Sexp Failure}
    {r : Outcome Sexp Failure} (turn : Task.Kernel.Turn x.kernel y.kernel u made os progress)
    (ha : x.kernel.activity? t = some a) (hr : y.kernel.outcome? t = some r) : u = t := by
  by_contra hne
  have hnone := turn.waking.unsettled ((turn.other t fun h => hne h.symm).trans ha)
  simp [hnone] at hr

/-- How a call ends whose future is settled: as the future was settled, unless its caller gives it
up; and if it still waits for the write buffer then, perhaps as that wait fails. -/
lemma Orderly.call_ends (hx : Orderly x h) {t : Task.Id} {a : Task.Activity Routine}
    {state : Connection.CallState} (ha : x.kernel.activity? t = some a)
    (hb : a.body = some (.calling state)) {limit : Float} (hstep : x.step? limit = some y)
    {r : Outcome Sexp Failure} (hr : y.kernel.outcome? t = some r) :
    match state with
    | .awaiting _ future => ∃ o, x.kernel.outcome? future = some o ∧
        r = if a.mustCancel then .cancelled else o
    | .draining _ future => x.kernel.outcome? future = some r ∨ r = .cancelled ∨
        (∃ m, r = .failure (.closed m)) ∨
        ∃ e : Failure, e.isSystem = false ∧ r = .failure e := by
  cases work_of_step? hx hstep with
  | cancelled ha' hb' hidle hasked turn =>
    cases eq_of_ended turn ha hr
    cases ha.symm.trans ha'
    have hplaced := hx.placed ha hb
    cases state with
    | awaiting uid future => simp [hplaced.1] at hidle
    | draining uid future =>
      obtain ⟨⟨d, hd, -⟩, -⟩ := hplaced
      simp [hd] at hidle
  | call ha' hb' begun turn =>
    cases eq_of_ended turn ha hr
    cases ha.symm.trans ha'
    simp [hb] at hb'
  | answered ha' hb' ho turn =>
    cases eq_of_ended turn ha hr
    cases ha.symm.trans ha'
    cases hb.symm.trans hb'
    exact ⟨_, ho, Option.some.inj (hr.symm.trans (turn.ended _ rfl).2)⟩
  | late ha' hb' told ho turn =>
    cases eq_of_ended turn ha hr
    cases ha.symm.trans ha'
    cases hb.symm.trans hb'
    exact .inl ((turn.ended _ rfl).2.symm.trans hr ▸ ho)
  | drained ha' hb' told went turn =>
    cases eq_of_ended turn ha hr
    cases ha.symm.trans ha'
    cases hb.symm.trans hb'
    cases went with
    | awaits hes => simp [(turn.waits _ _ rfl).1] at hr
    | drains hes hd => cases hd
    | leaves hes ho =>
      cases hr.symm.trans (turn.ended _ rfl).2
      exact .inr (ho.imp_right .inr)
    | breaks handled =>
      cases hr.symm.trans (turn.ended _ rfl).2
      exact .inr (.inr (.inl ⟨_, rfl⟩))
  | listens ha' hb' listened told turn =>
    cases eq_of_ended turn ha hr
    cases ha.symm.trans ha'
    simp [hb] at hb'
  | closes ha' hb' listened told why turn =>
    cases eq_of_ended turn ha hr
    cases ha.symm.trans ha'
    simp [hb] at hb'

/-- When no job is left, no call waits whose future is settled. -/
lemma Orderly.ready_of_settled (hx : Orderly x h) {t future : Task.Id} {uid : Nat}
    {a : Task.Activity Routine} {o : Outcome Sexp Failure} (ha : x.kernel.activity? t = some a)
    (hb : a.body = some (.calling (.awaiting uid future)))
    (ho : x.kernel.outcome? future = some o) : x.kernel.ready ≠ [] := by
  intro hready
  obtain ⟨g, hg, hnone⟩ := hx.waits hready ha
  cases (hx.placed ha hb).1.symm.trans hg
  simp [ho] at hnone

/-! ## After the end -/

/-- A closed peer stays closed and writes nothing. -/
lemma Shows.of_closed {es : List (Peer.Effect NamedCallback)} (hshows : Shows x y es)
    (hclosed : x.connection.peer.closed = true) :
    y.connection.peer.closed = true ∧ y.sent = x.sent := by
  have hnothing : frames es = [] := by
    refine List.eq_nil_iff_forall_not_mem.2 fun frame hframe => ?_
    simp [(hshows.outward.sends frame hframe).1] at hclosed
  exact ⟨hshows.outward.final hclosed, by rw [hshows.sent, hnothing, List.append_nil]⟩

lemma Leads.of_closed (hl : Leads x h y h') (hclosed : x.connection.peer.closed = true) :
    y.connection.peer.closed = true ∧ y.sent = x.sent := by
  induction hl with
  | refl => exact ⟨hclosed, rfl⟩
  | @occur y h' e _ ih =>
    by_cases he : ∃ k, e = .addCallback k
    · obtain ⟨k, rfl⟩ := he
      obtain ⟨hsent, hsame⟩ := sent_addCallback y k
      exact ⟨hsame.trans ih.1, hsent.trans ih.2⟩
    · obtain ⟨es, hshows, -⟩ := shows_occur e fun k heq => he ⟨k, heq⟩
      exact (hshows.of_closed ih.1).imp_right fun hsent => hsent.trans ih.2
  | work limit _ hstep ih =>
    rcases shows_of_step? hstep with ⟨es, hshows⟩ | ⟨k, t, method, args, hopen, -⟩
    · exact (hshows.of_closed ih.1).imp_right fun hsent => hsent.trans ih.2
    · simp [ih.1] at hopen

/-- A call that begins on a closed peer fails and changes nothing. -/
lemma Orderly.refused (hx : Orderly x h) (hclosed : x.connection.peer.closed = true)
    {limit : Float} {k : Task.Kernel Routine Empty Sexp Failure} {t : Task.Id} {method : Text}
    {args : List Sexp} (hnext : x.kernel.next? limit = some (k, .begin t (.call method args)))
    (hstep : x.step? limit = some y) :
    y.kernel.outcome? t = some (.failure (.closed Peer.closedMessage)) ∧
      y.connection = x.connection ∧ y.sent = x.sent := by
  simp only [step?, hnext, Option.some.injEq] at hstep
  have hbegin : begin { x with kernel := k } t (.call method args) =
      { x with kernel :=
          k.fresh.1.fresh.1.finish t (.failure (.closed Peer.closedMessage)) } := by
    simp only [begin, Connection.beginCall,
      Connection.issue_of_closed x.connection.peer _ _ method args hclosed]
    rfl
  obtain ⟨hopen, -, hlt⟩ := (hx.running_of_begin hnext).unsettled
  rw [← hstep, hbegin]
  exact ⟨Task.Kernel.outcome?_settle_self (Task.Kernel.IsOpen.fresh (.fresh ⟨hlt, hopen⟩)), rfl, rfl⟩

/-! ## Callbacks -/

/-- The callbacks that were run, followed by those that are still registered, are all that were ever
registered, in their order.  None is run before the peer is closed, and none is left then. -/
structure Tally (x : Exchange) (ks : List NamedCallback) : Prop where
  names : x.notified ++ x.connection.peer.callbacks.map (·.name) = ks.map (·.name)
  opened : x.connection.peer.closed = false → x.notified = []
  closed : x.connection.peer.closed = true → x.connection.peer.callbacks = []

namespace Tally

lemma outward {p : Peer NamedCallback} {es : List (Peer.Effect NamedCallback)} (hx : x.Tally ks)
    (hout : Outward p y.connection.peer es)
    (hcallbacks : p.callbacks = x.connection.peer.callbacks)
    (hclosed : p.closed = x.connection.peer.closed)
    (hnotified : y.notified = x.notified ++ (called es).map (·.name)) : y.Tally ks where
  names := by
    rw [hnotified, List.append_assoc, ← List.map_append, hout.calls, hcallbacks, hx.names]
  opened hy := by
    have hp : x.connection.peer.closed = false := by
      cases hp : x.connection.peer.closed with
      | false => rfl
      | true => simp [hout.final (hclosed.trans hp)] at hy
    rw [hnotified, hx.opened hp, hout.early hy]
    rfl
  closed := hout.all fun hp => hcallbacks.trans (hx.closed (hclosed.symm.trans hp))

lemma shows {es : List (Peer.Effect NamedCallback)} (hx : x.Tally ks) (hshows : Shows x y es) :
    y.Tally ks :=
  hx.outward hshows.outward rfl rfl hshows.notified

lemma step (hx : x.Tally ks) {limit : Float} (hstep : x.step? limit = some y) : y.Tally ks := by
  rcases shows_of_step? hstep with ⟨es, hshows⟩ | ⟨k, t, method, args, hopen, -, rfl⟩
  · exact hx.shows hshows
  · cases placing_begin hopen k t method args with
    | fails m kernel connection sent notified =>
      have hout : Outward (Connection.numbered x.connection.peer)
          (begin { x with kernel := k } t (.call method args)).connection.peer [] := by
        rw [connection]
        exact Connection.outward_nothing _
      exact hx.outward hout rfl rfl (notified.trans (List.append_nil _).symm)
    | issues frame es issued isFrame outward sent notified waits =>
      exact hx.outward outward rfl rfl notified

/-- A registration is kept until the peer closes, or run at once. -/
lemma add (hx : x.Tally ks) (k : NamedCallback) : (x.addCallback k).1.Tally (ks ++ [k]) := by
  rw [addCallback]
  split
  · next hclosed =>
    refine ⟨?_, fun hopen => absurd hclosed (by simpa using hopen), hx.closed⟩
    have hnames := hx.names
    rw [hx.closed hclosed] at hnames ⊢
    rw [List.map_append, ← hnames]
    simp
  · next hopen =>
    rw [Peer.addCallback, if_neg hopen]
    refine ⟨?_, hx.opened, fun hclosed => absurd hclosed hopen⟩
    rw [List.map_append, ← hx.names, List.append_assoc, ← List.map_append]
    rfl

end Tally

lemma tally_of_registers (hx : x.Tally []) (hr : Registers x h ks y h') : y.Tally ks := by
  induction hr with
  | refl => exact hx
  | add k _ ih => exact ih.add k
  | occur e he _ ih =>
    obtain ⟨es, hshows, -⟩ := shows_occur e he
    exact ih.shows hshows
  | work limit _ hstep ih => exact ih.step hstep

/-! ## What is promised -/

/-- What is promised about the end of a peer on which callbacks were registered. -/
structure Final (x : Exchange) (h : History) (ks : List NamedCallback) : Prop where
  /-- A closed peer stays closed, and nothing is written any more. -/
  stays : x.connection.peer.closed = true → ∀ y h', Leads x h y h' →
    y.connection.peer.closed = true ∧ y.sent = x.sent
  /-- Not even by the operation that closes it. -/
  silent : ∀ c es, x.connection.Operates c es → ∀ before after,
    es = before ++ .closeConnection :: after → frames after = []
  /-- On a closed peer no call waits. -/
  empty : x.connection.peer.closed = true → x.connection.peer.pending = []
  /-- Later calls fail and change nothing. -/
  refused : x.connection.peer.closed = true → ∀ limit k t method args y,
    x.kernel.next? limit = some (k, .begin t (.call method args)) → x.step? limit = some y →
    y.kernel.outcome? t = some (.failure (.closed Peer.closedMessage)) ∧
      y.connection = x.connection ∧ y.sent = x.sent
  /-- Closing the connection from this side fails the calls that wait. -/
  stopped : x.connection.peer.closed = false → x.stop.connection.peer.closed = true ∧
    ∀ c ∈ x.connection.peer.pending, x.kernel.outcome? c.future = none →
      x.stop.kernel.outcome? c.future = some (.failure (.closed Peer.closedMessage))
  /-- Nothing else from outside closes a peer. -/
  events : x.connection.peer.closed = false → ∀ e,
    (x.occur e).connection.peer.closed = true → e = .stop
  /-- Any job that closes the peer settles the calls that wait, too. -/
  broken : x.connection.peer.closed = false → ∀ limit y, x.step? limit = some y →
    y.connection.peer.closed = true → Breaks x y h (note h x limit y)
  /-- A caller is told how its call was settled, unless it gives the call up. -/
  told : ∀ t a uid future o, x.kernel.activity? t = some a →
    a.body = some (.calling (.awaiting uid future)) → x.kernel.outcome? future = some o →
    x.kernel.ready ≠ [] ∧ ∀ limit y r, x.step? limit = some y → y.kernel.outcome? t = some r →
      r = if a.mustCancel then .cancelled else o
  /-- So is a caller that still waits for the write buffer, unless that wait fails. -/
  drained : ∀ t a uid future o, x.kernel.activity? t = some a →
    a.body = some (.calling (.draining uid future)) → x.kernel.outcome? future = some o →
    ∀ limit y r, x.step? limit = some y → y.kernel.outcome? t = some r →
      r = o ∨ r = .cancelled ∨ (∃ m, r = .failure (.closed m)) ∨
        ∃ e : Failure, e.isSystem = false ∧ r = .failure e
  /-- Every registration is run once, in order, when the peer is closed or at once after that. -/
  callbacks : x.Tally ks
  /-- While callbacks run the peer is closed, so that closing it once more does nothing. -/
  reentrant : ∀ c es, x.connection.Operates c es → ∀ before k after,
    es = before ++ .callback k :: after → (x.applyAll c before).stop = x.applyAll c before

/-- **Closing is final and complete.**  In every state that a run has reached, in any order of calls,
cancellations, chunks, faults, registrations and jobs. -/
theorem final_of_registers (hr : Registers (start {}) {} ks x h) : Final x h ks := by
  have hx : Orderly x h := orderly_of_run hr.leads
  refine
    { stays := fun hclosed y h' hl => hl.of_closed hclosed
      silent := fun c es hop before after heq => hop.silent heq
      empty := hx.ledger.closed
      refused := fun hclosed limit k t method args y hnext hstep =>
        hx.refused hclosed hnext hstep
      stopped := fun hopen => ⟨?_, fun c hc hnone => hx.stop_settles hopen hc hnone⟩
      events := fun hopen e hclosed => stop_of_closed hopen e hclosed
      broken := fun hopen limit y hstep hclosed =>
        hx.breaks (work_of_step? hx hstep) hopen hclosed
      told := fun t a uid future o ha hb ho =>
        ⟨hx.ready_of_settled ha hb ho, fun limit y r hstep hr => ?_⟩
      drained := fun t a uid future o ha hb ho limit y r hstep hr => ?_
      callbacks := tally_of_registers ⟨rfl, fun _ => rfl, fun _ => rfl⟩ hr
      reentrant := fun c es hop before k after heq => ?_ }
  · obtain ⟨l, hl, -⟩ := hx.listener
    rw [stop_eq hopen hl, peer_applyAll]
    exact Peer.closed_close _ _ _
  · obtain ⟨o', ho', rfl⟩ := hx.call_ends ha hb hstep hr
    rw [Option.some.inj (ho.symm.trans ho')]
  · exact (hx.call_ends ha hb hstep hr).imp_left fun hr => Option.some.inj (hr.symm.trans ho)
  · have hclosed : c.peer.closed = true := hop.closed_of_callback (k := k) (by simp [heq])
    rw [stop, if_pos (by rw [peer_applyAll, hclosed])]

lemma Registers.run (hr : Registers x h ks y h') (limit : Float) (fuel : Nat) :
    ∃ h'', Registers x h ks (y.run limit fuel) h'' := by
  induction fuel generalizing y h' with
  | zero => exact ⟨h', hr⟩
  | succ fuel ih =>
    rw [Exchange.run]
    split
    · exact ⟨h', hr⟩
    · next z hstep => exact ih (hr.work limit hstep)

/-- A callback that will fail is registered, and a call waits; then a header arrives that is corrupt,
and another callback is registered. -/
def derailed : Exchange :=
  let x := (start {}).settle.occur (.addCallback ⟨"first", some ⟨.other "KeyError", "gone"⟩⟩)
  let x := (x.occur (.call "a" "m" [])).settle
  let x := (x.occur (.data (List.replicate 6 0x7a))).settle
  x.occur (.addCallback ⟨"second", none⟩)

/-- Both callbacks were run, and the call failed. -/
theorem final_derailed :
    ∃ h, Registers (start {}) {} [⟨"first", some ⟨.other "KeyError", "gone"⟩⟩, ⟨"second", none⟩]
        derailed h ∧
      Final derailed h [⟨"first", some ⟨.other "KeyError", "gone"⟩⟩, ⟨"second", none⟩] ∧
      derailed.connection.peer.closed = true ∧ derailed.notified = ["first", "second"] ∧
      (match (derailed.taskOf "a").bind derailed.kernel.outcome? with
        | some (.failure (.protocol _)) => true
        | _ => false) = true := by
  obtain ⟨_, hr⟩ := (Registers.refl (x := start {}) (h := {})).run _ _
  obtain ⟨_, hr⟩ := ((hr.add ⟨"first", some ⟨.other "KeyError", "gone"⟩⟩).occur (.call "a" "m" [])
    nofun).run _ _
  obtain ⟨_, hr⟩ := (hr.occur (.data (List.replicate 6 0x7a)) nofun).run _ _
  have hall := hr.add ⟨"second", none⟩
  exact ⟨_, hall, final_of_registers hall, by decide +kernel, by decide +kernel, by decide +kernel⟩

end Exchange

end SuggestBridge
