import SuggestBridge.Proofs.Peer.Correlation
import SuggestBridge.Proofs.Peer.Finality

/-!
# A corrupt header

Six bytes that are no header end a stream.  The frames that earlier chunks completed have been
delivered by then; those that arrive complete in the same chunk as the corrupt header are lost, and
the calls that they reply to fail like all others that still wait.  What becomes of a call therefore
depends on how the stream is cut.
-/

namespace SuggestBridge

/-! ## A chunk with a corrupt header -/

namespace Connection

open Peer (Handled Distinct)

variable {κ : Type} {isDone : Task.Id → Bool} {c : Connection κ} {e : Frame.HeaderError}
  {rest : Bytes}

/-- A chunk that shows a corrupt header is read, and no payload of it is treated. -/
lemma absorb_corrupt (hbuffer : c.incoming.buffer ≠ [])
    (hshort : c.incoming.buffer.length ≤ chunkSize)
    (hcorrupt : Frame.drain (c.peer.buffer ++ c.incoming.buffer) = ⟨.error e, rest⟩) (now : Float)
    (fuel : Nat) :
    c.absorb isDone now (fuel + 1) =
      ({ c with
          peer := ({ c.peer with buffer := rest }.rejectAll isDone (.protocol e.message)).1
          incoming := { c.incoming with buffer := [] } },
        .log (Log.error ("EPC stream desynchronized: " ++ e.message)) ::
          ({ c.peer with buffer := rest }.rejectAll isDone (.protocol e.message)).2,
        .ended (some e.message)) := by
  have hreceive : ∀ fault, c.peer.receive isDone now fault c.incoming.buffer =
      (({ c.peer with buffer := rest }.rejectAll isDone (.protocol e.message)).1,
        .log (Log.error ("EPC stream desynchronized: " ++ e.message)) ::
          ({ c.peer with buffer := rest }.rejectAll isDone (.protocol e.message)).2,
        .stop (some e.message)) := fun fault => by
    rw [Peer.receive, Frame.feed, hcorrupt]
  rw [absorb]
  simp only [Task.Stream.take, List.take_of_length_le hshort, List.drop_of_length_le hshort,
    hreceive, List.isEmpty_iff, if_neg hbuffer]

/-- In the turn in which the listener reads a corrupt header, the peer is closed and every call that
waits fails. -/
lemma resumeListening_corrupt {ν : Type} (hc : c.peer.Distinct)
    (hbuffer : c.incoming.buffer ≠ [])
    (hshort : c.incoming.buffer.length ≤ chunkSize)
    (hcorrupt : Frame.drain (c.peer.buffer ++ c.incoming.buffer) = ⟨.error e, rest⟩) (now : Float)
    (v : ν) :
    ∃ d es, c.resumeListening isDone now (.value v) = (d, es, .ended (some e.message)) ∧
      d.peer.closed = true ∧
      Handled c.peer d.peer isDone (fun _ => some (.error (.protocol e.message))) es := by
  have habsorb := @absorb_corrupt _ isDone c e rest hbuffer hshort hcorrupt now
    (c.incoming.buffer.length + 1)
  have hbuffered : Distinct { c.peer with buffer := rest } := hc
  have hreject := Peer.handled_rejectAll hbuffered isDone (.protocol e.message)
  have hclose := Peer.handled_close (hreject.distinct hbuffered) (fun _ => rfl) isDone
    (some e.message)
  have hall := hreject.trans hclose hbuffered
  refine ⟨_, _, by rw [resumeListening, absorbFuel, habsorb]; rfl, ?_, ?_⟩
  · exact Peer.closed_close _ isDone (some e.message)
  · exact ⟨hall.pending, hall.nextUid, hall.settled, hall.once⟩

end Connection

/-! ## The job in which it is read -/

namespace Exchange

open SuggestBridge.Frame (Whole bytesOf)
open Peer (History firstVerdict outcomesOf settlements Justified)
open SuggestBridge.Task (Outcome)
open SuggestBridge.Task.Kernel (Running Turn)

variable {x : Exchange} {h : History} {chunk : Bytes} {e : Frame.HeaderError} {rest : Bytes}

/-- When no job is left, the listener waits for bytes, and nobody else does. -/
lemma Quiet.listener_waits (hq : x.Quiet) (hx : Orderly x h) :
    ∃ l a w, x.kernel.activity? l = some a ∧ a.body = some .listen ∧ a.waitingFor = some w ∧
      x.kernel.IsOpen w ∧ x.Spare h w ∧ x.connection.incoming.waiter = some w ∧
      ∃ watchers, x.kernel.watchers w = .wake l :: watchers := by
  obtain ⟨l, a, ha, hb⟩ := hx.exists_listener hq.opened
  obtain ⟨w, hw, hnone⟩ := hx.waits hq.ready ha
  obtain ⟨hlistener, -, -, hwaits⟩ := hx.placed ha hb
  obtain ⟨hspare, hopen⟩ := hwaits w hw
  have hwaiter := (hopen hnone).1
  refine ⟨l, a, w, ha, hb, hw, ⟨hspare.1, hnone⟩, hspare, hwaiter, ?_⟩
  have hawaited := hx.waking.awaited ha hw
  rw [hq.ready, or_iff_left List.not_mem_nil] at hawaited
  cases hwatchers : x.kernel.watchers w with
  | nil => simp [hwatchers] at hawaited
  | cons first watchers =>
    obtain ⟨t, rfl⟩ := hx.tasksOnly.watchers (show first ∈ x.kernel.watchers w by simp [hwatchers])
    obtain ⟨-, b, hb', hbw⟩ := hx.waking.watching
      (show .wake t ∈ x.kernel.watchers w by simp [hwatchers])
    obtain ⟨r, hr⟩ := hx.waking.body hb' (by simp)
    have hplaced := hx.placed hb' hr
    -- a call waits for its own future or for the write buffer
    have ht : t = l := by
      cases r with
      | call method args => simp [hplaced.1] at hbw
      | listen => exact Option.some.inj (hplaced.1.symm.trans hlistener)
      | calling state =>
        cases state with
        | awaiting uid future =>
          obtain ⟨hg, ⟨i, hi, -, -, rfl⟩, -⟩ := hplaced
          cases hg.symm.trans hbw
          exact absurd rfl (hspare.2.2 i hi)
        | draining uid future =>
          obtain ⟨⟨g, hg, -, hdraining⟩, -⟩ := hplaced
          cases hg.symm.trans hbw
          exact absurd (hdraining hnone) (hx.waiter _ hwaiter).2
    exact ⟨watchers, by rw [ht]⟩

/-- When no job is left and bytes arrive, the next job is the turn of the listener, which reads
them. -/
lemma Quiet.reads (hq : x.Quiet) (hx : Orderly x h) (hchunk : chunk ≠ []) (limit : Float) :
    ∃ l a k, (x.data chunk).kernel.activity? l = some a ∧
      Running (x.data chunk).kernel k l 0 [] ∧
      (x.data chunk).connection.peer = x.connection.peer ∧
      (x.data chunk).connection.incoming.buffer = chunk ∧
      (∀ i ∈ h.issues, (x.data chunk).kernel.outcome? i.future = x.kernel.outcome? i.future) ∧
      (x.data chunk).step? limit = some (pause { x.data chunk with kernel := k } l
        ((x.data chunk).connection.resumeListening (x.data chunk).kernel.isDone k.now
          (.value (default : Sexp)))) := by
  obtain ⟨l, a, w, ha, hb, hw, hopen, hspare, hwaiter, watchers, hwatchers⟩ := hq.listener_waits hx
  obtain ⟨hempty, hended, -⟩ := hx.stream hq.ready hq.opened
  obtain ⟨hy, -⟩ := hx.data chunk
  have hdata : x.data chunk = { x with
      kernel := x.kernel.settle w (.value default)
      connection := { x.connection with
        incoming := { x.connection.incoming with buffer := chunk, waiter := none } } } := by
    have hsome : ¬(chunk.isEmpty || x.connection.incoming.ended) = true := by simp [hended, hchunk]
    rw [Exchange.data, onIncoming, Task.Stream.feed, if_neg hsome, Task.Stream.notify, hwaiter]
    simp [hempty]
  have hready : (x.data chunk).kernel.ready =
      .notify (.wake l) w :: watchers.map (Task.Job.notify · w) := by
    rw [hdata, Task.Kernel.ready_settle hopen, hq.ready, hwatchers]
    rfl
  obtain ⟨n, hnext⟩ := Task.Kernel.next?_eq hy.tasksOnly.timers limit
  obtain ⟨a', b, o, k, ha', hb', hg, ho, hperform, htaken⟩ :=
    Task.Kernel.perform_notify_wake hy.waking hready n
  have hsame : (x.data chunk).kernel.activity? l = some a := by
    rw [hdata, Task.Kernel.activity?_settle_of_plain hspare.2.1, ha]
  have hbytes : (x.data chunk).kernel.outcome? w = some (.value default) := by
    rw [hdata, Task.Kernel.outcome?_settle_self hopen]
  cases hsame.symm.trans ha'
  cases hb.symm.trans hb'
  cases hbytes.symm.trans ho
  have hmust : a.mustCancel = false := by
    by_contra hmust
    have hclosed := (hx.placed ha hb).2.1 (by simpa using hmust)
    simp [hq.opened] at hclosed
  have hrunning := Running.of_taken hready hy.tasksOnly htaken
  refine ⟨l, a, k, hsame, hrunning, by rw [hdata], by rw [hdata], fun i hi => ?_, ?_⟩
  · rw [hdata, Task.Kernel.outcome?_settle_of_ne (hspare.2.2 i hi)]
  · rw [hready] at hnext
    dsimp only at hnext
    rw [hperform, if_neg (by simp [hmust])] at hnext
    rw [step?, hnext, ← isDone_of_running hrunning]
    rfl

/-- The listener pauses: what it wrote is sent, and the calls that wait are settled by the verdicts
on them. -/
lemma pause_handled (hx : Orderly x h) {k : Task.Kernel Routine Empty Sexp Failure} {l : Task.Id}
    {a : Task.Activity Routine} (ha : x.kernel.activity? l = some a)
    (hrun : Running x.kernel k l 0 []) {d : Connection NamedCallback}
    {es : List (Peer.Effect NamedCallback)} (why : Connection.Pause)
    {verdict : Nat → Option (Except Failure Sexp)}
    (handled : Peer.Handled x.connection.peer d.peer x.kernel.isDone verdict es) :
    (pause { x with kernel := k } l (d, es, why)).connection.peer = d.peer ∧
      (pause { x with kernel := k } l (d, es, why)).sent = x.sent ++ Peer.frames es ∧
      (∀ u o, x.kernel.outcome? u = some o →
        (pause { x with kernel := k } l (d, es, why)).kernel.outcome? u = some o) ∧
      ∀ c ∈ x.connection.peer.pending, x.kernel.outcome? c.future = none →
        (pause { x with kernel := k } l (d, es, why)).kernel.outcome? c.future =
          (verdict c.uid).map Outcome.ofExcept := by
  have hplain : ∀ f r, (f, r) ∈ settlements es → f < k.futures.size ∧ k.activity? f = none := by
    intro f r hmem
    obtain ⟨p, hp, rfl, -⟩ := (handled.settled f r).1 hmem
    exact hrun.plain ha (hx.pending_plain p hp)
  have hrunning := @running_applyAll { x with kernel := k } _ _ _ hrun d es hplain
  have hpeer : (applyAll { x with kernel := k } d es).connection.peer = d.peer := peer_applyAll _ d es
  obtain ⟨hsent, -⟩ := records_applyAll { x with kernel := k } d es
  have hturn : ∃ made progress, Turn x.kernel (pause { x with kernel := k } l (d, es, why)).kernel l
      made (outcomesOf es) progress := by
    cases why with
    | ended cause => exact ⟨_, _, hrunning.ends (.value .nil)⟩
    | blocked =>
      refine ⟨_, _, hrunning.fresh.waits .listen ?_⟩
      rw [hrunning.fresh.size, hrunning.size]
      exact Nat.lt_succ_self _
  obtain ⟨made, progress, hturn⟩ := hturn
  refine ⟨?_, ?_, fun u o ho => hturn.outcome_eq_some ho, fun c hc hopen => ?_⟩
  · cases why <;> exact hpeer
  · cases why <;> exact hsent
  · exact hx.settled_of_handled ha hturn hx.ledger.distinct handled hc hc hopen

/-- The listener reads a corrupt header: the peer is closed and the calls that wait fail. -/
lemma pause_corrupt (hx : Orderly x h) {k : Task.Kernel Routine Empty Sexp Failure} {l : Task.Id}
    {a : Task.Activity Routine} (ha : x.kernel.activity? l = some a)
    (hrun : Running x.kernel k l 0 []) {d : Connection NamedCallback}
    {es : List (Peer.Effect NamedCallback)} (cause : Option Text) {failure : Failure}
    (hclosed : d.peer.closed = true)
    (handled : Peer.Handled x.connection.peer d.peer x.kernel.isDone
      (fun _ => some (.error failure)) es) :
    (pause { x with kernel := k } l (d, es, .ended cause)).connection.peer.closed = true ∧
      (∀ u o, x.kernel.outcome? u = some o →
        (pause { x with kernel := k } l (d, es, .ended cause)).kernel.outcome? u = some o) ∧
      ∀ c ∈ x.connection.peer.pending, x.kernel.outcome? c.future = none →
        (pause { x with kernel := k } l (d, es, .ended cause)).kernel.outcome? c.future =
          some (.failure failure) := by
  obtain ⟨hpeer, -, hkept, hsettled⟩ := pause_handled hx ha hrun (.ended cause) handled
  exact ⟨hpeer ▸ hclosed, hkept, hsettled⟩

/-- What becomes of a connection that was at rest in `x` when a chunk arrives in which a stream,
whole frames and then six bytes that are no header, shows the corrupt header: after the next job it
is `z`. -/
structure Derailed (x : Exchange) (h : History) (ws : List Whole) (e : Frame.HeaderError)
    (z : Exchange) : Prop where
  /-- Some of the frames were received in earlier chunks; the others arrive in the last one. -/
  cut : ∃ late, ws.map Whole.payload = h.received ++ late
  /-- The calls that have an outcome have it from a reply in one of the first, or have been given
  up, and they keep it. -/
  replied : ∀ i ∈ h.issues, ∀ o, x.kernel.outcome? i.future = some o →
    z.kernel.outcome? i.future = some o ∧ (o = .cancelled ∨
      ∃ r, o = .ofExcept r ∧ firstVerdict i.uid (h.since i) = some r)
  /-- To a call that waits none of the first replies. -/
  waited : ∀ c ∈ x.connection.peer.pending, ∃ i ∈ h.issues, i.uid = c.uid ∧ i.future = c.future ∧
    firstVerdict i.uid (h.since i) = none
  /-- It fails for the corrupt header, even if one of the others replies to it. -/
  lost : ∀ c ∈ x.connection.peer.pending, x.kernel.outcome? c.future = none →
    z.kernel.outcome? c.future = some (.failure (.protocol e.message))
  closed : z.connection.peer.closed = true

/-- **Replies that arrive together with a corrupt header are lost.**  In any run: when no job is left
and a chunk arrives that completes six bytes which are no header, then the listener's next turn
closes the peer.  Calls are settled by replies that earlier chunks completed; all others fail, also
those whose replies the last chunk holds in full, before the corrupt header. -/
theorem derailed_of_run (hrun : Run x h) (hq : x.Quiet) {ws : List Whole} {tail : Bytes}
    (hchunk : chunk ≠ []) (hshort : chunk.length ≤ Connection.chunkSize)
    (hstream : h.read ++ chunk = bytesOf ws ++ tail) (hheader : Frame.front tail = .corrupt e)
    (limit : Float) : ∃ z, (x.data chunk).step? limit = some z ∧ Derailed x h ws e z := by
  have hx := orderly_of_run hrun
  obtain ⟨l, a, k, ha, hrunning, hpeer, hbuffer, hfutures, hstep⟩ := hq.reads hx hchunk limit
  obtain ⟨hy, -⟩ := hx.data chunk
  have hdrained := hx.drained hq.opened
  have hcorrupt : Frame.drain ((x.data chunk).connection.peer.buffer ++
      (x.data chunk).connection.incoming.buffer) = ⟨.error e, tail⟩ := by
    have hall : Frame.drain (h.read ++ chunk) = ⟨.error e, tail⟩ :=
      Frame.drain_eq_error_iff.2 ⟨ws, hstream, hheader⟩
    rw [hpeer, hbuffer]
    rw [Frame.drain_append_of_ok hdrained] at hall
    generalize Frame.drain (x.connection.peer.buffer ++ chunk) = fed at hall ⊢
    obtain ⟨payloads, buffer⟩ := fed
    cases payloads <;> cases hall
    rfl
  obtain ⟨d, es, hlisten, hclosed, handled⟩ :=
    @Connection.resumeListening_corrupt _ (x.data chunk).kernel.isDone _ _ _ _ hy.ledger.distinct
      (by rw [hbuffer]; exact hchunk) (by rw [hbuffer]; exact hshort) hcorrupt k.now (default : Sexp)
  obtain ⟨hafter, hkept, hlost⟩ :=
    pause_corrupt hy ha hrunning (some e.message) hclosed handled
  rw [hlisten] at hstep
  refine ⟨_, hstep, ?_⟩
  exact
    { cut := by
        obtain ⟨late, hlate⟩ := Frame.leading_append h.read chunk
        refine ⟨late, ?_⟩
        rw [History.received, ← hlate, hstream, Frame.leading_bytesOf_append,
          Frame.leading_of_front (by simp [hheader]), List.append_nil]
      replied := fun i hi o ho => by
        refine ⟨hkept _ _ ((hfutures i hi).trans ho), ?_⟩
        refine (hx.ledger.settled i hi o ho).imp id ?_
        rintro ⟨r, hr, hverdict | ⟨hclosed, -⟩⟩
        · exact ⟨r, hr, hverdict⟩
        · simp [hq.opened] at hclosed
      waited := hx.ledger.entries
      lost := fun c hc hopen => by
        obtain ⟨i, hi, -, hfuture, -⟩ := hx.ledger.entries c hc
        refine hlost c (hpeer ▸ hc) ?_
        rw [← hfuture, hfutures i hi, hfuture, hopen]
      closed := hafter }

/-- The reply `7` to the first call, as a frame. -/
def firstReply : Whole :=
  ⟨Frame.hexBytes 6 12, [0x28, 0x72, 0x65, 0x74, 0x75, 0x72, 0x6e, 0x20, 0x31, 0x20, 0x37, 0x29],
    by decide, by decide⟩

/-- Six bytes that are no header. -/
def noHeader : Bytes := List.replicate 6 0x7a

/-- Two calls wait, and the reply to the first arrives together with a corrupt header: both fail. -/
theorem derailed_twoCalls :
    ∃ h ws z, Run twoCalls h ∧ twoCalls.Quiet ∧
      (twoCalls.data (firstReply.bytes ++ noHeader)).step? 0 = some z ∧
      Derailed twoCalls h (ws ++ [firstReply]) ⟨noHeader⟩ z ∧
      ∀ c ∈ twoCalls.connection.peer.pending, z.kernel.outcome? c.future =
        some (.failure (.protocol (Frame.HeaderError.message ⟨noHeader⟩))) := by
  have hstart : Run (start {}) {} := .refl
  obtain ⟨_, hlistening⟩ := hstart.settle
  obtain ⟨h, hrun⟩ := ((hlistening.call "a" "m" []).call "b" "m" []).settle
  rw [← twoCalls] at hrun
  have hquiet : twoCalls.Quiet := ⟨List.isEmpty_iff.1 (by decide +kernel), by decide +kernel⟩
  have hempty : twoCalls.connection.peer.buffer = [] := by decide +kernel
  obtain ⟨ws, hread, -, -⟩ := Frame.drain_eq_ok_iff.1
    (hempty ▸ (orderly_of_run hrun).drained hquiet.opened)
  have hstream : h.read ++ (firstReply.bytes ++ noHeader) =
      bytesOf (ws ++ [firstReply]) ++ noHeader := by
    rw [hread]
    simp [bytesOf]
  have hchunk : firstReply.bytes ++ noHeader ≠ [] := by decide
  have hheader : Frame.front noHeader = .corrupt ⟨noHeader⟩ := by decide
  obtain ⟨z, hz, hderailed⟩ :=
    derailed_of_run hrun hquiet hchunk (by decide) hstream hheader 0
  refine ⟨h, ws, z, hrun, hquiet, hz, hderailed, fun c hc => hderailed.lost c hc ?_⟩
  have hopen : twoCalls.connection.peer.pending.all
      (fun c => (twoCalls.kernel.outcome? c.future).isNone) = true := by decide +kernel
  simpa using List.all_eq_true.1 hopen c hc

/-- The same bytes in two chunks: the first call has its reply and only the second fails. -/
theorem outcome_depends_on_cut :
    let together := (twoCalls.data (firstReply.bytes ++ noHeader)).settle
    let apart := ((twoCalls.data firstReply.bytes).settle.data noHeader).settle
    (match (together.taskOf "a").bind together.kernel.outcome? with
      | some (.failure (.protocol _)) => true
      | _ => false) = true ∧
    (match (apart.taskOf "a").bind apart.kernel.outcome? with
      | some (.value (.int 7)) => true
      | _ => false) = true := by
  decide +kernel

end Exchange

end SuggestBridge
