import SuggestBridge.Proofs.Peer.Corruption
import SuggestBridge.Proofs.Peer.Reception
import SuggestBridge.Proofs.Peer.Sending

/-!
# Calls of the other side

A call of the other side is refused: one frame is written, which gives its number back, and nothing
else changes, so whoever waits for a reply still gets it.  That holds as long as the refusal can be
put into a frame.  Where it cannot, because the number is a symbol that cannot be written, because a
lone surrogate is to be sent or because the answer is too long, nothing is written, and the
connection ends with the calls that wait on it (`refusing_of_run`).
-/

namespace SuggestBridge

namespace Sexp

lemma Readable.plain {v : Sexp} (h : Readable v) : v.Plain := by
  induction h with
  | nil => exact .nil
  | int _ => exact .int _
  | string t => exact .string t
  | symbol name => exact .symbol name
  | list _ ih => exact .list ih
  | cons _ _ iha ihd => exact .cons iha ihd

/-- What was read can be shown in a message. -/
lemma Readable.exists_display {v : Sexp} (h : Readable v) : ∃ shown, v.display = .ok shown := by
  cases h with
  | string t => exact ⟨t, rfl⟩
  | symbol name => exact ⟨name, rfl⟩
  | nil => exact ⟨_, rfl⟩
  | int hn => exact (Readable.int hn).exists_shown
  | list hall => exact (Readable.list hall).exists_shown
  | cons ha hd => exact (Readable.cons ha hd).exists_shown

end Sexp

namespace Peer

variable {κ : Type} {p q : Peer κ} {isDone : Task.Id → Bool}

/-! ## Answers -/

/-- The text of a refusal. -/
def refusalText (shown : Text) : Text := "Method calls are not supported: " ++ shown

/-- The frame of the refusal of a call, if it can be put into one. -/
def refusal? (uid subject : Sexp) : Option Bytes :=
  match subject.display with
  | .error _ => none
  | .ok shown => (frameOf (refusalMessage uid (refusalText shown))).toOption

/-- The frame that a payload is answered with, if any. -/
def answer? (payload : Text) : Option Bytes :=
  match message payload with
  | .request uid subject => refusal? uid subject
  | _ => none

/-- A payload that a peer can treat and go on: everything in it can be read, and if it is a call of
the other side then it can be refused. -/
def Treatable (payload : Text) : Prop :=
  message payload ≠ .unreadable ∧
    ∀ uid subject, message payload = .request uid subject → ∃ frame, refusal? uid subject = some frame

/-- An open peer refuses a call, or ends the connection. -/
lemma refuse_eq (hopen : p.closed = false) (uid subject : Sexp) :
    p.refuse none uid subject =
      match refusal? uid subject with
      | some frame => ([.send frame], .proceed)
      | none => ([], .stop none) := by
  rw [refuse, refusal?]
  cases subject.display with
  | error e => rfl
  | ok shown =>
    simp only [hopen, Bool.false_eq_true, if_false, refusalText]
    cases frameOf (refusalMessage uid ("Method calls are not supported: " ++ shown)) <;> rfl

/-- The parts of a call of the other side. -/
lemma read_of_message_eq_request {payload : Text} {uid subject : Sexp}
    (h : message payload = .request uid subject) :
    ∃ kind more, Sexp.read payload = .ok (.list (.symbol kind :: uid :: subject :: more)) ∧
      (kind = Text.ofString "call" ∨ kind = Text.ofString "methods") := by
  unfold message at h
  split at h
  · cases h
  · cases h
  · next v hread =>
    split at h
    · cases h
    · next kind uid' value hparts =>
      split at h
      · next hkind =>
        cases h
        unfold parts? at hparts
        split at hparts
        · next more =>
          cases hparts
          exact ⟨kind, more, hread, hkind⟩
        · cases hparts
      · cases h

/-- A refusal gives the number back, and says what cannot be called. -/
lemma conveys_refusal {payload : Text} {uid subject : Sexp} {frame : Bytes}
    (h : message payload = .request uid subject) (hframe : refusal? uid subject = some frame) :
    ∃ shown, subject.display = .ok shown ∧
      Conveys frame (refusalMessage uid (refusalText shown)) := by
  obtain ⟨kind, more, hread, -⟩ := read_of_message_eq_request h
  have hcanon : uid.canon = uid := by
    cases Sexp.readable_of_read hread with
    | list hall => exact (hall uid (by simp)).plain.canon
  rw [refusal?] at hframe
  split at hframe
  · cases hframe
  · next shown hshown =>
    refine ⟨shown, hshown, ?_⟩
    cases hframeOf : frameOf (refusalMessage uid (refusalText shown)) with
    | error e => simp [hframeOf, Except.toOption] at hframe
    | ok frame' =>
      rw [hframeOf] at hframe
      cases hframe
      have hconveys := (isFrameOf_of_frameOf hframeOf).conveys
      rwa [canon_refusalMessage, hcanon] at hconveys

/-- Only the frame can be what stands against a refusal. -/
lemma frameOf_of_refusal?_eq_none {payload : Text} {uid subject : Sexp}
    (h : message payload = .request uid subject) (hnone : refusal? uid subject = none) :
    ∃ shown e, subject.display = .ok shown ∧
      frameOf (refusalMessage uid (refusalText shown)) = .error e := by
  obtain ⟨kind, more, hread, -⟩ := read_of_message_eq_request h
  obtain ⟨shown, hshown⟩ : ∃ shown, subject.display = .ok shown := by
    cases Sexp.readable_of_read hread with
    | list hall => exact (hall subject (by simp)).exists_display
  rw [refusal?, hshown] at hnone
  cases hframe : frameOf (refusalMessage uid (refusalText shown)) with
  | error e => exact ⟨shown, e, hshown, hframe⟩
  | ok frame => simp [hframe, Except.toOption] at hnone

/-! ## Payloads one after the other -/

/-- The treatment of a call of the other side on an open peer. -/
lemma dispatch_request (hopen : p.closed = false) {payload : Text} {uid subject : Sexp}
    (h : message payload = .request uid subject) (isDone : Task.Id → Bool) (now : Float) :
    p.dispatch isDone now none payload =
      match refusal? uid subject with
      | some frame => (p, [.send frame], .proceed)
      | none => (p, [], .stop none) := by
  rw [dispatch_eq, h]
  dsimp only
  rw [refuse_eq hopen]
  cases refusal? uid subject <;> rfl

/-- A payload is treated and answered, and the peer stays open. -/
lemma dispatch_treatable (hopen : p.closed = false) {payload : Text} (h : Treatable payload)
    (isDone : Task.Id → Bool) (now : Float) :
    (p.dispatch isDone now none payload).2.2 = .proceed ∧
      (p.dispatch isDone now none payload).1.closed = false ∧
      frames (p.dispatch isDone now none payload).2.1 = (answer? payload).toList := by
  have hclosed : (p.dispatch isDone now none payload).1.closed = false := by
    rw [dispatch_fst]
    exact hopen
  rw [answer?]
  cases hmessage : message payload with
  | unreadable => exact absurd hmessage h.1
  | invalid =>
    have hinner := isInner_rejectAll p isDone (.protocol invalidMessage)
    rw [dispatch_eq, hmessage] at hclosed ⊢
    exact ⟨rfl, hclosed, frames_of_inner (List.forall_mem_cons.2 ⟨trivial, hinner⟩)⟩
  | request uid subject =>
    obtain ⟨frame, hframe⟩ := h.2 uid subject hmessage
    simp only [dispatch_request hopen hmessage, hframe]
    exact ⟨trivial, hopen, rfl⟩
  | reply kind uid value =>
    rw [dispatch_eq, hmessage] at hclosed ⊢
    exact ⟨reply_proceeds p isDone now hmessage, hclosed,
      frames_of_inner (isInner_reply p isDone now kind uid value)⟩

lemma dispatchAll_treatable (hopen : p.closed = false) {payloads : List Text}
    (h : ∀ payload ∈ payloads, Treatable payload) (isDone : Task.Id → Bool) (now : Float) :
    (p.dispatchAll isDone now none payloads).2.2 = .proceed ∧
      (p.dispatchAll isDone now none payloads).1.closed = false ∧
      frames (p.dispatchAll isDone now none payloads).2.1 = payloads.filterMap answer? := by
  induction payloads generalizing p with
  | nil => exact ⟨rfl, hopen, rfl⟩
  | cons payload payloads ih =>
    obtain ⟨hpayload, h⟩ := List.forall_mem_cons.1 h
    obtain ⟨hproceed, hstays, hframes⟩ := dispatch_treatable hopen hpayload isDone now
    rw [dispatchAll]
    rcases hdispatch : p.dispatch isDone now none payload with ⟨q, es, verdict⟩
    rw [hdispatch] at hproceed hstays hframes
    cases hproceed
    obtain ⟨hproceed', hstays', hframes'⟩ := ih hstays h
    refine ⟨hproceed', hstays', ?_⟩
    dsimp only at hframes ⊢
    rw [frames_append, hframes, hframes', List.filterMap_cons]
    cases answer? payload <;> rfl

lemma dispatchAll_append {now : Float} {fault : Option Fault} {before : List Text}
    {es : List (Effect κ)} (h : p.dispatchAll isDone now fault before = (q, es, .proceed))
    (after : List Text) :
    p.dispatchAll isDone now fault (before ++ after) =
      ((q.dispatchAll isDone now fault after).1,
        es ++ (q.dispatchAll isDone now fault after).2.1,
        (q.dispatchAll isDone now fault after).2.2) := by
  induction before generalizing p es with
  | nil =>
    cases h
    rfl
  | cons payload before ih =>
    rw [dispatchAll] at h
    rw [List.cons_append, dispatchAll]
    rcases hdispatch : p.dispatch isDone now fault payload with ⟨r, fs, verdict⟩
    rw [hdispatch] at h
    cases verdict with
    | stop cause => cases h
    | proceed =>
      dsimp only at h ⊢
      rcases hrest : r.dispatchAll isDone now fault before with ⟨q', gs, verdict'⟩
      rw [hrest] at h
      cases h
      rw [ih hrest]
      simp only [List.append_assoc]

/-- Payloads that can be treated give their verdicts and their answers. -/
lemma treats (hp : p.Distinct) (hopen : p.closed = false) {payloads : List Text}
    (h : ∀ payload ∈ payloads, Treatable payload) (isDone : Task.Id → Bool) (now : Float) :
    ∃ q es, p.dispatchAll isDone now none payloads = (q, es, .proceed) ∧ q.closed = false ∧
      frames es = payloads.filterMap answer? ∧ Handled p q isDone (firstVerdict · payloads) es := by
  obtain ⟨hproceed, hstays, hframes⟩ := dispatchAll_treatable hopen h isDone now
  obtain ⟨done, rest, heq, hrest, hhandled, -⟩ := handled_dispatchAll hp isDone now none payloads
  cases hrest hproceed
  rw [List.append_nil] at heq
  refine ⟨_, _, Prod.ext rfl (Prod.ext rfl hproceed), hstays, hframes, ?_⟩
  rw [heq] at hhandled ⊢
  exact hhandled

/-- A call that cannot be refused is the last one that is treated. -/
lemma cutsOff (hp : p.Distinct) (hopen : p.closed = false) {before : List Text}
    {payload : Text} (hbefore : ∀ payload ∈ before, Treatable payload) {uid subject : Sexp}
    (h : message payload = .request uid subject) (hnone : refusal? uid subject = none)
    (after : List Text) (isDone : Task.Id → Bool) (now : Float) :
    ∃ q es, p.dispatchAll isDone now none (before ++ payload :: after) = (q, es, .stop none) ∧
      q.closed = false ∧ frames es = before.filterMap answer? ∧
      Handled p q isDone (firstVerdict · before) es := by
  obtain ⟨q, es, hall, hstays, hframes, hhandled⟩ := treats hp hopen hbefore isDone now
  refine ⟨q, es, ?_, hstays, hframes, hhandled⟩
  have hlast : q.dispatchAll isDone now none (payload :: after) = (q, [], .stop none) := by
    rw [dispatchAll, dispatch_request hstays h, hnone]
  rw [dispatchAll_append hall, hlast, List.append_nil]

/-- What is buffered does not matter to the calls that wait. -/
lemma Handled.of_buffer {buffer : Bytes} {verdict : Nat → Option (Except Failure Sexp)}
    {es : List (Effect κ)} (h : Handled { p with buffer } q isDone verdict es) :
    Handled p q isDone verdict es := ⟨h.pending, h.nextUid, h.settled, h.once⟩

end Peer

/-! ## A turn of the listener -/

namespace Connection

variable {κ : Type} {isDone : Task.Id → Bool} {c : Connection κ} {payloads : List Text}
  {rest : Bytes} {q : Peer κ} {es : List (Peer.Effect κ)}

/-- How a listener pauses after the treatment of a chunk. -/
def pauseAfter : Peer.Verdict → Pause
  | .proceed => .blocked
  | .stop cause => .ended cause

/-- A chunk is read, and the payloads that it completes are treated. -/
lemma absorb_drained (hbuffer : c.incoming.buffer ≠ [])
    (hshort : c.incoming.buffer.length ≤ chunkSize)
    (hstream : c.incoming.ended = false ∧ c.incoming.failure = none)
    (hdrain : Frame.drain (c.peer.buffer ++ c.incoming.buffer) = ⟨.ok payloads, rest⟩) {now : Float}
    {verdict : Peer.Verdict}
    (htreats : Peer.dispatchAll { c.peer with buffer := rest } isDone now
      (c.refusalFault.or c.writeFault) payloads = (q, es, verdict)) (fuel : Nat) :
    c.absorb isDone now (fuel + 1) =
      ({ c with peer := q, incoming := { c.incoming with buffer := [] } }, es,
        pauseAfter verdict) := by
  have hreceive : c.peer.receive isDone now (c.refusalFault.or c.writeFault) c.incoming.buffer =
      (q, es, verdict) := by
    rw [Peer.receive, Frame.feed, hdrain, ← htreats]
  have hblocked : Task.Stream.readiness { c.incoming with buffer := [] } = .blocked := by
    simp [Task.Stream.readiness, hstream.1, hstream.2]
  rw [absorb]
  simp only [Task.Stream.take, List.take_of_length_le hshort, List.drop_of_length_le hshort,
    hreceive, List.isEmpty_iff, if_neg hbuffer]
  cases verdict with
  | proceed => simp only [hblocked, pauseAfter]
  | stop cause => rfl

end Connection

namespace Exchange

open SuggestBridge.Frame (Whole bytesOf)
open Peer (History RepliesTo IsReplyKind Treatable Conveys answer? refusal? refusalText frames
  message replyMessage replyOutcome refusalMessage firstVerdict)
open SuggestBridge.Task (Outcome)

variable {x z : Exchange} {h h' : History} {chunk rest : Bytes} {ws : List Whole}

/-! ## What a chunk does -/

/-- When no job is left and a chunk arrives, the next job treats the payloads that it completes. -/
lemma Quiet.treats (hq : x.Quiet) (hx : Orderly x h) (hchunk : chunk ≠ [])
    (hshort : chunk.length ≤ Connection.chunkSize) {payloads : List Text}
    (hdrain : Frame.drain (x.connection.peer.buffer ++ chunk) = ⟨.ok payloads, rest⟩)
    (limit : Float) :
    ∃ l a k, ∃ d : Connection NamedCallback, (x.data chunk).kernel.activity? l = some a ∧
      Task.Kernel.Running (x.data chunk).kernel k l 0 [] ∧
      (x.data chunk).connection.peer = x.connection.peer ∧
      (x.data chunk).connection.incoming.buffer = chunk ∧ d.incoming.buffer = [] ∧
      (∀ c ∈ x.connection.peer.pending,
        (x.data chunk).kernel.outcome? c.future = x.kernel.outcome? c.future) ∧
      ∀ {q es verdict}, Peer.dispatchAll { x.connection.peer with buffer := rest }
          (x.data chunk).kernel.isDone k.now
          (x.connection.refusalFault.or x.connection.writeFault) payloads = (q, es, verdict) →
        (x.data chunk).step? limit = some (pause { x.data chunk with kernel := k } l
          (Connection.endListening (x.data chunk).kernel.isDone
            ({ d with peer := q }, es, Connection.pauseAfter verdict))) := by
  obtain ⟨l, a, k, ha, hrunning, hpeer, hbuffer, hfutures, hstep⟩ := hq.reads hx hchunk limit
  obtain ⟨-, hended, hfailure⟩ := hx.stream hq.ready hq.opened
  obtain ⟨-, -, -, hconnection⟩ := hx.data_settles hchunk hended
  refine ⟨l, a, k, { (x.data chunk).connection with
    incoming := { (x.data chunk).connection.incoming with buffer := [] } }, ha, hrunning, hpeer,
    hbuffer, rfl, fun c hc => ?_, fun {q es verdict} htreats => ?_⟩
  · obtain ⟨i, hi, -, hfuture, -⟩ := hx.ledger.entries c hc
    rw [← hfuture, hfutures i hi]
  · have hfault : (x.data chunk).connection.refusalFault.or (x.data chunk).connection.writeFault =
        x.connection.refusalFault.or x.connection.writeFault := by rw [hconnection]
    have hall : Frame.drain ((x.data chunk).connection.peer.buffer ++
        (x.data chunk).connection.incoming.buffer) = ⟨.ok payloads, rest⟩ := by
      rw [hpeer, hbuffer, hdrain]
    rw [← hpeer, ← hfault] at htreats
    have habsorb := Connection.absorb_drained (hbuffer.symm ▸ hchunk) (hbuffer.symm ▸ hshort)
      (by rw [hconnection]; exact ⟨hended, hfailure⟩) hall htreats
      ((x.data chunk).connection.incoming.buffer.length + 1)
    rw [hstep, Connection.resumeListening, Connection.absorbFuel, habsorb]

/-- What has come of `x` when the frames `ws` have arrived and all of them can be treated. -/
structure Treated (x : Exchange) (ws : List Whole) (z : Exchange) (h' : History) : Prop where
  opened : z.connection.peer.closed = false
  /-- One frame is written for each call of the other side, and nothing else. -/
  sent : z.sent = x.sent ++ (ws.map Whole.payload).filterMap answer?
  /-- A call waits on that none of the payloads is a verdict on. -/
  pending : z.connection.peer.pending = x.connection.peer.pending.filter fun c =>
    (firstVerdict c.uid (ws.map Whole.payload)).isNone
  /-- The others are settled by the first verdict. -/
  settled : ∀ c ∈ x.connection.peer.pending, x.kernel.outcome? c.future = none →
    z.kernel.outcome? c.future =
      (firstVerdict c.uid (ws.map Whole.payload)).map Outcome.ofExcept
  /-- A call that waits on gets its own reply later. -/
  later : ∀ c ∈ z.connection.peer.pending, z.kernel.outcome? c.future = none →
    ∀ kind, IsReplyKind kind → ∀ value : Sexp, value.Plain →
    ∀ frame, Peer.frameOf (replyMessage kind c.uid value) = .ok frame →
    ∀ before after : List Whole,
      (∀ w ∈ before ++ after, ∃ n : Int, n ≠ c.uid ∧ RepliesTo n w.payload) →
    ∀ bytes missing, z.connection.peer.buffer ++
        (z.connection.incoming.buffer ++ (bytes ++ missing)) =
      bytesOf before ++ (frame ++ bytesOf after) →
    ∀ y h'', Delivers z h' bytes y h'' →
      Replied z c (replyOutcome kind value) (before ++ after) missing y h''

/-- What has come of `x` when the frames `before` have arrived and then a call of the other side that
cannot be refused. -/
structure CutOff (x : Exchange) (before : List Whole) (z : Exchange) : Prop where
  closed : z.connection.peer.closed = true
  pending : z.connection.peer.pending = []
  /-- The calls before it are refused, and it is not answered. -/
  sent : z.sent = x.sent ++ (before.map Whole.payload).filterMap answer?
  /-- The calls that wait are settled by a verdict before it, and fail otherwise. -/
  settled : ∀ c ∈ x.connection.peer.pending, x.kernel.outcome? c.future = none →
    z.kernel.outcome? c.future = some (.ofExcept
      ((firstVerdict c.uid (before.map Whole.payload)).getD (.error Peer.closing)))

section Chunk

variable (hrun : Run x h) (hq : x.Quiet)
  (hfault : x.connection.refusalFault.or x.connection.writeFault = none) (hchunk : chunk ≠ [])
  (hshort : chunk.length ≤ Connection.chunkSize)

include hrun hq hfault hchunk hshort

/-- Payloads that can be treated leave the peer open. -/
lemma treated_of_chunk (hbytes : x.connection.peer.buffer ++ chunk = bytesOf ws ++ rest)
    (hrest : Frame.front rest = .incomplete) (htreat : ∀ w ∈ ws, Treatable w.payload)
    (limit : Float) : ∃ z, (x.data chunk).step? limit = some z ∧
      Treated x ws z (note h (x.data chunk) limit z) := by
  have hx := orderly_of_run hrun
  have hdrain : Frame.drain (x.connection.peer.buffer ++ chunk) =
      ⟨.ok (ws.map Whole.payload), rest⟩ := Frame.drain_eq_ok_iff.2 ⟨ws, hbytes, rfl, hrest⟩
  obtain ⟨l, a, k, d, ha, hrunning, hpeer, -, -, hfutures, hstep⟩ :=
    hq.treats hx hchunk hshort hdrain limit
  rw [hfault] at hstep
  have hall : ∀ payload ∈ ws.map Whole.payload, Treatable payload := by
    intro payload hpayload
    obtain ⟨w, hw, rfl⟩ := List.mem_map.1 hpayload
    exact htreat w hw
  obtain ⟨q, es, htreats, hopen, hframes, hhandled⟩ := Peer.treats
    (p := { x.connection.peer with buffer := rest }) hx.ledger.distinct hq.opened hall
    (x.data chunk).kernel.isDone k.now
  have hy : Orderly (x.data chunk) h := (hx.data chunk).1
  obtain ⟨hzpeer, hsent, -, hsettled⟩ := pause_handled (d := { d with peer := q }) hy ha hrunning
    .blocked (by rw [hpeer]; exact hhandled.of_buffer)
  have hstep := hstep htreats
  generalize hz : pause { x.data chunk with kernel := k } l ({ d with peer := q }, es, .blocked) = z
    at hzpeer hsent hsettled
  have hstepz : (x.data chunk).step? limit = some z := hstep.trans (congrArg some hz)
  have hsound : z.Sound := by
    have hdata := ((Delivering.start hx (hq.attentive hx) (hq.sound hx)).data chunk).sound
    exact hdata.work hy (work_of_step? hy hstepz) (hzpeer ▸ hopen)
  refine ⟨z, hstepz, ?_⟩
  exact
    { opened := hzpeer ▸ hopen
      sent := by rw [hsent, hframes]; rfl
      pending := by rw [hzpeer]; exact hhandled.pending
      settled := fun c hc hnone => hsettled c (hpeer ▸ hc) ((hfutures c hc).trans hnone)
      later := fun c hc hnone kind hkind value hvalue frame hframe before after haround bytes
          missing hbytes y h'' hdelivers =>
        replied_of_delivers ((hrun.occur (.data chunk)).work limit hstepz) hsound hc hnone hkind hvalue
          hframe haround hbytes hdelivers }

/-- A call that cannot be refused ends the connection. -/
lemma cutOff_of_chunk {before after : List Whole} {w : Whole}
    (hbytes : x.connection.peer.buffer ++ chunk = bytesOf (before ++ w :: after) ++ rest)
    (hrest : Frame.front rest = .incomplete) (htreat : ∀ w ∈ before, Treatable w.payload)
    {uid subject : Sexp} (hcall : message w.payload = .request uid subject)
    (hnone : refusal? uid subject = none) (limit : Float) :
    ∃ z, (x.data chunk).step? limit = some z ∧ CutOff x before z := by
  have hx := orderly_of_run hrun
  have hdrain : Frame.drain (x.connection.peer.buffer ++ chunk) =
      ⟨.ok (before.map Whole.payload ++ w.payload :: after.map Whole.payload), rest⟩ :=
    Frame.drain_eq_ok_iff.2 ⟨_, hbytes, by simp, hrest⟩
  obtain ⟨l, a, k, d, ha, hrunning, hpeer, -, -, hfutures, hstep⟩ :=
    hq.treats hx hchunk hshort hdrain limit
  rw [hfault] at hstep
  have hall : ∀ payload ∈ before.map Whole.payload, Treatable payload := by
    intro payload hpayload
    obtain ⟨w, hw, rfl⟩ := List.mem_map.1 hpayload
    exact htreat w hw
  obtain ⟨q, es, htreats, hopen, hframes, hhandled⟩ := Peer.cutsOff
    (p := { x.connection.peer with buffer := rest }) hx.ledger.distinct hq.opened hall hcall hnone
    (after.map Whole.payload) (x.data chunk).kernel.isDone k.now
  have hclose := Peer.handled_close (hhandled.distinct hx.ledger.distinct)
    (fun hclosed => by simp [hopen] at hclosed) (x.data chunk).kernel.isDone none
  have hboth := hhandled.of_buffer.trans hclose hx.ledger.distinct
  obtain ⟨hsilent, -⟩ := Peer.effects_close q (x.data chunk).kernel.isDone none
  obtain ⟨hzpeer, hsent, -, hsettled⟩ := pause_handled
    (d := { d with peer := (q.close (x.data chunk).kernel.isDone none).1 }) (hx.data chunk).1 ha
    hrunning (.ended none) (by rw [hpeer]; exact hboth)
  have hstep := hstep htreats
  generalize hz : pause { x.data chunk with kernel := k } l
      ({ d with peer := (q.close (x.data chunk).kernel.isDone none).1 },
        es ++ (q.close (x.data chunk).kernel.isDone none).2, .ended none) = z
    at hzpeer hsent hsettled
  refine ⟨z, hstep.trans (congrArg some hz), ?_⟩
  exact
    { closed := by
        rw [hzpeer]
        exact Peer.closed_close q (x.data chunk).kernel.isDone none
      pending := by
        rw [hzpeer, hboth.pending]
        exact List.filter_eq_nil_iff.2 fun c _ => by cases firstVerdict c.uid _ <;> simp
      sent := by
        rw [hsent, Peer.frames_append, hsilent, List.append_nil, hframes]
        rfl
      settled := fun c hc hnone => by
        rw [hsettled c (hpeer ▸ hc) ((hfutures c hc).trans hnone)]
        cases firstVerdict c.uid (before.map Whole.payload) <;> rfl }

end Chunk

/-! ## What is promised -/

/-- What is promised about calls of the other side. -/
structure Refusing (x : Exchange) (h : History) : Prop where
  /-- On an open peer such a call is refused with one frame, which gives its number back, or, where
  no frame can hold that, stops the listener; the peer itself stays as it is. -/
  call : x.connection.peer.closed = false → ∀ payload uid subject,
    message payload = .request uid subject → ∀ isDone now, ∃ shown, subject.display = .ok shown ∧
    ((∃ frame, refusal? uid subject = some frame ∧
      Conveys frame (refusalMessage uid (refusalText shown)) ∧
      x.connection.peer.dispatch isDone now none payload =
        (x.connection.peer, [.send frame], .proceed)) ∨
    ∃ e, refusal? uid subject = none ∧
      Peer.frameOf (refusalMessage uid (refusalText shown)) = .error e ∧
      x.connection.peer.dispatch isDone now none payload = (x.connection.peer, [], .stop none))
  /-- However many arrive in a chunk, as long as all can be refused they do no harm. -/
  treated : x.Quiet → x.connection.refusalFault.or x.connection.writeFault = none →
    ∀ chunk, chunk ≠ [] → chunk.length ≤ Connection.chunkSize →
    ∀ ws rest, x.connection.peer.buffer ++ chunk = bytesOf ws ++ rest →
    Frame.front rest = .incomplete → (∀ w ∈ ws, Treatable w.payload) → ∀ limit,
    ∃ z, (x.data chunk).step? limit = some z ∧ Treated x ws z (note h (x.data chunk) limit z)
  /-- The first that cannot be refused ends the connection. -/
  cutOff : x.Quiet → x.connection.refusalFault.or x.connection.writeFault = none →
    ∀ chunk, chunk ≠ [] → chunk.length ≤ Connection.chunkSize →
    ∀ before w after rest,
    x.connection.peer.buffer ++ chunk = bytesOf (before ++ w :: after) ++ rest →
    Frame.front rest = .incomplete → (∀ w ∈ before, Treatable w.payload) → ∀ uid subject,
    message w.payload = .request uid subject → refusal? uid subject = none → ∀ limit,
    ∃ z, (x.data chunk).step? limit = some z ∧ CutOff x before z

/-- **Calls of the other side are refused where the refusal can be sent.**  In every state that a
run has reached, in any order of calls, cancellations, chunks, faults and jobs. -/
theorem refusing_of_run (hrun : Run x h) : Refusing x h where
  call hopen payload uid subject hcall isDone now := by
    rw [Peer.dispatch_request hopen hcall]
    cases hrefusal : refusal? uid subject with
    | none =>
      obtain ⟨shown, e, hshown, hframe⟩ := Peer.frameOf_of_refusal?_eq_none hcall hrefusal
      exact ⟨shown, hshown, .inr ⟨e, rfl, hframe, rfl⟩⟩
    | some frame =>
      obtain ⟨shown, hshown, hconveys⟩ := Peer.conveys_refusal hcall hrefusal
      exact ⟨shown, hshown, .inl ⟨frame, rfl, hconveys, rfl⟩⟩
  treated hq hfault chunk hchunk hshort ws rest hbytes hrest htreat limit :=
    treated_of_chunk hrun hq hfault hchunk hshort hbytes hrest htreat limit
  cutOff hq hfault chunk hchunk hshort before w after rest hbytes hrest htreat uid subject hcall
      hnone limit :=
    cutOff_of_chunk hrun hq hfault hchunk hshort hbytes hrest htreat hcall hnone limit

/-- A call of the other side that can be refused. -/
def plainRequest : Whole :=
  ⟨Frame.hexBytes 6 13,
    [0x28, 0x63, 0x61, 0x6c, 0x6c, 0x20, 0x35, 0x20, 0x6d, 0x20, 0x28, 0x29, 0x29], by decide,
    by decide⟩

/-- A call of the other side that names a lone surrogate. -/
def surrogateRequest : Whole :=
  ⟨Frame.hexBytes 6 20,
    [0x28, 0x63, 0x61, 0x6c, 0x6c, 0x20, 0x35, 0x20, 0x22, 0x5c, 0x75, 0x64, 0x38, 0x30, 0x30, 0x22,
      0x20, 0x28, 0x29, 0x29], by decide, by decide⟩

/-- A call of the other side arrives while two calls wait: it is refused, and they wait on. -/
theorem refusing_twoCalls :
    ∃ h z frame, Run twoCalls h ∧ twoCalls.Quiet ∧
      (twoCalls.data plainRequest.bytes).step? 0 = some z ∧
      Treated twoCalls [plainRequest] z (note h (twoCalls.data plainRequest.bytes) 0 z) ∧
      z.sent = twoCalls.sent ++ [frame] ∧
      z.connection.peer.pending = twoCalls.connection.peer.pending := by
  have hstart : Run (start {}) {} := .refl
  obtain ⟨_, hlistening⟩ := hstart.settle
  obtain ⟨h, hrun⟩ := ((hlistening.call "a" "m" []).call "b" "m" []).settle
  rw [← twoCalls] at hrun
  have hquiet : twoCalls.Quiet := ⟨List.isEmpty_iff.1 (by decide +kernel), by decide +kernel⟩
  have hempty : twoCalls.connection.peer.buffer = [] := by decide +kernel
  have hfault : (twoCalls.connection.refusalFault.or twoCalls.connection.writeFault).isNone := by
    decide +kernel
  obtain ⟨uid, subject, frame, hmessage, hframe⟩ : ∃ uid subject frame,
      message plainRequest.payload = .request uid subject ∧ refusal? uid subject = some frame := by
    have hrefused : (match message plainRequest.payload with
      | .request uid subject => (refusal? uid subject).isSome
      | _ => false) = true := by decide +kernel
    split at hrefused
    · next uid subject hmessage =>
      obtain ⟨frame, hframe⟩ := Option.isSome_iff_exists.1 hrefused
      exact ⟨uid, subject, frame, hmessage, hframe⟩
    · cases hrefused
  have htreat : ∀ w ∈ [plainRequest], Treatable w.payload := by
    intro w hw
    rw [List.mem_singleton.1 hw]
    refine ⟨by simp [hmessage], fun uid' subject' h' => ?_⟩
    cases hmessage.symm.trans h'
    exact ⟨frame, hframe⟩
  obtain ⟨z, hz, htreated⟩ := (refusing_of_run hrun).treated hquiet (Option.isNone_iff_eq_none.1 hfault)
    plainRequest.bytes (by decide) (by decide) [plainRequest] [] (by simp [hempty, bytesOf])
    (by decide) htreat 0
  refine ⟨h, z, frame, hrun, hquiet, hz, htreated, ?_, ?_⟩
  · rw [htreated.sent]
    simp [answer?, hmessage, hframe]
  · rw [htreated.pending]
    exact List.filter_eq_self.2 fun c _ => by
      simp [firstVerdict, Peer.verdictFor, Peer.Message.verdictFor, hmessage]

/-- The refusal of a call that names a lone surrogate cannot be encoded: both calls fail with the
connection, and nothing is written. -/
theorem closed_of_surrogate :
    let z := (twoCalls.data surrogateRequest.bytes).settle
    z.connection.peer.closed = true ∧ z.sent.length = twoCalls.sent.length ∧
      ["a", "b"].all (fun id => match (z.taskOf id).bind z.kernel.outcome? with
        | some (.failure (.closed _)) => true
        | _ => false) = true := by
  decide +kernel

end Exchange

end SuggestBridge
