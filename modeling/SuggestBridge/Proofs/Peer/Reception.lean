import SuggestBridge.Proofs.Peer.Correlation
import SuggestBridge.Proofs.Peer.Outward

/-!
# What a peer is sent

Whatever the other side answers to a call that waits, as long as it can be sent at all, arrives at
the call as it is: however its frame is cut into chunks, whatever replies to other calls are around
it, and whatever jobs are done in between (`replied_of_run`).
-/

namespace SuggestBridge

namespace Peer

/-! ## Replies -/

/-- The message that replies to a call. -/
def replyMessage (kind : Text) (uid : Nat) (value : Sexp) : Sexp :=
  .list [.symbol kind, .int uid, value]

/-- The kinds of replies that settle a call with what they carry. -/
def IsReplyKind (kind : Text) : Prop :=
  kind = Text.ofString "return" ∨ kind = Text.ofString "return-error" ∨
    kind = Text.ofString "epc-error"

/-- How a call ends that is replied to. -/
def replyOutcome (kind : Text) (value : Sexp) : Task.Outcome Sexp Failure :=
  if kind = Text.ofString "return" then .value value else .failure (.remote value kind)

/-- A payload replies to the call with a number. -/
def RepliesTo (uid : Int) (payload : Text) : Prop :=
  ∃ kind value more, Sexp.read payload = .ok (.list (.symbol kind :: .int uid :: value :: more)) ∧
    kind ≠ Text.ofString "call" ∧ kind ≠ Text.ofString "methods"

lemma RepliesTo.isReply {uid : Int} {payload : Text} (h : RepliesTo uid payload) :
    IsReply payload := by
  obtain ⟨kind, value, more, hread, hkind⟩ := h
  exact ⟨kind, .int uid, value, more, hread, hkind⟩

lemma replyResult_of_isReplyKind {kind : Text} (h : IsReplyKind kind) (value : Sexp) :
    Task.Outcome.ofExcept (replyResult kind value) = replyOutcome kind value := by
  rw [replyResult, replyOutcome]
  rcases h with h | h
  · rw [if_pos h, if_pos h]
    rfl
  · by_cases hreturn : kind = Text.ofString "return"
    · rw [if_pos hreturn, if_pos hreturn]
      rfl
    · rw [if_neg hreturn, if_pos h, if_neg hreturn]
      rfl

/-- The frame of a reply is the whole frame of a payload that is a verdict on its call. -/
lemma exists_whole_of_reply {kind : Text} {uid : Nat} {value : Sexp} {frame : Bytes}
    (hkind : IsReplyKind kind) (hvalue : value.Plain)
    (hframe : frameOf (replyMessage kind uid value) = .ok frame) :
    ∃ w : Frame.Whole, w.bytes = frame ∧ RepliesTo uid w.payload ∧
      verdictFor uid w.payload = some (replyResult kind value) := by
  obtain ⟨w, hbytes, hread⟩ := isFrameOf_of_frameOf hframe
  have hcanon : (replyMessage kind uid value).canon = replyMessage kind uid value := by
    simp only [replyMessage, Sexp.canon, Sexp.canonAll, hvalue.canon]
  have hnot : kind ≠ Text.ofString "call" ∧ kind ≠ Text.ofString "methods" := by
    rcases hkind with rfl | rfl | rfl <;> decide
  rw [hcanon] at hread
  refine ⟨w, hbytes, ⟨kind, value, [], hread, hnot⟩, ?_⟩
  have hmessage : message w.payload = .reply kind (.int uid) value := by
    simp only [message, hread, replyMessage, parts?, if_neg (not_or.2 hnot)]
  rw [verdictFor, hmessage, Message.verdictFor, if_pos (uid?_eq_some.2 rfl)]

/-- A reply is a verdict on no call but that with its number. -/
lemma RepliesTo.verdictFor_eq_none {n : Int} {uid : Nat} {payload : Text}
    (h : RepliesTo n payload) (hne : n ≠ uid) : verdictFor uid payload = none := by
  obtain ⟨kind, value, more, hread, hkind⟩ := h
  refine (RepliesTo.isReply ⟨kind, value, more, hread, hkind⟩).verdictFor_eq_none_iff.2 ?_
  rintro ⟨head, rest, hread', -⟩
  rw [hread] at hread'
  cases hread'
  exact hne rfl

end Peer

namespace Exchange

open SuggestBridge.Frame (Whole bytesOf)
open Peer (History RepliesTo IsReplyKind replyMessage replyOutcome verdictFor firstVerdict)
open SuggestBridge.Task (Outcome)

variable {x y : Exchange} {h h' : History}

/-! ## What is promised -/

/-- What is promised about a call `c` that waited in `x`, when the frame of its reply has arrived
up to bytes that are still missing, between frames of other replies: what has come of `x` is `y`. -/
structure Replied (x : Exchange) (c : PendingCall) (o : Outcome Sexp Failure)
    (around : List Whole) (missing : Bytes) (y : Exchange) (h' : History) : Prop where
  /-- The peer stays open. -/
  opened : y.connection.peer.closed = false
  /-- After finitely many jobs none is left. -/
  rests : ∃ z h'', Delivers y h' [] z h'' ∧ z.kernel.ready = []
  /-- The call is settled by its reply only. -/
  only : ∀ r, y.kernel.outcome? c.future = some r → r = o
  /-- When nothing is missing and no job is left, it is settled so. -/
  settled : missing = [] → y.kernel.ready = [] → y.kernel.outcome? c.future = some o
  /-- A caller that waited for the reply is told so. -/
  told : missing = [] → y.kernel.ready = [] → ∀ t a, x.kernel.activity? t = some a →
    a.body = some (.calling (.awaiting c.uid c.future)) →
    y.kernel.outcome? t = some (if a.mustCancel then .cancelled else o)
  /-- Any other call that waited is settled by a reply with its number only. -/
  others : ∀ d ∈ x.connection.peer.pending, x.kernel.outcome? d.future = none → d.uid ≠ c.uid →
    ∀ r, y.kernel.outcome? d.future = some r → ∃ w ∈ around, RepliesTo d.uid w.payload ∧
      (verdictFor d.uid w.payload).map Outcome.ofExcept = some r
  /-- When nothing is missing and no job is left, it is settled by the first of these. -/
  first : missing = [] → y.kernel.ready = [] → ∀ d ∈ x.connection.peer.pending,
    x.kernel.outcome? d.future = none → d.uid ≠ c.uid → y.kernel.outcome? d.future =
      (firstVerdict d.uid (around.map Whole.payload)).map Outcome.ofExcept

/-- What was received while frames were delivered are the first ones of their payloads. -/
lemma Delivering.received_prefix {ws : List Whole} {bytes : Bytes}
    (hd : Delivering x h bytes y h')
    (hdrain : Frame.drain h.read = ⟨.ok h.received, x.connection.peer.buffer⟩)
    (hbytes : x.connection.peer.buffer ++ (x.connection.incoming.buffer ++ bytes) <+: bytesOf ws) :
    ∃ new, h'.received = h.received ++ new ∧ new <+: ws.map Whole.payload := by
  obtain ⟨new, hnew⟩ := hd.received
  obtain ⟨tail, hall⟩ := hd.drain_read hdrain hbytes (List.nil_append _).symm
  rw [List.append_nil] at hall
  obtain ⟨later, hlater⟩ := Frame.leading_append h'.read tail
  rw [Frame.leading_of_drain hall, ← History.received, hnew, List.append_assoc,
    List.append_cancel_left_eq] at hlater
  exact ⟨new, hnew, later, hlater.symm⟩

/-- A verdict is given by one of the payloads. -/
lemma exists_of_firstVerdict {uid : Nat} {ws : List Whole} {new : List Text}
    (hnew : new <+: ws.map Whole.payload) {r : Except Failure Sexp}
    (hr : firstVerdict uid new = some r) : ∃ w ∈ ws, verdictFor uid w.payload = some r := by
  obtain ⟨payload, hmem, hverdict⟩ := List.exists_of_findSome?_eq_some hr
  obtain ⟨w, hw, rfl⟩ := List.mem_map.1 (hnew.subset hmem)
  exact ⟨w, hw, hverdict⟩

lemma firstVerdict_eq_none {uid : Nat} {ws : List Whole}
    (h : ∀ w ∈ ws, verdictFor uid w.payload = none) :
    firstVerdict uid (ws.map Whole.payload) = none := by
  rw [firstVerdict, List.findSome?_eq_none_iff]
  intro payload hmem
  obtain ⟨w, hw, rfl⟩ := List.mem_map.1 hmem
  exact h w hw

/-- What arrives for a call that waits, whatever is around it. -/
lemma replied_of_delivers (hrun : Run x h) (hs : x.Sound) {c : PendingCall}
    (hc : c ∈ x.connection.peer.pending) (hopen : x.kernel.outcome? c.future = none)
    {kind : Text} (hkind : IsReplyKind kind) {value : Sexp} (hvalue : value.Plain) {frame : Bytes}
    (hframe : Peer.frameOf (replyMessage kind c.uid value) = .ok frame) {before after : List Whole}
    (haround : ∀ w ∈ before ++ after, ∃ n : Int, n ≠ c.uid ∧ RepliesTo n w.payload)
    {bytes missing : Bytes}
    (hbytes : x.connection.peer.buffer ++ (x.connection.incoming.buffer ++ (bytes ++ missing)) =
      bytesOf before ++ (frame ++ bytesOf after)) (hd : Delivers x h bytes y h') :
    Replied x c (replyOutcome kind value) (before ++ after) missing y h' := by
  have hx := orderly_of_run hrun
  have hat := attentive_of_run hrun
  obtain ⟨w, rfl, hreply, hverdict⟩ := Peer.exists_whole_of_reply hkind hvalue hframe
  rw [← Peer.replyResult_of_isReplyKind hkind]
  generalize Peer.replyResult kind value = result at hverdict
  -- the frames that arrive
  have hall : bytesOf before ++ (w.bytes ++ bytesOf after) = bytesOf (before ++ w :: after) := by
    simp [bytesOf]
  rw [hall] at hbytes
  have hprefix : x.connection.peer.buffer ++ (x.connection.incoming.buffer ++ bytes) <+:
      bytesOf (before ++ w :: after) := ⟨missing, by rw [← hbytes]; simp⟩
  have hmem : ∀ v ∈ before ++ w :: after, v = w ∨ v ∈ before ++ after := by
    intro v hv
    rcases List.mem_append.1 hv with hv | hv
    · exact .inr (List.mem_append_left _ hv)
    · exact (List.mem_cons.1 hv).imp_right (List.mem_append_right _)
  have hreplies : ∀ v ∈ before ++ w :: after, ¬Peer.Stops v.payload := by
    intro v hv
    rcases hmem v hv with rfl | hv
    · exact hreply.isReply.not_stops
    · obtain ⟨n, -, hn⟩ := haround v hv
      exact hn.isReply.not_stops
  -- each frame is a verdict on the call that it replies to, and on no other
  have hmine : ∀ v ∈ before ++ after, verdictFor c.uid v.payload = none := by
    intro v hv
    obtain ⟨n, hne, hn⟩ := haround v hv
    exact hn.verdictFor_eq_none hne
  have htheirs : ∀ uid ≠ c.uid, verdictFor uid w.payload = none := fun uid hne =>
    hreply.verdictFor_eq_none (by simpa using hne.symm)
  have hdelivering := hd.delivering hx hat hs hreplies hprefix
  obtain ⟨new, hnew, hnewprefix⟩ := hdelivering.received_prefix (hx.drained hs.opened) hprefix
  have hfuture : ∀ d ∈ x.connection.peer.pending, x.kernel.outcome? d.future = none →
      y.kernel.outcome? d.future = (firstVerdict d.uid new).map Outcome.ofExcept :=
    fun d hd' hnone => hd.future hx hat hs hreplies hprefix hnew hd' hnone
  have hrest : missing = [] → y.kernel.ready = [] →
      new = (before ++ w :: after).map Whole.payload := by
    rintro rfl hready
    rw [List.append_nil] at hbytes
    have hreceived := hd.received hx hat hs hreplies hbytes hready
    exact List.append_cancel_left (hnew.symm.trans hreceived)
  have hsettled : missing = [] → y.kernel.ready = [] →
      y.kernel.outcome? c.future = some (.ofExcept result) := by
    intro hmissing hready
    have hbefore := firstVerdict_eq_none fun v hv => hmine v (List.mem_append_left _ hv)
    rw [hfuture c hc hopen, hrest hmissing hready, List.map_append, Peer.firstVerdict_append,
      hbefore, Option.none_or, List.map_cons, Peer.firstVerdict_cons, hverdict, Option.some_or,
      Option.map_some]
  refine
    { opened := hdelivering.sound.opened
      rests := hdelivering.order.exists_rest
      only := fun r hr => ?_
      settled := hsettled
      told := fun hmissing hready t a ha hb => ?_
      others := fun d hd' hnone hne r hr => ?_
      first := fun hmissing hready d hd' hnone hne => ?_ }
  · rw [hfuture c hc hopen, Option.map_eq_some_iff] at hr
    obtain ⟨r', hr', rfl⟩ := hr
    obtain ⟨v, hv, hv'⟩ := exists_of_firstVerdict hnewprefix hr'
    rcases hmem v hv with rfl | hv
    · rw [Option.some.inj (hv'.symm.trans hverdict)]
    · simp [hmine v hv] at hv'
  · rw [hd.task_awaiting hx hat hs hreplies hprefix hready ha hb, hsettled hmissing hready,
      Option.map_some]
  · rw [hfuture d hd' hnone, Option.map_eq_some_iff] at hr
    obtain ⟨r', hr', rfl⟩ := hr
    obtain ⟨v, hv, hv'⟩ := exists_of_firstVerdict hnewprefix hr'
    rcases hmem v hv with rfl | hv
    · simp [htheirs d.uid hne] at hv'
    · obtain ⟨n, -, hn⟩ := haround v hv
      have huid : n = d.uid := by
        by_contra hne'
        simp [hn.verdictFor_eq_none hne'] at hv'
      exact ⟨v, hv, huid ▸ hn, by rw [hv', Option.map_some]⟩
  · rw [hfuture d hd' hnone, hrest hmissing hready, List.map_append, List.map_append,
      Peer.firstVerdict_append, Peer.firstVerdict_append, List.map_cons, Peer.firstVerdict_cons,
      htheirs d.uid hne, Option.none_or]

/-- **Replies arrive as they were sent.**  In every state that a run has reached, in any order of
calls, cancellations, chunks, faults and jobs, as long as nothing has happened that takes the
connection down. -/
theorem replied_of_run (hrun : Run x h) (hs : x.Sound) {c : PendingCall}
    (hc : c ∈ x.connection.peer.pending) (hopen : x.kernel.outcome? c.future = none)
    {kind : Text} (hkind : IsReplyKind kind) {value : Sexp} (hvalue : value.Plain) {frame : Bytes}
    (hframe : Peer.frameOf (replyMessage kind c.uid value) = .ok frame) {before after : List Whole}
    (haround : ∀ w ∈ before ++ after, ∃ n : Int, n ≠ c.uid ∧ RepliesTo n w.payload)
    {bytes missing : Bytes}
    (hbytes : x.connection.peer.buffer ++ (x.connection.incoming.buffer ++ (bytes ++ missing)) =
      bytesOf before ++ (frame ++ bytesOf after)) (hd : Delivers x h bytes y h') :
    Replied x c (replyOutcome kind value) (before ++ after) missing y h' :=
  replied_of_delivers hrun hs hc hopen hkind hvalue hframe haround hbytes hd

/-- Two calls wait; the reply to the second arrives, and then the reply to the first in two parts. -/
theorem replied_twoCalls :
    ∃ h c around y h', Run twoCalls h ∧ c ∈ twoCalls.connection.peer.pending ∧ c.uid = 1 ∧
      Replied twoCalls c (.value (.list [.int 7])) around [] y h' ∧
      y.kernel.outcome? c.future = some (.value (.list [.int 7])) := by
  have hstart : Run (start {}) {} := .refl
  obtain ⟨_, hlistening⟩ := hstart.settle
  obtain ⟨h, hrun⟩ := ((hlistening.call "a" "m" []).call "b" "m" []).settle
  rw [← twoCalls] at hrun
  have hquiet : twoCalls.Quiet := ⟨List.isEmpty_iff.1 (by decide +kernel), by decide +kernel⟩
  obtain ⟨c, hc, huid⟩ : ∃ c ∈ twoCalls.connection.peer.pending, c.uid = 1 := by
    have huids : twoCalls.connection.peer.pending.map (·.uid) = [1, 2] := by decide +kernel
    exact List.mem_map.1 (huids ▸ List.mem_cons_self)
  have hopen : twoCalls.kernel.outcome? c.future = none := by
    have hall : twoCalls.connection.peer.pending.all
        (fun c => (twoCalls.kernel.outcome? c.future).isNone) = true := by decide +kernel
    simpa using List.all_eq_true.1 hall c hc
  have hempty : twoCalls.connection.peer.buffer = [] := by decide +kernel
  have hnothing : twoCalls.connection.incoming.buffer = [] := by decide +kernel
  have hsends : ∀ {m : Sexp}, (Peer.frameOf m).isOk = true → ∃ frame, Peer.frameOf m = .ok frame := by
    intro m hm
    cases hframe : Peer.frameOf m with
    | ok frame => exact ⟨frame, rfl⟩
    | error e => simp [hframe, Except.isOk, Except.toBool] at hm
  obtain ⟨first, hfirst⟩ := hsends (m := replyMessage "return" 1 (.list [.int 7])) (by decide +kernel)
  obtain ⟨second, hsecond⟩ := hsends (m := replyMessage "return" 2 .nil) (by decide +kernel)
  obtain ⟨w, rfl, hw, -⟩ := Peer.exists_whole_of_reply (.inl rfl) .nil hsecond
  have hplain : Sexp.Plain (.list [.int 7]) := .list fun v hv => by
    rw [List.mem_singleton.1 hv]
    exact .int 7
  have hdata : Delivers twoCalls h (([] ++ (w.bytes ++ first.take 3)) ++ first.drop 3) _ h :=
    .data (first.drop 3) (.data (w.bytes ++ first.take 3) .refl)
  obtain ⟨y, h', hrest, hready⟩ := ((orderly_of_run hrun).leads hdata.leads).exists_rest
  have haround : ∀ v ∈ [w] ++ ([] : List Whole), ∃ n : Int, n ≠ c.uid ∧ RepliesTo n v.payload := by
    intro v hv
    rw [List.mem_singleton.1 hv, huid]
    exact ⟨2, by decide, hw⟩
  have hbytes : twoCalls.connection.peer.buffer ++ (twoCalls.connection.incoming.buffer ++
      ((([] ++ (w.bytes ++ first.take 3)) ++ first.drop 3 ++ []) ++ [])) =
      bytesOf [w] ++ (first ++ bytesOf []) := by simp [hempty, hnothing, bytesOf]
  have hreplied := replied_of_run hrun (hquiet.sound (orderly_of_run hrun)) hc hopen (.inl rfl)
    hplain (huid ▸ hfirst) haround hbytes (hdata.trans hrest)
  exact ⟨h, c, [w], y, h', hrun, hc, huid, hreplied, hreplied.settled rfl hready⟩

end Exchange

end SuggestBridge
