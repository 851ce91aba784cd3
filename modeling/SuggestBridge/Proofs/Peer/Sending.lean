import SuggestBridge.Proofs.Peer.Conduct
import SuggestBridge.Proofs.Peer.Events

/-!
# What a peer sends

A call either fails before anything is written, or its frame is written first, and whoever decodes
the frame and reads its payload has the call again (`Attempt`).  So the bytes that were written are
whole frames at every moment, of calls and of refusals, and the numbers of the calls rise
(`outgoing_of_run`).
-/

namespace SuggestBridge

namespace Peer

/-! ## Messages in frames -/

/-- A frame conveys a message: decoded, it is one payload with nothing behind it, and the payload is
read as the message. -/
def Conveys (frame : Bytes) (message : Sexp) : Prop :=
  ∃ payload, Frame.feed [] frame = ⟨.ok [payload], []⟩ ∧ Sexp.read payload = .ok message

lemma drain_bytesOf (ws : List Frame.Whole) :
    Frame.drain (Frame.bytesOf ws) = ⟨.ok (ws.map Frame.Whole.payload), []⟩ :=
  Frame.drain_eq_ok_iff.2 ⟨ws, (List.append_nil _).symm, rfl, rfl⟩

lemma IsFrameOf.conveys {frame : Bytes} {message : Sexp} (h : IsFrameOf frame message) :
    Conveys frame message := by
  obtain ⟨w, rfl, hread⟩ := h
  refine ⟨w.payload, ?_, hread⟩
  simpa [Frame.feed, Frame.bytesOf] using drain_bytesOf [w]

/-- What a frame was sent for. -/
inductive Sent where
  | call (uid : Nat) (method : Text) (args : List Sexp)
  | refusal (uid : Sexp) (text : Text)

namespace Sent

/-- The message that was sent. -/
def message : Sent → Sexp
  | .call uid method args => callMessage uid method args
  | .refusal uid text => refusalMessage uid text

/-- The number of a call that was sent. -/
def callUid? : Sent → Option Nat
  | .call uid _ _ => some uid
  | .refusal _ _ => none

end Sent

/-- The numbers of the calls that were sent, in their order. -/
def callUids (ms : List Sent) : List Nat := ms.filterMap Sent.callUid?

lemma callUids_append (ms ns : List Sent) : callUids (ms ++ ns) = callUids ms ++ callUids ns :=
  List.filterMap_append

/-- Frames of refusals are no calls. -/
lemma exists_refusals {fs : List Bytes}
    (h : ∀ frame ∈ fs, ∃ uid text, IsFrameOf frame (refusalMessage uid text)) :
    ∃ ms : List Sent, List.Forall₂ (fun frame m => IsFrameOf frame m.message) fs ms ∧
      callUids ms = [] := by
  induction fs with
  | nil => exact ⟨[], .nil, rfl⟩
  | cons frame fs ih =>
    obtain ⟨⟨uid, text, hframe⟩, hfs⟩ := List.forall_mem_cons.1 h
    obtain ⟨ms, hms, huids⟩ := ih hfs
    exact ⟨.refusal uid text :: ms, .cons hframe hms, huids⟩

/-- Frames one behind the other are decoded to the payloads of all. -/
lemma feed_flatten {fs : List Bytes} {ms : List Sent}
    (h : List.Forall₂ (fun frame m => IsFrameOf frame m.message) fs ms) :
    ∃ payloads, Frame.feed [] fs.flatten = ⟨.ok payloads, []⟩ ∧
      List.Forall₂ (fun payload m => Sexp.read payload = .ok m.message) payloads ms := by
  have hwholes : ∃ ws : List Frame.Whole, Frame.bytesOf ws = fs.flatten ∧
      List.Forall₂ (fun w m => Sexp.read w.payload = .ok m.message) ws ms := by
    induction h with
    | nil => exact ⟨[], rfl, .nil⟩
    | cons hframe _ ih =>
      obtain ⟨w, rfl, hread⟩ := hframe
      obtain ⟨ws, hbytes, hreads⟩ := ih
      refine ⟨w :: ws, ?_, .cons hread hreads⟩
      rw [Frame.bytesOf, List.flatMap_cons, ← Frame.bytesOf, hbytes, List.flatten_cons]
  obtain ⟨ws, hbytes, hreads⟩ := hwholes
  refine ⟨ws.map Frame.Whole.payload, ?_, List.forall₂_map_left_iff.2 hreads⟩
  rw [Frame.feed, List.nil_append, ← hbytes, drain_bytesOf]

end Peer

namespace Exchange

open Peer (IsFrameOf Conveys Sent callUids callMessage History)
open Connection (numbered listed)

variable {x y : Exchange} {h h' : History}

/-! ## A call -/

/-- How a call comes out at once: it fails and leaves no trace but that its number is used up; or it
is put on the list of those that wait, and its frame is written before anything else, and nothing
besides. -/
inductive Attempt (x : Exchange) (k : Task.Kernel Routine Empty Sexp Failure) (t : Task.Id)
    (method : Text) (args : List Sexp) (y : Exchange) : Prop
  | unencodable (m : Text)
    (outcome : y.kernel.outcome? t = some (.failure (.unencodable m)))
    (sent : y.sent = x.sent)
    (connection : y.connection = { x.connection with
      peer := { x.connection.peer with nextUid := x.connection.peer.nextUid + 1 } })
  | issued (frame : Bytes) (p : Peer NamedCallback)
    (issued : x.connection.peer.issue k.now k.futures.size method args =
      (p, .ok (x.connection.peer.nextUid, frame)))
    (pending : p.pending = x.connection.peer.pending ++
      [⟨x.connection.peer.nextUid, method, k.futures.size, k.now⟩])
    (conveys : Conveys frame (callMessage x.connection.peer.nextUid method (Sexp.canonAll args)))
    (sent : y.sent = x.sent ++ if x.connection.writeFault.isNone then [frame] else [])
    (waits : x.connection.writeFault = none → x.connection.drainFault = none →
      y.connection.peer = p)

/-- Every call on an open peer comes out so. -/
lemma attempt_begin (hopen : x.connection.peer.closed = false)
    {k : Task.Kernel Routine Empty Sexp Failure} {t : Task.Id} (ht : k.IsOpen t) (method : Text)
    (args : List Sexp) :
    Attempt x k t method args (begin { x with kernel := k } t (.call method args)) := by
  cases placing_begin hopen k t method args with
  | fails m kernel connection sent notified =>
    refine .unencodable m ?_ sent connection
    rw [kernel]
    exact Task.Kernel.outcome?_settle_self ht.fresh.fresh
  | issues frame es issued isFrame outward sent notified waits =>
    exact .issued frame _ issued rfl isFrame.conveys sent waits

/-! ## All that was sent -/

/-- What the frames were sent for; the numbers of the calls rise. -/
structure Stream (x : Exchange) (ms : List Sent) : Prop where
  frames : List.Forall₂ (fun frame m => IsFrameOf frame m.message) x.sent ms
  rising : (callUids ms).Pairwise (· < ·)
  below : ∀ u ∈ callUids ms, u < x.connection.peer.nextUid

/-- Refusals are added. -/
lemma Stream.shows {ms : List Sent} (hx : x.Stream ms) {es : List (Peer.Effect NamedCallback)}
    (hshows : Shows x y es) : ∃ ms, y.Stream ms := by
  obtain ⟨ns, hns, huids⟩ := Peer.exists_refusals fun frame hframe =>
    (hshows.outward.sends frame hframe).2
  refine ⟨ms ++ ns, ?_, ?_, ?_⟩
  · rw [hshows.sent]
    exact List.rel_append hx.frames hns
  · rw [Peer.callUids_append, huids, List.append_nil]
    exact hx.rising
  · rw [Peer.callUids_append, huids, List.append_nil, hshows.outward.nextUid]
    exact hx.below

/-- A call is added, whose number is the largest. -/
lemma Stream.begin_call {ms : List Sent} (hx : x.Stream ms)
    (hopen : x.connection.peer.closed = false) (k : Task.Kernel Routine Empty Sexp Failure)
    (t : Task.Id) (method : Text) (args : List Sexp) :
    ∃ ms, (begin { x with kernel := k } t (.call method args)).Stream ms := by
  cases placing_begin hopen k t method args with
  | fails m kernel connection sent notified =>
    refine ⟨ms, by rw [sent]; exact hx.frames, hx.rising, fun u hu => ?_⟩
    rw [connection]
    exact Nat.lt_succ_of_lt (hx.below u hu)
  | issues frame es issued isFrame outward sent notified waits =>
    have hnext := outward.nextUid
    cases hwrite : x.connection.writeFault with
    | some f =>
      rw [hwrite] at sent
      refine ⟨ms, ?_, hx.rising, fun u hu => ?_⟩
      · rw [sent, if_neg (by simp), List.append_nil]
        exact hx.frames
      · rw [hnext]
        exact Nat.lt_succ_of_lt (hx.below u hu)
    | none =>
      rw [hwrite] at sent
      have huids := Peer.callUids_append ms
        [.call x.connection.peer.nextUid method (Sexp.canonAll args)]
      refine ⟨ms ++ [.call x.connection.peer.nextUid method (Sexp.canonAll args)], ?_, ?_, ?_⟩
      · rw [sent]
        exact List.rel_append hx.frames (.cons isFrame .nil)
      · rw [huids, List.pairwise_append]
        refine ⟨hx.rising, List.pairwise_singleton _ _, fun u hu v hv => ?_⟩
        rw [List.mem_singleton.1 hv]
        exact hx.below u hu
      · intro u hu
        rw [huids, List.mem_append] at hu
        rw [hnext]
        rcases hu with hu | hu
        · exact Nat.lt_succ_of_lt (hx.below u hu)
        · rw [List.mem_singleton.1 hu]
          exact Nat.lt_succ_self _

lemma Stream.step {ms : List Sent} (hx : x.Stream ms) {limit : Float}
    (hstep : x.step? limit = some y) : ∃ ms, y.Stream ms := by
  rcases shows_of_step? hstep with ⟨es, hshows⟩ | ⟨k, t, method, args, hopen, -, rfl⟩
  · exact hx.shows hshows
  · exact hx.begin_call hopen k t method args

lemma Stream.occur {ms : List Sent} (hx : x.Stream ms) (e : Event) :
    ∃ ms, (x.occur e).Stream ms := by
  by_cases he : ∃ k, e = .addCallback k
  · obtain ⟨k, rfl⟩ := he
    refine ⟨ms, ?_⟩
    rw [Exchange.occur, addCallback]
    split
    · exact ⟨hx.frames, hx.rising, hx.below⟩
    · next hopen =>
      rw [Peer.addCallback, if_neg hopen]
      exact ⟨hx.frames, hx.rising, hx.below⟩
  · obtain ⟨es, hshows, -⟩ := shows_occur e fun k heq => he ⟨k, heq⟩
    exact hx.shows hshows

lemma stream_of_leads (hx : ∃ ms, x.Stream ms) (hl : Leads x h y h') : ∃ ms, y.Stream ms := by
  induction hl with
  | refl => exact hx
  | occur e _ ih =>
    obtain ⟨ms, hms⟩ := ih
    exact hms.occur e
  | work limit _ hstep ih =>
    obtain ⟨ms, hms⟩ := ih
    exact hms.step hstep

/-! ## What is promised -/

/-- What is promised about what a peer sends. -/
structure Outgoing (x : Exchange) : Prop where
  /-- A call either fails before anything is written, or its frame is written first. -/
  call : x.connection.peer.closed = false → ∀ k t method args, k.IsOpen t →
    Attempt x k t method args (begin { x with kernel := k } t (.call method args))
  /-- A call that is next begins so. -/
  next : ∀ limit k t method args, x.kernel.next? limit = some (k, .begin t (.call method args)) →
    k.IsOpen t ∧ x.step? limit = some (begin { x with kernel := k } t (.call method args))
  /-- All that was written is whole frames of calls and refusals, and the numbers of the calls
  rise. -/
  stream : ∃ ms : List Sent, List.Forall₂ (fun frame m => Conveys frame m.message) x.sent ms ∧
    (callUids ms).Pairwise (· < ·) ∧
    ∃ payloads, Frame.feed [] x.sent.flatten = ⟨.ok payloads, []⟩ ∧
      List.Forall₂ (fun payload m => Sexp.read payload = .ok m.message) payloads ms

/-- **Calls are sent as they are, or not at all.**  In every state that a run has reached, in any
order of calls, cancellations, chunks, faults and jobs. -/
theorem outgoing_of_run (hrun : Run x h) : Outgoing x := by
  have hx := orderly_of_run hrun
  obtain ⟨ms, hms⟩ : ∃ ms, x.Stream ms :=
    stream_of_leads ⟨[], .nil, .nil, fun u hu => absurd hu List.not_mem_nil⟩ hrun
  refine
    { call := fun hopen k t method args ht => attempt_begin hopen ht method args
      next := fun limit k t method args hnext => ?_
      stream := ⟨ms, hms.frames.imp fun _ _ hframe => hframe.conveys, hms.rising,
        Peer.feed_flatten hms.frames⟩ }
  obtain ⟨hopen, -, hlt⟩ := (hx.running_of_begin hnext).unsettled
  exact ⟨⟨hlt, hopen⟩, by simp only [step?, hnext]⟩

/-- A call with a truth value and a tuple among its arguments. -/
def taggedCall : Exchange :=
  ((start {}).settle.call "a" "m" [.bool true, .tuple [.int 7, .nil]]).settle

/-- What was sent for it has the symbol and the list in their places, and the peer goes on. -/
theorem outgoing_taggedCall :
    ∃ h, Run taggedCall h ∧ Outgoing taggedCall ∧ taggedCall.connection.peer.closed = false ∧
      taggedCall.sent.map Except.ok = [Frame.encode "(call 1 m (t (7 nil)))"] := by
  have hstart : Run (start {}) {} := .refl
  obtain ⟨_, hlistening⟩ := hstart.settle
  obtain ⟨h, hrun⟩ := (hlistening.call "a" "m" [.bool true, .tuple [.int 7, .nil]]).settle
  exact ⟨h, hrun, outgoing_of_run hrun, by decide +kernel, by decide +kernel⟩

end Exchange

end SuggestBridge
