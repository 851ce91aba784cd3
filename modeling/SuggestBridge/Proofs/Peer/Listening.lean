import SuggestBridge.Peer.Connection
import SuggestBridge.Proofs.Frame.Reassembly
import SuggestBridge.Proofs.Peer.Handling

/-!
# What a listener makes of a stream

However many chunks a listener reads before it has to wait, it does to the peer what the payloads
that became complete do one after the other.  `Listened` says so for one turn of the listener: the
bytes it took from the stream, the payloads it handled, which are the first ones of those bytes,
and, where the connection is over, the failure of the calls that still waited.
-/

namespace SuggestBridge.Connection

open SuggestBridge.Frame (leading)
open Peer (Handled Distinct firstVerdict closing)

variable {κ : Type} {isDone : Task.Id → Bool}

/-- A failure of the calls that wait when a connection is over. -/
def IsClosing (e : Failure) : Prop :=
  e = closing ∨ ∃ error : Frame.HeaderError, e = .protocol error.message

/-- The failure of the calls that wait when a header is corrupt. -/
def corruption : Except Frame.HeaderError (List Text) → Option Failure
  | .error e => some (.protocol e.message)
  | .ok _ => none

lemma isClosing_of_corruption {r : Except Frame.HeaderError (List Text)} {e : Failure}
    (h : corruption r = some e) : IsClosing e := by
  cases r with
  | error error =>
    cases h
    exact .inr ⟨error, rfl⟩
  | ok payloads => cases h

@[simp] lemma corruption_map (r : Except Frame.HeaderError (List Text))
    (f : List Text → List Text) : corruption (r.map f) = corruption r := by
  cases r <;> rfl

/-- The failure of the calls that still wait when the connection is over: that of the corrupt
header, if there is one among the bytes that were read. -/
def endFailure : Except Frame.HeaderError (List Text) → Failure
  | .error e => .protocol e.message
  | .ok _ => .closed Peer.closedMessage

lemma getD_corruption (r : Except Frame.HeaderError (List Text)) :
    (corruption r).getD closing = endFailure r := by
  cases r <;> rfl

lemma corruption_of_front {buffer : Bytes} (h : Frame.front buffer = .incomplete) :
    corruption (Frame.drain buffer).payloads = none := by
  rw [Frame.drain_of_incomplete h]
  rfl

/-- The verdict on the call with a number: that of the payloads, or else the rejection of all. -/
def verdictOn (done : List Text) (rejection : Option Failure) (uid : Nat) :
    Option (Except Failure Sexp) :=
  (firstVerdict uid done).or (rejection.map .error)

lemma verdictOn_none (done : List Text) : verdictOn done none = (firstVerdict · done) := by
  funext uid
  simp [verdictOn]

/-- Why a listener that took bytes from the stream may find the connection over. -/
def Over (c : Connection κ) (bytes : Bytes) : Prop :=
  c.incoming.buffer = [] ∨ c.incoming.ended = true ∨ c.incoming.failure ≠ none ∨
    (∃ e rest, Frame.drain (c.peer.buffer ++ bytes) = ⟨.error e, rest⟩) ∨
    ∃ payload ∈ leading (c.peer.buffer ++ bytes), Peer.Stops payload

/-! ## One chunk -/

/-- A chunk is handled as the payloads that it completes, or else as a rejection. -/
lemma received {p : Peer κ} (hp : p.Distinct) (isDone : Task.Id → Bool) (now : Float)
    (fault : Option Fault) (data : Bytes) :
    ∃ done rejection,
      Handled p (p.receive isDone now fault data).1 isDone (verdictOn done rejection)
        (p.receive isDone now fault data).2.1 ∧
      (p.receive isDone now fault data).1 =
        { p with
          pending := (p.receive isDone now fault data).1.pending
          buffer := (p.receive isDone now fault data).1.buffer } ∧
      done <+: leading (p.buffer ++ data) ∧
      rejection = corruption (Frame.drain (p.buffer ++ data)).payloads ∧
      ((p.receive isDone now fault data).2.2 = .proceed → rejection = none ∧
        Frame.drain (p.buffer ++ data) = ⟨.ok done, (p.receive isDone now fault data).1.buffer⟩ ∧
        ∀ payload ∈ done, Peer.message payload ≠ .unreadable) ∧
      ((p.receive isDone now fault data).2.2 ≠ .proceed →
        (∃ e rest, Frame.drain (p.buffer ++ data) = ⟨.error e, rest⟩) ∨
          ∃ payload ∈ leading (p.buffer ++ data), Peer.Stops payload) := by
  rw [Peer.receive]
  generalize hfed : Frame.feed p.buffer data = fed
  obtain ⟨payloads, buffer⟩ := fed
  rw [Frame.feed] at hfed
  cases payloads with
  | ok payloads =>
    have hq : Distinct { p with buffer } := hp
    obtain ⟨done, rest, rfl, hrest, hhandled, hsame⟩ :=
      Peer.handled_dispatchAll hq isDone now fault payloads
    refine ⟨done, none, ?_, ?_, ?_, by rw [hfed]; rfl, ?_, ?_⟩
    · rw [verdictOn_none]
      exact ⟨hhandled.pending, hhandled.nextUid, hhandled.settled, hhandled.once⟩
    · dsimp only at hsame ⊢
      rw [hsame]
    · rw [Frame.leading_of_drain hfed]
      exact List.prefix_append done rest
    · intro hproceed
      cases hrest hproceed
      refine ⟨rfl, ?_, ?_⟩
      · dsimp only at hsame hfed ⊢
        rw [hsame, hfed, List.append_nil]
      · have hreadable := Peer.readable_of_dispatchAll hproceed
        rwa [List.append_nil] at hreadable
    · intro hstop
      rw [Frame.leading_of_drain hfed]
      refine .inr ?_
      by_contra hnone
      exact hstop (Peer.dispatchAll_proceeds (fun payload hmem hstops =>
        hnone ⟨payload, hmem, hstops⟩) _ isDone now fault)
  | error e =>
    have hq : Distinct { p with buffer } := hp
    have hreject := Peer.handled_rejectAll hq isDone (.protocol e.message)
    refine ⟨[], some (.protocol e.message), ?_, rfl, List.nil_prefix, by rw [hfed]; rfl,
      fun hproceed => (by cases hproceed), fun _ => .inl ⟨e, buffer, hfed⟩⟩
    exact ⟨hreject.pending, hreject.nextUid, hreject.settled, hreject.once⟩

/-! ## All that can be read without waiting -/

/-- From `c` to `d` a listener took bytes from the stream and handled payloads. -/
structure Took (c d : Connection κ) (isDone : Task.Id → Bool) (bytes : Bytes) (done : List Text)
    (rejection : Option Failure) (effects : List (Peer.Effect κ)) : Prop where
  handled : Handled c.peer d.peer isDone (verdictOn done rejection) effects
  same : d = { c with
    peer := { c.peer with pending := d.peer.pending, buffer := d.peer.buffer }
    incoming := { c.incoming with buffer := d.incoming.buffer } }
  read : c.incoming.buffer = bytes ++ d.incoming.buffer
  done_prefix : done <+: leading (c.peer.buffer ++ bytes)
  rejected : ∀ e, rejection = some e → IsClosing e
  cause : Frame.front c.peer.buffer = .incomplete →
    rejection = corruption (Frame.drain (c.peer.buffer ++ bytes)).payloads

/-- A listener took all that it could without waiting, and pauses for a reason. -/
structure Absorbed (c d : Connection κ) (isDone : Task.Id → Bool) (bytes : Bytes)
    (done : List Text) (rejection : Option Failure) (effects : List (Peer.Effect κ))
    (pause : Pause) : Prop extends Took c d isDone bytes done rejection effects where
  blocked : pause = .blocked → rejection = none ∧ d.incoming.readiness = .blocked ∧
    Frame.drain (c.peer.buffer ++ bytes) = ⟨.ok done, d.peer.buffer⟩
  readable : pause = .blocked → ∀ payload ∈ done, Peer.message payload ≠ .unreadable
  ended : pause ≠ .blocked → Over c bytes

/-- More bytes after bytes that were handled in full. -/
lemma Took.trans {c d e : Connection κ} {bytes bytes' : Bytes} {done more : List Text}
    {rejection : Option Failure} {es fs : List (Peer.Effect κ)} {pause : Pause}
    (h : Took c d isDone bytes done none es)
    (hdrain : Frame.drain (c.peer.buffer ++ bytes) = ⟨.ok done, d.peer.buffer⟩)
    (hdone : ∀ payload ∈ done, Peer.message payload ≠ .unreadable)
    (hreadable : d.incoming.buffer = [] → d.incoming.ended = true)
    (h' : Absorbed d e isDone bytes' more rejection fs pause) (hc : c.peer.Distinct) :
    Absorbed c e isDone (bytes ++ bytes') (done ++ more) rejection (es ++ fs) pause where
  handled := by
    have hverdict : verdictOn (done ++ more) rejection =
        fun uid => (verdictOn done none uid).or (verdictOn more rejection uid) := by
      funext uid
      simp [verdictOn, Peer.firstVerdict_append, Option.or_assoc]
    rw [hverdict]
    exact h.handled.trans h'.handled hc
  same := by rw [h'.same, h.same]
  read := by rw [h.read, h'.read, List.append_assoc]
  done_prefix := by
    rw [← List.append_assoc, Frame.leading_append_of_drain hdrain]
    exact (List.prefix_append_right_inj done).2 h'.done_prefix
  rejected := h'.rejected
  cause _ := by
    obtain ⟨-, -, -, hfront⟩ := Frame.drain_eq_ok_iff.1 hdrain
    rw [h'.cause hfront, ← List.append_assoc, Frame.drain_append_of_ok hdrain, corruption_map]
  blocked hpause := by
    obtain ⟨hnone, hready, hmore⟩ := h'.blocked hpause
    refine ⟨hnone, hready, ?_⟩
    rw [← List.append_assoc, Frame.drain_append_of_ok hdrain, hmore]
    rfl
  readable hpause := List.forall_mem_append.2 ⟨hdone, h'.readable hpause⟩
  ended hpause := by
    rw [Over, ← List.append_assoc, Frame.leading_append_of_drain hdrain,
      Frame.drain_append_of_ok hdrain]
    have hfailure := congrArg (·.incoming.failure) h.same
    have hended := congrArg (·.incoming.ended) h.same
    dsimp only at hfailure hended
    rcases h'.ended hpause with hbuffer | hover | hover | ⟨e, rest, hover⟩ | ⟨payload, hmem, hstops⟩
    · exact .inr (.inl (hended ▸ hreadable hbuffer))
    · exact .inr (.inl (hended ▸ hover))
    · exact .inr (.inr (.inl (hfailure ▸ hover)))
    · exact .inr (.inr (.inr (.inl ⟨e, rest, by rw [hover]; rfl⟩)))
    · exact .inr (.inr (.inr (.inr ⟨payload, List.mem_append_right _ hmem, hstops⟩)))

lemma failure_of_failed {s : Task.Stream Failure} {e : Failure} (h : s.readiness = .failed e) :
    s.failure ≠ none := by
  intro hnone
  simp only [Task.Stream.readiness, hnone] at h
  split at h <;> cases h

lemma ended_of_readable {s : Task.Stream Failure} (h : s.readiness = .readable)
    (hempty : s.buffer = []) : s.ended = true := by
  cases hended : s.ended with
  | true => rfl
  | false =>
    simp only [Task.Stream.readiness, hempty, hended] at h
    split at h <;> cases h

lemma settlements_endOfStream (p : Peer κ) : Peer.settlements p.endOfStream = [] := by
  rw [Peer.endOfStream]
  split <;> rfl

lemma absorbed {c : Connection κ} (hc : c.peer.Distinct) (isDone : Task.Id → Bool) (now : Float)
    {fuel : Nat} (hfuel : c.incoming.buffer.length < fuel) :
    ∃ bytes done rejection,
      Absorbed c (c.absorb isDone now fuel).1 isDone bytes done rejection
        (c.absorb isDone now fuel).2.1 (c.absorb isDone now fuel).2.2 := by
  induction fuel generalizing c with
  | zero => exact absurd hfuel (Nat.not_lt_zero _)
  | succ fuel ih =>
    have hcut := List.take_append_drop chunkSize c.incoming.buffer
    rw [absorb]
    dsimp only [Task.Stream.take]
    split
    · next hempty =>
      rw [List.isEmpty_iff.1 hempty, List.nil_append] at hcut
      refine ⟨[], [], none, ?_⟩
      exact
        { handled := .of_no_verdict rfl rfl (fun _ => rfl) (settlements_endOfStream c.peer)
          same := by simp
          read := hcut.symm
          done_prefix := List.nil_prefix
          rejected := by simp
          cause := fun hfront => by rw [List.append_nil, corruption_of_front hfront]
          blocked := fun h => nomatch h
          readable := fun h => nomatch h
          ended := fun _ => .inl (by simpa [chunkSize] using hempty) }
    · next hdata =>
      have hshorter : (c.incoming.buffer.drop chunkSize).length < c.incoming.buffer.length := by
        cases hbuffer : c.incoming.buffer with
        | nil => simp [hbuffer] at hdata
        | cons b bs =>
          rw [List.length_drop, List.length_cons, chunkSize]
          omega
      obtain ⟨done, rejection, hhandled, hsame, hprefix, hrejected, hproceed, hstop⟩ :=
        received hc isDone now (c.refusalFault.or c.writeFault)
          (c.incoming.buffer.take chunkSize)
      rcases hreceive : c.peer.receive isDone now (c.refusalFault.or c.writeFault)
        (c.incoming.buffer.take chunkSize) with ⟨p, es, verdict⟩
      rw [hreceive] at hhandled hsame hproceed hstop
      dsimp only at hhandled hsame hproceed hstop
      -- the first chunk alone
      have hone : Took c
          { c with
            peer := p
            incoming := { c.incoming with buffer := c.incoming.buffer.drop chunkSize } }
          isDone (c.incoming.buffer.take chunkSize) done rejection es :=
        { handled := hhandled
          same := by dsimp only; rw [← hsame]
          read := hcut.symm
          done_prefix := hprefix
          rejected := fun e he => isClosing_of_corruption (hrejected ▸ he)
          cause := fun _ => hrejected }
      cases verdict with
      | stop cause =>
        exact ⟨_, done, rejection, hone, nofun, nofun, fun _ => .inr (.inr (.inr (hstop nofun)))⟩
      | proceed =>
        obtain ⟨rfl, hdrain, hreadable⟩ := hproceed rfl
        dsimp only
        split
        · next e hfailed =>
          have hfailure := failure_of_failed hfailed
          exact ⟨_, done, none, hone, nofun, nofun, fun _ => .inr (.inr (.inl hfailure))⟩
        · next hblocked =>
          exact ⟨_, done, none, hone, fun _ => ⟨rfl, hblocked, hdrain⟩, fun _ => hreadable,
            fun h => absurd rfl h⟩
        · next hmore =>
          obtain ⟨bytes, more, rejection, hrest⟩ := @ih
            { c with
              peer := p
              incoming := { c.incoming with buffer := c.incoming.buffer.drop chunkSize } }
            (hhandled.distinct hc) (Nat.lt_of_lt_of_le hshorter (Nat.le_of_lt_succ hfuel))
          exact ⟨_, _, _, hone.trans hdrain hreadable (ended_of_readable hmore) hrest hc⟩

/-! ## One turn of the listener -/

/-- From `c` to `d` a listener had its turn: it handled payloads, and then either waits for more
bytes or has closed the peer. -/
structure Listened (c d : Connection κ) (isDone : Task.Id → Bool) (bytes : Bytes)
    (done : List Text) (rejection : Option Failure) (effects : List (Peer.Effect κ))
    (pause : Pause) : Prop where
  handled : Handled c.peer d.peer isDone (verdictOn done rejection) effects
  same : d = { c with
    peer := { c.peer with
      pending := d.peer.pending, buffer := d.peer.buffer, closed := d.peer.closed
      callbacks := d.peer.callbacks }
    incoming := { c.incoming with buffer := d.incoming.buffer } }
  read : c.incoming.buffer = bytes ++ d.incoming.buffer
  done_prefix : done <+: leading (c.peer.buffer ++ bytes)
  blocked : pause = .blocked → rejection = none ∧ d.peer.closed = c.peer.closed ∧
    d.incoming.readiness = .blocked ∧
    Frame.drain (c.peer.buffer ++ bytes) = ⟨.ok done, d.peer.buffer⟩
  readable : pause = .blocked → ∀ payload ∈ done, Peer.message payload ≠ .unreadable
  ended : ∀ cause, pause = .ended cause →
    d.peer.closed = true ∧ ∃ e, rejection = some e ∧ IsClosing e
  cause : pause ≠ .blocked → Frame.front c.peer.buffer = .incomplete →
    rejection =
      some ((corruption (Frame.drain (c.peer.buffer ++ bytes)).payloads).getD closing)

@[simp] lemma endListening_pause (d : Connection κ) (es : List (Peer.Effect κ)) (pause : Pause) :
    (endListening isDone (d, es, pause)).2.2 = pause := by
  cases pause <;> rfl

/-- A listener whose connection is over closes the peer. -/
lemma Took.listened {c d : Connection κ} {bytes : Bytes} {done : List Text}
    {rejection : Option Failure} {es : List (Peer.Effect κ)} {pause : Pause}
    (h : Took c d isDone bytes done rejection es)
    (hblocked : pause = .blocked → rejection = none ∧ d.incoming.readiness = .blocked ∧
      Frame.drain (c.peer.buffer ++ bytes) = ⟨.ok done, d.peer.buffer⟩)
    (hreadable : pause = .blocked → ∀ payload ∈ done, Peer.message payload ≠ .unreadable)
    (hc : c.peer.Distinct) (hclosed : c.peer.closed = true → c.peer.pending = []) :
    ∃ rejection, Listened c (endListening isDone (d, es, pause)).1 isDone bytes done rejection
      (endListening isDone (d, es, pause)).2.1 pause := by
  cases pause with
  | blocked =>
    obtain ⟨rfl, hready, hdrain⟩ := hblocked rfl
    refine ⟨none, ?_⟩
    exact
      { handled := h.handled
        same := by
          have hsame := h.same
          dsimp only [endListening]
          rw [hsame]
        read := h.read
        done_prefix := h.done_prefix
        blocked := fun _ => ⟨rfl, congrArg (·.peer.closed) h.same, hready, hdrain⟩
        readable := hreadable
        ended := fun _ hpause => nomatch hpause
        cause := fun hpause => absurd rfl hpause }
  | ended cause =>
    have hd : d.peer.closed = true → d.peer.pending = [] := by
      intro hd
      rw [h.handled.pending, hclosed (by rwa [h.same] at hd), List.filter_nil]
    have hclose := Peer.handled_close (h.handled.distinct hc) hd isDone cause
    refine ⟨some (rejection.getD closing), ?_⟩
    exact
      { handled := by
          have hverdict : verdictOn done (some (rejection.getD closing)) =
              fun uid => (verdictOn done rejection uid).or (some (.error closing)) := by
            funext uid
            cases rejection <;> simp [verdictOn]
          rw [hverdict]
          exact h.handled.trans hclose hc
        same := by
          have hsame := h.same
          dsimp only [endListening, withPeer]
          rw [Peer.close_fst, hsame]
        read := h.read
        done_prefix := h.done_prefix
        blocked := fun hpause => nomatch hpause
        readable := fun hpause => nomatch hpause
        ended := fun _ _ => by
          refine ⟨Peer.closed_close d.peer isDone cause, rejection.getD closing, rfl, ?_⟩
          cases hrejection : rejection with
          | none => exact .inl rfl
          | some e => exact h.rejected e hrejection
        cause := fun _ hfront => by rw [← h.cause hfront] }

/-- A turn in which nothing is read. -/
lemma listened_nothing {c : Connection κ} (hc : c.peer.Distinct)
    (hclosed : c.peer.closed = true → c.peer.pending = []) (isDone : Task.Id → Bool)
    {pause : Pause} (hpause : pause = .blocked → c.incoming.readiness = .blocked ∧
      Frame.front c.peer.buffer = .incomplete) :
    ∃ rejection, Listened c (endListening isDone (c, [], pause)).1 isDone [] [] rejection
      (endListening isDone (c, [], pause)).2.1 pause := by
  have hnothing : Took c c isDone [] [] none [] :=
    { handled := .of_no_verdict rfl rfl (fun _ => rfl) rfl
      same := rfl
      read := rfl
      done_prefix := List.nil_prefix
      rejected := by simp
      cause := fun hfront => by rw [List.append_nil, corruption_of_front hfront] }
  refine hnothing.listened (fun h => ⟨rfl, (hpause h).1, ?_⟩) (by simp) hc hclosed
  rw [List.append_nil, Frame.drain_of_incomplete (hpause h).2]

/-- A turn in which all that is there is read. -/
lemma listened_absorb {c : Connection κ} (hc : c.peer.Distinct)
    (hclosed : c.peer.closed = true → c.peer.pending = []) (isDone : Task.Id → Bool)
    (now : Float) :
    ∃ bytes done rejection,
      Listened c (endListening isDone (c.absorb isDone now c.absorbFuel)).1 isDone bytes done
        rejection (endListening isDone (c.absorb isDone now c.absorbFuel)).2.1
        (endListening isDone (c.absorb isDone now c.absorbFuel)).2.2 ∧
      ((endListening isDone (c.absorb isDone now c.absorbFuel)).2.2 ≠ .blocked → Over c bytes) := by
  obtain ⟨bytes, done, rejection, h⟩ := absorbed hc isDone now
    (show c.incoming.buffer.length < c.absorbFuel by rw [absorbFuel]; omega)
  obtain ⟨rejection, hlistened⟩ := h.toTook.listened h.blocked h.readable hc hclosed
  rw [endListening_pause]
  exact ⟨bytes, done, rejection, hlistened, h.ended⟩

lemma listened_beginListening {c : Connection κ} (hc : c.peer.Distinct)
    (hclosed : c.peer.closed = true → c.peer.pending = [])
    (hfront : Frame.front c.peer.buffer = .incomplete) (isDone : Task.Id → Bool) (now : Float) :
    ∃ bytes done rejection, Listened c (c.beginListening isDone now).1 isDone bytes done rejection
      (c.beginListening isDone now).2.1 (c.beginListening isDone now).2.2 ∧
      ((c.beginListening isDone now).2.2 ≠ .blocked →
        Over c bytes ∧ c.incoming.readiness ≠ .blocked) := by
  rw [beginListening]
  cases hready : c.incoming.readiness with
  | failed e =>
    obtain ⟨rejection, h⟩ := @listened_nothing κ c hc hclosed isDone (.ended (causeOf e)) nofun
    exact ⟨[], [], rejection, h, fun _ => ⟨.inr (.inr (.inl (failure_of_failed hready))), nofun⟩⟩
  | blocked =>
    obtain ⟨rejection, h⟩ := listened_nothing hc hclosed isDone fun _ => ⟨hready, hfront⟩
    exact ⟨[], [], rejection, h, fun hpause => absurd rfl hpause⟩
  | readable =>
    obtain ⟨bytes, done, rejection, h, hover⟩ := listened_absorb hc hclosed isDone now
    exact ⟨bytes, done, rejection, h, fun hpause => ⟨hover hpause, nofun⟩⟩

lemma listened_resumeListening {ν : Type} {c : Connection κ} (hc : c.peer.Distinct)
    (hclosed : c.peer.closed = true → c.peer.pending = []) (isDone : Task.Id → Bool) (now : Float)
    (input : Task.Outcome ν Failure) :
    ∃ bytes done rejection,
      Listened c (c.resumeListening isDone now input).1 isDone bytes done rejection
        (c.resumeListening isDone now input).2.1 (c.resumeListening isDone now input).2.2 ∧
      ((c.resumeListening isDone now input).2.2 ≠ .blocked →
        (∀ v, input ≠ .value v) ∨ Over c bytes) := by
  unfold resumeListening
  cases input with
  | value v =>
    obtain ⟨bytes, done, rejection, h, hover⟩ := listened_absorb hc hclosed isDone now
    exact ⟨bytes, done, rejection, h, fun hpause => .inr (hover hpause)⟩
  | failure e =>
    obtain ⟨rejection, h⟩ := @listened_nothing κ c hc hclosed isDone (.ended (causeOf e)) nofun
    exact ⟨[], [], rejection, h, fun _ => .inl nofun⟩
  | cancelled =>
    obtain ⟨rejection, h⟩ := @listened_nothing κ c hc hclosed isDone (.ended none) nofun
    exact ⟨[], [], rejection, h, fun _ => .inl nofun⟩

end SuggestBridge.Connection
