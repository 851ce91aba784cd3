import SuggestBridge.Proofs.Peer.Rejection
import SuggestBridge.Proofs.Sexp.Overlong

/-!
# What ends the listener

Whatever the other side sends that is no call, the listener treats it and goes on, unless it holds a
number with more digits than an integer may be read from.  Such a payload is neither a message nor
reported as none: reading stops there, and with it the listener and the connection.  An open peer has
therefore received none (`readable_of_run`), and when frames without calls have been delivered and no
job is left, the peer is closed exactly if one of them was such a payload (`enduring_of_run`).
-/

namespace SuggestBridge

namespace Peer

variable {κ : Type} {p : Peer κ} {payload : Text}

/-- A call of the other side. -/
def IsCall (payload : Text) : Prop := ∃ uid subject, message payload = .request uid subject

/-- A payload with a number that has more digits than an integer may be read from, behind what can be
read. -/
def Overlong (payload : Text) : Prop := ∃ n, Sexp.Overlong payload n

lemma message_eq_unreadable_iff : message payload = .unreadable ↔ Overlong payload := by
  have hread : message payload = .unreadable ↔ ∃ e, Sexp.read payload = .error (.digits e) := by
    unfold message
    cases Sexp.read payload with
    | error e => cases e <;> simp
    | ok v =>
      simp only [reduceCtorEq, exists_false, iff_false]
      rcases parts? v with _ | ⟨kind, uid, value⟩
      · exact nofun
      · dsimp only
        split <;> exact nofun
  rw [hread, Overlong]
  constructor
  · rintro ⟨e, he⟩
    obtain ⟨n, hn, -⟩ := Sexp.read_eq_digits_iff.1 he
    exact ⟨n, hn⟩
  · rintro ⟨n, hn⟩
    exact ⟨_, Sexp.read_eq_digits_iff.2 ⟨n, hn, rfl⟩⟩

lemma stops_iff : Stops payload ↔ Overlong payload ∨ IsCall payload := by
  rw [Stops, message_eq_unreadable_iff, IsCall]

/-- A payload at whose number reading stops stops the listener, and nothing else happens. -/
lemma dispatch_overlong (h : Overlong payload) (p : Peer κ) (isDone : Task.Id → Bool) (now : Float)
    (fault : Option Fault) : p.dispatch isDone now fault payload = (p, [], .stop none) := by
  rw [dispatch_eq, message_eq_unreadable_iff.2 h]

/-- Any other payload that is no call is treated, and leaves the peer as open as it was. -/
lemma dispatch_enduring (hover : ¬Overlong payload) (hcall : ¬IsCall payload) (p : Peer κ)
    (isDone : Task.Id → Bool) (now : Float) (fault : Option Fault) :
    ∃ q es, p.dispatch isDone now fault payload = (q, es, .proceed) ∧ q.closed = p.closed := by
  have hproceeds := dispatch_proceeds (fun h => (stops_iff.1 h).elim hover hcall) p isDone now fault
  have hsame := dispatch_fst p isDone now fault payload
  exact ⟨_, _, Prod.ext rfl (Prod.ext rfl hproceeds), congrArg (·.closed) hsame⟩

end Peer

namespace Exchange

open SuggestBridge.Frame (Whole bytesOf)
open Peer (History IsCall Overlong)

variable {x y : Exchange} {h h' : History}

/-- What an open peer has received could be read. -/
theorem readable_of_run (hrun : Run x h) (hopen : x.connection.peer.closed = false) :
    ∀ payload ∈ h.received, ¬Overlong payload := by
  induction hrun with
  | refl =>
    have hnothing : History.received {} = [] := Frame.leading_of_drain (Frame.drain_of_incomplete rfl)
    simp [hnothing]
  | @occur y h' e hl ih =>
    obtain ⟨-, hlater⟩ := (orderly_of_run hl).occur e
    exact ih (by simpa using mt hlater.closed (by simp [hopen]))
  | @work y z h' limit hl hstep ih =>
    have hy := orderly_of_run hl
    obtain ⟨-, _, hlater⟩ := hy.work (work_of_step? hy hstep)
    have hbefore := ih (by simpa using mt hlater.closed (by simp [hopen]))
    by_cases hnew : (note h' y limit z).received = h'.received
    · rwa [hnew]
    -- the job is one of the listener, which waits for more
    obtain ⟨l, a, bytes, done, failure, d, es, pause, made, progress, ha, hb, listened, -, hpeer,
      hnote⟩ := hy.listener_of_received hstep hnew
    cases pause with
    | ended cause =>
      rw [hpeer, (listened.ended cause rfl).1] at hopen
      cases hopen
    | blocked =>
      obtain ⟨-, -, -, hdrain⟩ := listened.blocked rfl
      rw [hnote, received_add hy ha hb, Frame.leading_of_drain hdrain]
      refine List.forall_mem_append.2 ⟨hbefore, fun payload hmem hover => ?_⟩
      exact listened.readable rfl payload hmem (Peer.message_eq_unreadable_iff.2 hover)

/-- While nothing but such payloads is delivered, the peer stays open and its listener goes on. -/
lemma listens_of_delivers (hrun : Run x h) (hs : x.Sound) {bytes : Bytes} {ws : List Whole}
    (hcalls : ∀ w ∈ ws, ¬IsCall w.payload) (hshort : ∀ w ∈ ws, ¬Overlong w.payload)
    (hd : Delivers x h bytes y h')
    (hbytes : x.connection.peer.buffer ++ (x.connection.incoming.buffer ++ bytes) <+: bytesOf ws) :
    y.connection.peer.closed = false ∧
      ∃ l a, y.kernel.activity? l = some a ∧ a.body = some .listen := by
  have hdelivering := hd.delivering (orderly_of_run hrun) (attentive_of_run hrun) hs
    (fun w hw hstops => (Peer.stops_iff.1 hstops).elim (hshort w hw) (hcalls w hw)) hbytes
  have hopen := hdelivering.sound.opened
  exact ⟨hopen, hdelivering.order.exists_listener hopen⟩

/-- When a payload at whose number reading stops has been delivered and no job is left, the peer is
closed: it would have received that payload otherwise. -/
lemma closed_of_delivers (hrun : Run x h) (hs : x.Sound) {bytes : Bytes} {ws : List Whole}
    (hd : Delivers x h bytes y h')
    (hbytes : x.connection.peer.buffer ++ (x.connection.incoming.buffer ++ bytes) = bytesOf ws)
    (hready : y.kernel.ready = []) {w : Whole} (hw : w ∈ ws) (hover : Overlong w.payload) :
    y.connection.peer.closed = true := by
  by_contra hopen
  have hopen := Bool.not_eq_true _ ▸ hopen
  have hreceived := hd.received_of_opened (orderly_of_run hrun) hs hbytes hready hopen
  refine readable_of_run (Leads.trans hrun hd.leads) hopen w.payload ?_ hover
  rw [hreceived]
  exact List.mem_append_right _ (List.mem_map_of_mem hw)

/-! ## What is promised -/

/-- What is promised about payloads that are no calls of the other side. -/
structure Enduring (x : Exchange) (h : History) : Prop where
  /-- Every payload has a value, or is reported as malformed, or holds a number at which reading
  stops. -/
  reads : ∀ payload, (∃ v, Sexp.read payload = .ok v ∧ v.Readable) ∨
    (∃ e, Sexp.read payload = .error (.malformed e)) ∨
    Overlong payload ∧ ∃ n, Sexp.read payload = .error (.digits (.reading n))
  /-- Only the last stops the listener.  Any other is treated, and leaves the peer as open as it
  was. -/
  dispatches : ∀ payload, ¬IsCall payload → ∀ isDone now fault,
    (Overlong payload ∧
        x.connection.peer.dispatch isDone now fault payload = (x.connection.peer, [], .stop none)) ∨
      ¬Overlong payload ∧ ∃ q es,
        x.connection.peer.dispatch isDone now fault payload = (q, es, .proceed) ∧
        q.closed = x.connection.peer.closed
  /-- An open peer has received none at whose number reading stops. -/
  received : x.connection.peer.closed = false → ∀ payload ∈ h.received, ¬Overlong payload
  /-- From a state in which nothing takes the connection down, when frames without calls arrive in
  any chunks, between any jobs: the listener goes on if all of them can be read, and when they have
  arrived and no job is left, the peer is closed exactly if one of them cannot. -/
  delivers : x.Sound → ∀ ws : List Whole, (∀ w ∈ ws, ¬IsCall w.payload) →
    ∀ bytes y h', Delivers x h bytes y h' →
    (x.connection.peer.buffer ++ (x.connection.incoming.buffer ++ bytes) <+: bytesOf ws →
      (∀ w ∈ ws, ¬Overlong w.payload) → y.connection.peer.closed = false ∧
        ∃ l a, y.kernel.activity? l = some a ∧ a.body = some .listen) ∧
    (x.connection.peer.buffer ++ (x.connection.incoming.buffer ++ bytes) = bytesOf ws →
      y.kernel.ready = [] →
      (y.connection.peer.closed = true ↔ ∃ w ∈ ws, Overlong w.payload))

/-- **Nothing but a call or a number that cannot be read ends the listener.**  In every state that a
run has reached, in any order of calls, cancellations, chunks, faults and jobs. -/
theorem enduring_of_run (hrun : Run x h) : Enduring x h where
  reads payload := by
    rcases Sexp.read_cases payload with hvalue | hmalformed | ⟨n, hn, hread⟩
    · exact .inl hvalue
    · exact .inr (.inl hmalformed)
    · exact .inr (.inr ⟨⟨n, hn⟩, n, hread⟩)
  dispatches payload hcall isDone now fault := by
    by_cases hover : Overlong payload
    · exact .inl ⟨hover, Peer.dispatch_overlong hover _ isDone now fault⟩
    · exact .inr ⟨hover, Peer.dispatch_enduring hover hcall _ isDone now fault⟩
  received := readable_of_run hrun
  delivers hs ws hcalls bytes y h' hd := by
    refine ⟨fun hbytes hshort => listens_of_delivers hrun hs hcalls hshort hd hbytes,
      fun hbytes hready => ⟨fun hclosed => ?_, fun ⟨w, hw, hover⟩ =>
        closed_of_delivers hrun hs hd hbytes hready hw hover⟩⟩
    by_contra hnone
    have hshort : ∀ w ∈ ws, ¬Overlong w.payload := fun w hw hover => hnone ⟨w, hw, hover⟩
    have hopen := listens_of_delivers hrun hs hcalls hshort hd (hbytes ▸ List.prefix_refl _)
    cases hclosed.symm.trans hopen.1

/-- A number with one digit more than an integer may be read from, as bytes. -/
def longNumber : Whole where
  head := Frame.hexBytes 6 (Integer.digitLimit + 1)
  body := List.replicate (Integer.digitLimit + 1) 0x31
  length_head := by decide
  readHex_head := by
    rw [List.length_replicate]
    decide

lemma decode_replicate (n : Nat) :
    Utf8.decode (List.replicate n 0x31) = List.replicate n (CodePoint.ofNat 0x31) := by
  induction n with
  | zero => rfl
  | succ n ih =>
    rw [List.replicate_succ, List.replicate_succ, ← ih]
    exact Utf8.decodeFrom_single (n := 0x31) (by decide) _

lemma payload_longNumber :
    longNumber.payload = List.replicate (Integer.digitLimit + 1) (CodePoint.ofNat 0x31) :=
  decode_replicate _

lemma overlong_longNumber : Overlong longNumber.payload := by
  have hdigits : Sexp.IsDigits longNumber.payload := by
    rw [payload_longNumber]
    refine ⟨by simp, fun c hc => ?_⟩
    rw [List.eq_of_mem_replicate hc]
    decide
  refine ⟨_, Sexp.overlong_digits hdigits ?_⟩
  rw [payload_longNumber, List.length_replicate]
  exact Nat.lt_succ_self _

lemma not_isCall_longNumber : ¬IsCall longNumber.payload := by
  rintro ⟨uid, subject, hcall⟩
  rw [Peer.message_eq_unreadable_iff.2 overlong_longNumber] at hcall
  cases hcall

/-- Two calls wait when a long number arrives: the connection ends. -/
theorem enduring_twoCalls :
    ∃ h y h', Run twoCalls h ∧ Enduring twoCalls h ∧
      Delivers twoCalls h longNumber.bytes y h' ∧ y.connection.peer.closed = true := by
  have hstart : Run (start {}) {} := .refl
  obtain ⟨_, hlistening⟩ := hstart.settle
  obtain ⟨h, hrun⟩ := ((hlistening.call "a" "m" []).call "b" "m" []).settle
  rw [← twoCalls] at hrun
  have hquiet : twoCalls.Quiet := ⟨List.isEmpty_iff.1 (by decide +kernel), by decide +kernel⟩
  have hempty : twoCalls.connection.peer.buffer = [] := by decide +kernel
  have hnothing : twoCalls.connection.incoming.buffer = [] := by decide +kernel
  have hdata : Delivers twoCalls h ([] ++ longNumber.bytes) _ h := .data longNumber.bytes .refl
  obtain ⟨y, h', hrest, hready⟩ := ((orderly_of_run hrun).leads hdata.leads).exists_rest
  have hd := hdata.trans hrest
  rw [List.nil_append, List.append_nil] at hd
  have henduring := enduring_of_run hrun
  obtain ⟨-, hclosed⟩ := henduring.delivers (hquiet.sound (orderly_of_run hrun)) [longNumber]
    (fun w hw => List.mem_singleton.1 hw ▸ not_isCall_longNumber) _ y h' hd
  refine ⟨h, y, h', hrun, henduring, hd, ?_⟩
  exact (hclosed (by simp [hempty, hnothing, bytesOf]) hready).2
    ⟨longNumber, List.mem_singleton_self _, overlong_longNumber⟩

/-- A long number is no call, and reading it gives neither a value nor a report that it is malformed:
on an open peer it stops the listener. -/
theorem stopped_by_longNumber :
    ¬IsCall longNumber.payload ∧ (∀ v, Sexp.read longNumber.payload ≠ .ok v) ∧
      (∀ e, Sexp.read longNumber.payload ≠ .error (.malformed e)) ∧
      twoCalls.connection.peer.closed = false ∧ ∀ isDone now fault,
        twoCalls.connection.peer.dispatch isDone now fault longNumber.payload =
          (twoCalls.connection.peer, [], .stop none) := by
  obtain ⟨n, hn⟩ := overlong_longNumber
  have hread := Sexp.read_eq_digits_iff.2 ⟨n, hn, rfl⟩
  refine ⟨not_isCall_longNumber, ?_, ?_, by decide +kernel,
    fun isDone now fault => Peer.dispatch_overlong overlong_longNumber _ isDone now fault⟩
  · intro v hv
    cases hread.symm.trans hv
  · intro e he
    cases hread.symm.trans he

end Exchange

end SuggestBridge
