import SuggestBridge.Peer.Connection
import SuggestBridge.Proofs.Peer.Handling

/-!
# What a call makes of a peer

A call that begins takes a number, unless the peer is closed (`Begun`).  If its message can be sent
it is put on the list of the calls that wait, and goes on like any call that was waiting for the
write buffer to drain (`Went`): it waits, or it leaves with its entry still on the list, or it takes
the connection down.
-/

namespace SuggestBridge.Connection

open Peer (Handled settlements closing)

variable {κ : Type} {isDone : Task.Id → Bool} {c : Connection κ}

/-- How a call goes on that has a number and waits for no reply yet. `drained` is the future that it
may wait for until the write buffer has drained. -/
inductive Went (c : Connection κ) (isDone : Task.Id → Bool) (uid : Nat) (future : Task.Id)
    (drained : Option Task.Id) : Connection κ → List (Peer.Effect κ) → CallProgress → Prop
  | awaits {es} (hes : settlements es = []) :
    Went c isDone uid future drained c es (.waits (.awaiting uid future) future)
  | drains {es d} (hes : settlements es = []) (hd : drained = some d) :
    Went c isDone uid future drained { c with draining := c.draining ++ [d] } es
      (.waits (.draining uid future) d)
  | leaves {es o} (hes : settlements es = [])
    (ho : o = .cancelled ∨ ∃ e : Failure, e.isSystem = false ∧ o = .failure e) :
    Went c isDone uid future drained c es (.ends o)
  | breaks {p es m}
    (handled : Handled (c.peer.forget uid) p isDone (fun _ => some (.error closing)) es)
    (closed : p.closed = true) (buffer : p.buffer = c.peer.buffer) :
    Went c isDone uid future drained { c with peer := p } es (.ends (.failure (.closed m)))

/-- A call reads nothing. -/
lemma Went.incoming {uid : Nat} {future : Task.Id} {drained : Option Task.Id} {d : Connection κ}
    {es : List (Peer.Effect κ)} {progress : CallProgress}
    (h : Went c isDone uid future drained d es progress) : d.incoming = c.incoming := by
  cases h <;> rfl

lemma went_failSending (hc : c.peer.Distinct) (hclosed : c.peer.closed = true → c.peer.pending = [])
    (isDone : Task.Id → Bool) (uid : Nat) (future : Task.Id) (drained : Option Task.Id)
    (f : Fault) :
    Went c isDone uid future drained (c.failSending isDone uid f).1
      (c.failSending isDone uid f).2.1 (c.failSending isDone uid f).2.2 := by
  rw [failSending]
  split
  · have hforget : (c.peer.forget uid).Distinct := hc.of_sublist List.filter_sublist
    have hempty : (c.peer.forget uid).closed = true → (c.peer.forget uid).pending = [] := by
      intro h
      rw [Peer.forget, hclosed h, List.filter_nil]
    refine .breaks (Peer.handled_close hforget hempty isDone _) (Peer.closed_close _ _ _) ?_
    exact congrArg (·.buffer) (Peer.close_fst (c.peer.forget uid) isDone (some f.message))
  · next hsystem =>
    exact .leaves rfl (.inr ⟨.fault f, by simpa [Failure.isSystem] using hsystem, rfl⟩)

/-- One more effect that settles nothing. -/
lemma Went.send {uid : Nat} {future : Task.Id} {drained : Option Task.Id} {d : Connection κ}
    {es : List (Peer.Effect κ)} {progress : CallProgress} (frame : Bytes)
    (h : Went c isDone uid future drained d es progress) :
    Went c isDone uid future drained d (.send frame :: es) progress := by
  cases h with
  | awaits hes => exact .awaits hes
  | drains hes hd => exact .drains hes hd
  | leaves hes ho => exact .leaves hes ho
  | breaks handled closed buffer =>
    exact .breaks ⟨handled.pending, handled.nextUid, handled.settled, handled.once⟩ closed buffer

/-- A call that waited for the write buffer to drain goes on. -/
lemma went_resumeCall (hc : c.peer.Distinct) (hclosed : c.peer.closed = true → c.peer.pending = [])
    (isDone : Task.Id → Bool) (uid : Nat) (future : Task.Id)
    (input : Task.Outcome Sexp Failure) :
    Went c isDone uid future none (c.resumeCall isDone (.draining uid future) input).1
      (c.resumeCall isDone (.draining uid future) input).2.1
      (c.resumeCall isDone (.draining uid future) input).2.2 := by
  unfold resumeCall
  split
  · next heq => cases heq
  · next heq =>
    cases heq
    split
    · exact .awaits rfl
    · exact went_failSending hc hclosed isDone uid future none _
    · next hvalue hfault =>
      refine .leaves rfl ?_
      cases input with
      | value v => exact absurd rfl (hvalue v)
      | cancelled => exact .inl rfl
      | failure e =>
        refine .inr ⟨e, ?_, rfl⟩
        cases e with
        | fault f => exact absurd rfl (hfault f)
        | _ => rfl

/-- A call closes the peer only for a fault of the connection. -/
lemma closed_failSending (c : Connection κ) (isDone : Task.Id → Bool) (uid : Nat) {f : Fault}
    (hf : f.isSystem = false) : (c.failSending isDone uid f).1.peer.closed = c.peer.closed := by
  rw [failSending, if_neg (by simp [hf])]

lemma fault_of_resumeCall {uid : Nat} {future : Task.Id} {input : Task.Outcome Sexp Failure}
    (h : (c.resumeCall isDone (.draining uid future) input).1.peer.closed ≠ c.peer.closed) :
    ∃ f : Fault, input = .failure (.fault f) ∧ f.isSystem = true := by
  unfold resumeCall at h
  split at h
  · next heq => cases heq
  · next heq =>
    cases heq
    split at h
    · exact absurd rfl h
    · next f =>
      refine ⟨f, rfl, ?_⟩
      by_contra hf
      exact h (closed_failSending c isDone _ (by simpa using hf))
    · exact absurd rfl h

/-- A call that ends while its frame is being sent takes the connection down, or finds a fault that
is not one of the connection. -/
lemma left_failSending {uid : Nat} {f : Fault} {o : Task.Outcome Sexp Failure}
    (h : (c.failSending isDone uid f).2.2 = .ends o) :
    (c.failSending isDone uid f).1.peer.closed = true ∨
      f.isSystem = false ∧ o = .failure (.fault f) := by
  rw [failSending] at h ⊢
  split at h
  · next hsystem =>
    rw [if_pos hsystem]
    exact .inl (Peer.closed_close (c.peer.forget uid) isDone _)
  · next hsystem =>
    cases h
    exact .inr ⟨by simpa using hsystem, rfl⟩

/-- A call that is told how the draining of the write buffer went, and ends, ends so. -/
lemma left_resumeCall {uid : Nat} {future : Task.Id} {input o : Task.Outcome Sexp Failure}
    (h : (c.resumeCall isDone (.draining uid future) input).2.2 = .ends o) :
    (c.resumeCall isDone (.draining uid future) input).1.peer.closed = true ∨ o = input := by
  unfold resumeCall at h ⊢
  split at h
  · next heq => cases heq
  · next heq =>
    cases heq
    split at h
    · cases h
    · exact (left_failSending h).imp_right fun ho => ho.2
    · cases h
      exact .inr rfl

/-! ## Beginning a call -/

/-- The peer when a call has taken its number. -/
def numbered (p : Peer κ) : Peer κ := { p with nextUid := p.nextUid + 1 }

/-- The peer when a call is on the list of those that wait. -/
def listed (p : Peer κ) (method : Text) (future : Task.Id) (now : Float) : Peer κ :=
  { numbered p with pending := p.pending ++ [⟨p.nextUid, method, future, now⟩] }

/-- How a call begins. -/
inductive Begun (c : Connection κ) (isDone : Task.Id → Bool) (future drained : Task.Id) :
    Connection κ → List (Peer.Effect κ) → CallProgress → Prop
  | refused {e} (closed : c.peer.closed = true) :
    Begun c isDone future drained c [] (.ends (.failure e))
  | unsendable {e} (closed : c.peer.closed = false) :
    Begun c isDone future drained { c with peer := numbered c.peer } [] (.ends (.failure e))
  | issued {method now d es progress} (closed : c.peer.closed = false)
    (went : Went { c with peer := listed c.peer method future now } isDone c.peer.nextUid future
      (some drained) d es progress) :
    Begun c isDone future drained d es progress

lemma Begun.incoming {future drained : Task.Id} {d : Connection κ} {es : List (Peer.Effect κ)}
    {progress : CallProgress} (h : Begun c isDone future drained d es progress) :
    d.incoming = c.incoming := by
  cases h with
  | refused => rfl
  | unsendable => rfl
  | issued _ went => exact went.incoming

/-- A new number and a new future keep the calls that wait apart. -/
lemma distinct_listed {p : Peer κ} (hp : p.Distinct) (huid : ∀ c ∈ p.pending, c.uid < p.nextUid)
    {future : Task.Id} (hfuture : ∀ c ∈ p.pending, c.future ≠ future) (method : Text)
    (now : Float) : (listed p method future now).Distinct := by
  constructor
  · rw [listed, List.map_append, List.nodup_append]
    refine ⟨hp.1, List.nodup_singleton _, ?_⟩
    intro u hu v hv
    obtain ⟨c, hc, rfl⟩ := List.mem_map.1 hu
    rw [List.mem_singleton.1 hv]
    exact Nat.ne_of_lt (huid c hc)
  · rw [listed, List.map_append, List.nodup_append]
    refine ⟨hp.2, List.nodup_singleton _, ?_⟩
    intro f hf g hg
    obtain ⟨c, hc, rfl⟩ := List.mem_map.1 hf
    rw [List.mem_singleton.1 hg]
    exact hfuture c hc

lemma issue_eq (p : Peer κ) (now : Float) (future : Task.Id) (method : Text)
    (args : List Sexp) (h : p.closed = false) :
    (∃ e, p.issue now future method args = (numbered p, .error e)) ∨
      ∃ frame, p.issue now future method args =
        (listed p method future now, .ok (p.nextUid, frame)) := by
  cases hframe : Peer.frameOf (Peer.callMessage p.nextUid method args) with
  | error e =>
    refine .inl ⟨.unencodable ("Cannot encode " ++ method ++ " call: " ++ e.message), ?_⟩
    simp only [Peer.issue, h, hframe, Bool.false_eq_true, if_false, numbered]
  | ok frame =>
    refine .inr ⟨frame, ?_⟩
    simp only [Peer.issue, h, hframe, Bool.false_eq_true, if_false, listed, numbered]

lemma issue_of_closed (p : Peer κ) (now : Float) (future : Task.Id) (method : Text)
    (args : List Sexp) (h : p.closed = true) :
    p.issue now future method args = (p, .error (.closed Peer.closedMessage)) := by
  rw [Peer.issue, if_pos h]

lemma begun_beginCall (hc : c.peer.Distinct) (huid : ∀ d ∈ c.peer.pending, d.uid < c.peer.nextUid)
    {future : Task.Id} (hfuture : ∀ d ∈ c.peer.pending, d.future ≠ future)
    (isDone : Task.Id → Bool) (now : Float) (drained : Task.Id) (method : Text)
    (args : List Sexp) :
    Begun c isDone future drained (c.beginCall isDone now future drained method args).1
      (c.beginCall isDone now future drained method args).2.1
      (c.beginCall isDone now future drained method args).2.2 := by
  rw [beginCall]
  cases hclosed : c.peer.closed with
  | true =>
    rw [issue_of_closed c.peer now future method args hclosed]
    exact .refused hclosed
  | false =>
    rcases issue_eq c.peer now future method args hclosed with ⟨e, heq⟩ | ⟨frame, heq⟩
    · rw [heq]
      exact .unsendable hclosed
    · rw [heq]
      have hlisted := distinct_listed hc huid hfuture method now
      have hopen : (listed c.peer method future now).closed = true →
          (listed c.peer method future now).pending = [] := fun h => by
        simp [listed, numbered, hclosed] at h
      have hfail := fun f => @went_failSending κ { c with peer := listed c.peer method future now }
        hlisted hopen isDone c.peer.nextUid future (some drained) f
      dsimp only
      split
      · exact .issued hclosed (hfail _)
      · split
        · exact .issued hclosed (.send frame (hfail _))
        · exact .issued hclosed (.send frame (.drains rfl rfl))
        · exact .issued hclosed (.send frame (.awaits rfl))

lemma fault_of_beginCall {now : Float} {future drained : Task.Id} {method : Text}
    {args : List Sexp}
    (h : (c.beginCall isDone now future drained method args).1.peer.closed ≠ c.peer.closed) :
    ∃ f : Fault, (c.writeFault = some f ∨ c.drainFault = some f) ∧ f.isSystem = true := by
  by_contra hnone
  have hsystem : ∀ f, c.writeFault = some f ∨ c.drainFault = some f → f.isSystem = false :=
    fun f hf => by simpa using fun hs => hnone ⟨f, hf, hs⟩
  refine h ?_
  rw [beginCall]
  cases hclosed : c.peer.closed with
  | true => rw [issue_of_closed c.peer now future method args hclosed, ← hclosed]
  | false =>
    rcases issue_eq c.peer now future method args hclosed with ⟨e, heq⟩ | ⟨frame, heq⟩
    · rw [heq, ← hclosed]
      rfl
    · rw [heq]
      have hlisted : (listed c.peer method future now).closed = false := hclosed
      dsimp only
      split
      · next f hf => rw [closed_failSending _ isDone _ (hsystem f (.inl hf)), hlisted]
      · split
        · next f hf => rw [closed_failSending _ isDone _ (hsystem f (.inr hf)), hlisted]
        · exact hlisted
        · exact hlisted

/-- A call that begins and ends at once is not on the list, takes the connection down, or finds a
fault that is not one of the connection. -/
lemma left_beginCall {now : Float} {future drained : Task.Id} {method : Text} {args : List Sexp}
    {o : Task.Outcome Sexp Failure}
    (h : (c.beginCall isDone now future drained method args).2.2 = .ends o) :
    (c.beginCall isDone now future drained method args).1.peer.closed = true ∨
      (c.beginCall isDone now future drained method args).1.peer.pending = c.peer.pending ∨
        ∃ f : Fault, f.isSystem = false ∧ o = .failure (.fault f) := by
  rw [beginCall] at h ⊢
  cases hclosed : c.peer.closed with
  | true =>
    rw [issue_of_closed c.peer now future method args hclosed]
    exact .inr (.inl rfl)
  | false =>
    rcases issue_eq c.peer now future method args hclosed with ⟨e, heq⟩ | ⟨frame, heq⟩
    · rw [heq]
      exact .inr (.inl rfl)
    · rw [heq] at h ⊢
      dsimp only at h ⊢
      split at h
      · exact (left_failSending h).imp_right fun ho => .inr ⟨_, ho⟩
      · split at h
        · exact (left_failSending h).imp_right fun ho => .inr ⟨_, ho⟩
        · cases h
        · cases h

end SuggestBridge.Connection
