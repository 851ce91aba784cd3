import SuggestBridge.Proofs.Peer.Calling
import Mathlib.Tactic.Common

/-!
# Which futures a connection settles

Whatever a peer receives and however it ends, it settles the futures of calls that wait for a reply
and no others.  This is said for an arbitrary kind of futures: if all calls that wait do so through
futures of the kind, then they still do after any operation, and the operation settles futures of
the kind only.  Calls leave the list of those that wait at any time, but they join it one by one, each
under a new number (`Ages`).
-/

namespace SuggestBridge

namespace Peer

variable {κ : Type} {ok : Task.Id → Prop} {p : Peer κ} {es fs : List (Effect κ)}

/-- All calls that wait for a reply do so through futures of a kind. -/
def Awaits (ok : Task.Id → Prop) (p : Peer κ) : Prop := ∀ c ∈ p.pending, ok c.future

/-- Effects settle futures of a kind only. -/
def Settles (ok : Task.Id → Prop) (es : List (Effect κ)) : Prop :=
  ∀ f r, .settle f r ∈ es → ok f

lemma Settles.nil : Settles (κ := κ) ok [] := fun _ _ h => absurd h List.not_mem_nil

lemma Settles.cons {e : Effect κ} (he : ∀ f r, e ≠ .settle f r) (h : Settles ok es) :
    Settles ok (e :: es) := fun f r hmem => by
  rcases List.mem_cons.1 hmem with heq | hmem
  · exact absurd heq.symm (he f r)
  · exact h f r hmem

lemma Settles.log {line : LogLine} (h : Settles ok es) : Settles ok (.log line :: es) :=
  .cons (fun _ _ heq => by cases heq) h

lemma Settles.send {frame : Bytes} (h : Settles ok es) : Settles ok (.send frame :: es) :=
  .cons (fun _ _ heq => by cases heq) h

lemma Settles.closeConnection (h : Settles ok es) : Settles ok (.closeConnection :: es) :=
  .cons (fun _ _ heq => by cases heq) h

lemma Settles.callback {k : κ} (h : Settles ok es) : Settles ok (.callback k :: es) :=
  .cons (fun _ _ heq => by cases heq) h

lemma Settles.append (h : Settles ok es) (h' : Settles ok fs) : Settles ok (es ++ fs) :=
  fun f r hmem => (List.mem_append.1 hmem).elim (h f r) (h' f r)

lemma Awaits.forget (h : Awaits ok p) (uid : Nat) : Awaits ok (p.forget uid) :=
  fun c hc => h c (List.mem_filter.1 hc).1

lemma Awaits.rejectAll (h : Awaits ok p) (isDone : Task.Id → Bool) (e : Failure) :
    Awaits ok (p.rejectAll isDone e).1 ∧ Settles ok (p.rejectAll isDone e).2 := by
  refine ⟨fun c hc => absurd hc List.not_mem_nil, fun f r hmem => ?_⟩
  obtain ⟨c, hc, heq⟩ := List.mem_filterMap.1 hmem
  split at heq
  · cases heq
  · cases heq
    exact h c hc

lemma Awaits.close (h : Awaits ok p) (isDone : Task.Id → Bool) (cause : Option Text) :
    Awaits ok (p.close isDone cause).1 ∧ Settles ok (p.close isDone cause).2 := by
  have hreject := Awaits.rejectAll (p := { p with closed := true }) h isDone (.closed closedMessage)
  unfold Peer.close
  split
  · exact ⟨h, .nil⟩
  · refine ⟨hreject.1, .log (hreject.2.append (.closeConnection fun f r hmem => ?_))⟩
    obtain ⟨k, -, heq⟩ := List.mem_map.1 hmem
    cases heq

lemma Awaits.addCallback (h : Awaits ok p) (k : κ) :
    Awaits ok (p.addCallback k).1 ∧ Settles ok (p.addCallback k).2 := by
  rw [Peer.addCallback]
  split
  · exact ⟨h, .callback .nil⟩
  · exact ⟨h, .nil⟩

lemma settles_endOfStream (p : Peer κ) : Settles ok p.endOfStream := by
  rw [endOfStream]
  split
  · exact .nil
  · exact .log .nil

lemma settles_refuse (p : Peer κ) (fault : Option Fault) (uid subject : Sexp) :
    Settles ok (p.refuse fault uid subject).1 := by
  rw [refuse]
  split
  · exact .nil
  · split
    · exact .nil
    · split
      · exact .nil
      · split
        · exact .send .nil
        · split
          · exact .log .nil
          · exact .nil

lemma Awaits.reply (h : Awaits ok p) (isDone : Task.Id → Bool) (now : Float) (kind : Text)
    (uid value : Sexp) :
    Awaits ok (p.reply isDone now kind uid value).1 ∧
      Settles ok (p.reply isDone now kind uid value).2.1 := by
  rw [Peer.reply]
  split
  · split
    · exact ⟨h, .log .nil⟩
    · exact ⟨h, .nil⟩
  · next call hcall =>
    obtain ⟨n, -, hfind⟩ := Option.bind_eq_some_iff.1 hcall
    have hfuture : ok call.future := h call (List.mem_of_find?_eq_some hfind)
    have hforget := h.forget call.uid
    dsimp only
    split
    · exact ⟨hforget, .nil⟩
    · refine ⟨hforget, .log fun f r hmem => ?_⟩
      cases List.mem_singleton.1 hmem
      exact hfuture

lemma Awaits.dispatch (h : Awaits ok p) (isDone : Task.Id → Bool) (now : Float)
    (fault : Option Fault) (payload : Text) :
    Awaits ok (p.dispatch isDone now fault payload).1 ∧
      Settles ok (p.dispatch isDone now fault payload).2.1 := by
  have hreject := h.rejectAll isDone (.protocol invalidMessage)
  rw [Peer.dispatch]
  split
  · exact ⟨h, .nil⟩
  · exact ⟨hreject.1, .log hreject.2⟩
  · split
    · exact ⟨hreject.1, .log hreject.2⟩
    · split
      · exact ⟨h, settles_refuse p fault _ _⟩
      · exact h.reply isDone now _ _ _

lemma Awaits.dispatchAll (h : Awaits ok p) (isDone : Task.Id → Bool) (now : Float)
    (fault : Option Fault) (payloads : List Text) :
    Awaits ok (p.dispatchAll isDone now fault payloads).1 ∧
      Settles ok (p.dispatchAll isDone now fault payloads).2.1 := by
  induction payloads generalizing p with
  | nil => exact ⟨h, .nil⟩
  | cons payload payloads ih =>
    have hone := h.dispatch isDone now fault payload
    rw [Peer.dispatchAll]
    split
    · next q es hq =>
      rw [hq] at hone
      have hmore := ih hone.1
      exact ⟨hmore.1, hone.2.append hmore.2⟩
    · exact hone

lemma Awaits.receive (h : Awaits ok p) (isDone : Task.Id → Bool) (now : Float)
    (fault : Option Fault) (data : Bytes) :
    Awaits ok (p.receive isDone now fault data).1 ∧
      Settles ok (p.receive isDone now fault data).2.1 := by
  have hfed : Awaits ok { p with buffer := (Frame.feed p.buffer data).buffer } := h
  rw [Peer.receive]
  split
  · exact hfed.dispatchAll isDone now fault _
  · next e _ =>
    have hreject := hfed.rejectAll isDone (.protocol e.message)
    exact ⟨hreject.1, .log hreject.2⟩

/-! ### Which calls wait -/

/-- From `p` to `q` calls have ended, and none has begun. -/
structure Shrinks (p q : Peer κ) : Prop where
  nextUid : q.nextUid = p.nextUid
  pending : q.pending.Sublist p.pending

/-- From `p` to `q` calls have ended, and at most one has begun: under a number that was not used up,
and through a future of a kind that no other call waits for. -/
structure Ages (ok : Task.Id → Prop) (p q : Peer κ) : Prop where
  nextUid : p.nextUid ≤ q.nextUid
  pending : q.pending.Sublist p.pending ∨ p.nextUid < q.nextUid ∧
    ∃ c, q.pending.Sublist (p.pending ++ [c]) ∧ c.uid = p.nextUid ∧ ok c.future ∧
      ∀ d ∈ p.pending, d.future ≠ c.future

/-- The calls that wait have numbers and futures of their own, and their numbers are used up. -/
structure Ordered (p : Peer κ) : Prop where
  distinct : p.Distinct
  used : ∀ c ∈ p.pending, c.uid < p.nextUid

/-- Some time passed between `p` and `q`: whatever call waits in `q` and did not in `p` has a number that
was not used up, and a future of a kind. -/
structure Later (ok : Task.Id → Prop) (p q : Peer κ) : Prop where
  nextUid : p.nextUid ≤ q.nextUid
  pending : ∀ c ∈ q.pending, c ∈ p.pending ∨ p.nextUid ≤ c.uid ∧ ok c.future

section Numbers

variable {q r : Peer κ}

lemma Later.refl (p : Peer κ) : Later ok p p := ⟨Nat.le_refl _, fun _ => .inl⟩

lemma Later.trans {ok' : Task.Id → Prop} (h : Later ok p q) (h' : Later ok' q r)
    (hok : ∀ {f}, ok' f → ok f) : Later ok p r where
  nextUid := Nat.le_trans h.nextUid h'.nextUid
  pending c hc := by
    rcases h'.pending c hc with hc | ⟨hle, hf⟩
    · exact h.pending c hc
    · exact .inr ⟨Nat.le_trans h.nextUid hle, hok hf⟩

lemma Later.mono {ok' : Task.Id → Prop} (h : Later ok p q) (hok : ∀ {f}, ok f → ok' f) :
    Later ok' p q :=
  ⟨h.nextUid, fun c hc => (h.pending c hc).imp_right (And.imp_right hok)⟩

lemma Ages.later (h : Ages ok p q) : Later ok p q where
  nextUid := h.nextUid
  pending c hc := by
    rcases h.pending with hpending | ⟨-, d, hpending, huid, hok, -⟩
    · exact .inl (hpending.subset hc)
    · refine (List.mem_append.1 (hpending.subset hc)).imp_right fun hc => ?_
      obtain rfl := List.mem_singleton.1 hc
      exact ⟨Nat.le_of_eq huid.symm, hok⟩

lemma Ages.mono {ok' : Task.Id → Prop} (h : Ages ok p q)
    (hok : ∀ {f}, ok f → (∀ d ∈ p.pending, d.future ≠ f) → ok' f) : Ages ok' p q :=
  ⟨h.nextUid, h.pending.imp_right fun ⟨hnext, c, hpending, huid, hf, hnew⟩ =>
    ⟨hnext, c, hpending, huid, hok hf hnew, hnew⟩⟩

lemma Shrinks.refl (p : Peer κ) : Shrinks p p := ⟨rfl, .refl _⟩

lemma Shrinks.trans (h : Shrinks p q) (h' : Shrinks q r) : Shrinks p r :=
  ⟨h'.nextUid.trans h.nextUid, h'.pending.trans h.pending⟩

lemma Shrinks.ages (h : Shrinks p q) : Ages ok p q := ⟨Nat.le_of_eq h.nextUid.symm, .inl h.pending⟩

lemma Ages.refl (p : Peer κ) : Ages ok p p := (Shrinks.refl p).ages

lemma Ages.shrinks (h : Ages ok p q) (h' : Shrinks q r) : Ages ok p r where
  nextUid := h'.nextUid ▸ h.nextUid
  pending := by
    rcases h.pending with hpending | ⟨hnext, c, hpending, hc⟩
    · exact .inl (h'.pending.trans hpending)
    · exact .inr ⟨h'.nextUid ▸ hnext, c, h'.pending.trans hpending, hc⟩

lemma Ordered.ages (h : Ordered p) (hq : Ages ok p q) : Ordered q := by
  rcases hq.pending with hpending | ⟨hnext, c, hpending, huid, -, hfuture⟩
  · exact ⟨h.distinct.of_sublist hpending,
      fun d hd => Nat.lt_of_lt_of_le (h.used d (hpending.subset hd)) hq.nextUid⟩
  · obtain ⟨uid, method, future, now⟩ := c
    subst huid
    have hlisted := Connection.distinct_listed h.distinct h.used hfuture method now
    refine ⟨hlisted.of_sublist hpending, fun d hd => ?_⟩
    rcases List.mem_append.1 (hpending.subset hd) with hd | hd
    · exact Nat.lt_of_lt_of_le (h.used d hd) hq.nextUid
    · rwa [List.mem_singleton.1 hd]

lemma shrinks_forget (p : Peer κ) (uid : Nat) : Shrinks p (p.forget uid) := ⟨rfl, List.filter_sublist⟩

lemma shrinks_rejectAll (p : Peer κ) (isDone : Task.Id → Bool) (e : Failure) :
    Shrinks p (p.rejectAll isDone e).1 := ⟨rfl, List.nil_sublist _⟩

lemma shrinks_close (p : Peer κ) (isDone : Task.Id → Bool) (cause : Option Text) :
    Shrinks p (p.close isDone cause).1 := by
  unfold Peer.close
  split
  · exact .refl p
  · exact ⟨rfl, List.nil_sublist _⟩

lemma shrinks_addCallback (p : Peer κ) (k : κ) : Shrinks p (p.addCallback k).1 := by
  rw [Peer.addCallback]
  split
  · exact .refl p
  · exact ⟨rfl, .refl _⟩

lemma shrinks_reply (p : Peer κ) (isDone : Task.Id → Bool) (now : Float) (kind : Text)
    (uid value : Sexp) : Shrinks p (p.reply isDone now kind uid value).1 := by
  rw [Peer.reply]
  split
  · split <;> exact .refl p
  · dsimp only
    split <;> exact shrinks_forget p _

lemma shrinks_dispatch (p : Peer κ) (isDone : Task.Id → Bool) (now : Float) (fault : Option Fault)
    (payload : Text) : Shrinks p (p.dispatch isDone now fault payload).1 := by
  rw [dispatch_eq]
  cases message payload with
  | unreadable | request => exact .refl p
  | invalid => exact shrinks_rejectAll p isDone (.protocol invalidMessage)
  | reply kind uid value => exact shrinks_reply p isDone now kind uid value

lemma shrinks_dispatchAll (p : Peer κ) (isDone : Task.Id → Bool) (now : Float)
    (fault : Option Fault) (payloads : List Text) :
    Shrinks p (p.dispatchAll isDone now fault payloads).1 := by
  induction payloads generalizing p with
  | nil => exact .refl p
  | cons payload payloads ih =>
    have hone := shrinks_dispatch p isDone now fault payload
    rw [Peer.dispatchAll]
    split
    · next q es hq =>
      rw [hq] at hone
      exact hone.trans (ih q)
    · exact hone

lemma shrinks_receive (p : Peer κ) (isDone : Task.Id → Bool) (now : Float)
    (fault : Option Fault) (data : Bytes) : Shrinks p (p.receive isDone now fault data).1 := by
  have hfed : Shrinks p { p with buffer := (Frame.feed p.buffer data).buffer } := ⟨rfl, .refl _⟩
  rw [Peer.receive]
  split
  · exact hfed.trans (shrinks_dispatchAll _ isDone now fault _)
  · next e _ => exact hfed.trans (shrinks_rejectAll _ isDone (.protocol e.message))

/-- A call takes its number, and joins those that wait if it can be sent. -/
lemma ages_issue (now : Float) {future : Task.Id} (hfuture : ok future)
    (hnew : ∀ c ∈ p.pending, c.future ≠ future) (method : Text) (args : List Sexp) :
    Ages ok p (p.issue now future method args).1 := by
  rw [Peer.issue]
  split
  · exact .refl p
  · dsimp only
    split
    · exact ⟨Nat.le_succ _, .inl (.refl _)⟩
    · exact ⟨Nat.le_succ _, .inr ⟨Nat.lt_succ_self _, _, .refl _, rfl, hfuture, hnew⟩⟩

end Numbers

lemma Awaits.issue (h : Awaits ok p) (now : Float) {future : Task.Id} (hfuture : ok future)
    (method : Text) (args : List Sexp) : Awaits ok (p.issue now future method args).1 := by
  rw [Peer.issue]
  split
  · exact h
  · dsimp only
    split
    · exact h
    · intro c hc
      rcases List.mem_append.1 hc with hc | hc
      · exact h c hc
      · rw [List.mem_singleton.1 hc]
        exact hfuture

end Peer

namespace Connection

variable {κ : Type} {ok : Task.Id → Prop} {c : Connection κ}

/-- Nothing holds up what is written over a connection. -/
def Clear (c : Connection κ) : Prop :=
  c.writeFault = none ∧ c.drainFault = none ∧ c.congested = false

/-- From `c` to `d` nothing was done but what concerns futures of a kind. -/
structure Within (ok : Task.Id → Prop) (c d : Connection κ) (es : List (Peer.Effect κ)) : Prop where
  awaits : d.peer.Awaits ok
  settles : Peer.Settles ok es
  ages : c.peer.Ages ok d.peer
  clear : c.Clear → d.Clear
  waiter : d.incoming.waiter = c.incoming.waiter
  listener : d.listener = c.listener
  refusalFault : d.refusalFault = c.refusalFault

/-- A connection changes in its peer only. -/
lemma Within.of_peer {p : Peer κ} {es : List (Peer.Effect κ)} (hawaits : p.Awaits ok)
    (hsettles : Peer.Settles ok es) (hages : c.peer.Ages ok p) :
    Within ok c { c with peer := p } es :=
  ⟨hawaits, hsettles, hages, id, rfl, rfl, rfl⟩

lemma Within.refl (h : c.peer.Awaits ok) : Within ok c c [] := .of_peer h .nil (.refl _)

lemma Within.withPeer {r : Peer κ × List (Peer.Effect κ)}
    (h : r.1.Awaits ok ∧ Peer.Settles ok r.2) (hr : c.peer.Shrinks r.1) :
    Within ok c (c.withPeer r).1 (c.withPeer r).2 := .of_peer h.1 h.2 hr.ages

/-- Some more calls end. -/
lemma Within.andPeer {d : Connection κ} {es fs : List (Peer.Effect κ)} {p : Peer κ}
    (h : Within ok c d es) (hawaits : p.Awaits ok) (hsettles : Peer.Settles ok fs)
    (hp : d.peer.Shrinks p) : Within ok c { d with peer := p } fs :=
  { h with awaits := hawaits, settles := hsettles, ages := h.ages.shrinks hp }

lemma within_failSending (h : c.peer.Awaits ok) (isDone : Task.Id → Bool) (uid : Nat) (f : Fault) :
    Within ok c (c.failSending isDone uid f).1 (c.failSending isDone uid f).2.1 := by
  have hclose := (h.forget uid).close isDone (some f.message)
  rw [failSending]
  split
  · exact .of_peer hclose.1 hclose.2
      ((Peer.shrinks_forget _ uid).trans (Peer.shrinks_close _ isDone _)).ages
  · exact .refl h

/-- Where a call may wait once it has begun. -/
lemma within_beginCall (h : c.peer.Awaits ok) (isDone : Task.Id → Bool) (now : Float)
    {future drained : Task.Id} (hfuture : ok future)
    (hnew : ∀ d ∈ c.peer.pending, d.future ≠ future) (method : Text) (args : List Sexp) :
    Within ok c (c.beginCall isDone now future drained method args).1
      (c.beginCall isDone now future drained method args).2.1 := by
  have hissue := h.issue now hfuture method args
  have hages := Peer.ages_issue now hfuture hnew method args
  rw [beginCall]
  split
  · next p e hp =>
    rw [hp] at hissue hages
    exact .of_peer hissue .nil hages
  · next p uid frame hp =>
    rw [hp] at hissue hages
    have hissued : Within ok c { c with peer := p } [] := .of_peer hissue .nil hages
    have hfail : ∀ f, Within ok c (failSending { c with peer := p } isDone uid f).1
        (failSending { c with peer := p } isDone uid f).2.1 := fun f => by
      have hclose := (Peer.Awaits.forget hissue uid).close isDone (some f.message)
      rw [failSending]
      split
      · exact hissued.andPeer hclose.1 hclose.2
          ((Peer.shrinks_forget _ uid).trans (Peer.shrinks_close _ isDone _))
      · exact hissued
    dsimp only
    split
    · exact hfail _
    · split
      · exact { hfail _ with settles := .send (hfail _).settles }
      · exact { hissued with settles := .send .nil, clear := id }
      · exact { hissued with settles := .send .nil }

lemma within_resumeCall (h : c.peer.Awaits ok) (isDone : Task.Id → Bool) (state : CallState)
    (input : Task.Outcome Sexp Failure) :
    Within ok c (c.resumeCall isDone state input).1 (c.resumeCall isDone state input).2.1 := by
  cases state with
  | awaiting uid future => exact .of_peer (h.forget _) .nil (Peer.shrinks_forget _ uid).ages
  | draining uid future =>
    unfold resumeCall
    dsimp only
    split
    · exact .refl h
    · exact within_failSending h isDone _ _
    · exact .refl h

/-- Whatever is read, no call begins. -/
lemma shrinks_absorb (c : Connection κ) (isDone : Task.Id → Bool) (now : Float) (fuel : Nat) :
    c.peer.Shrinks (c.absorb isDone now fuel).1.peer := by
  induction fuel generalizing c with
  | zero => exact .refl _
  | succ fuel ih =>
    rw [absorb]
    have hreceive := c.peer.shrinks_receive isDone now (c.refusalFault.or c.writeFault)
      (c.incoming.take chunkSize).1
    dsimp only at hreceive ⊢
    split
    · exact .refl _
    · split
      · next p es cause hp =>
        rw [hp] at hreceive
        exact hreceive
      · next p es hp =>
        rw [hp] at hreceive
        split
        · exact hreceive
        · exact hreceive
        · exact hreceive.trans (ih { c with peer := p, incoming := (c.incoming.take chunkSize).2 })

lemma within_absorb (h : c.peer.Awaits ok) (isDone : Task.Id → Bool) (now : Float) (fuel : Nat) :
    Within ok c (c.absorb isDone now fuel).1 (c.absorb isDone now fuel).2.1 := by
  induction fuel generalizing c with
  | zero => exact .refl h
  | succ fuel ih =>
    have hages : Peer.Ages ok c.peer (c.absorb isDone now (fuel + 1)).1.peer :=
      (c.shrinks_absorb isDone now (fuel + 1)).ages
    rw [absorb] at hages ⊢
    have hreceive := h.receive isDone now (c.refusalFault.or c.writeFault)
      (c.incoming.take chunkSize).1
    dsimp only at hreceive hages ⊢
    split at hages
    · next hempty =>
      rw [if_pos hempty]
      exact ⟨h, Peer.settles_endOfStream _, hages, id, rfl, rfl, rfl⟩
    · next hsome =>
      rw [if_neg hsome]
      split at hages
      · next p es cause hp =>
        rw [hp] at hreceive
        exact ⟨hreceive.1, hreceive.2, hages, id, rfl, rfl, rfl⟩
      · next p es hp =>
        rw [hp] at hreceive
        split at hages
        · exact ⟨hreceive.1, hreceive.2, hages, id, rfl, rfl, rfl⟩
        · exact ⟨hreceive.1, hreceive.2, hages, id, rfl, rfl, rfl⟩
        · have hmore := @ih { c with peer := p, incoming := (c.incoming.take chunkSize).2 } hreceive.1
          exact { hmore with settles := hreceive.2.append hmore.settles, ages := hages }

lemma Within.endListening {r : Connection κ × List (Peer.Effect κ) × Pause}
    (isDone : Task.Id → Bool) (h : Within ok c r.1 r.2.1) :
    Within ok c (endListening isDone r).1 (endListening isDone r).2.1 := by
  obtain ⟨d, es, pause⟩ := r
  cases pause with
  | blocked => exact h
  | ended cause =>
    have hclose := h.awaits.close isDone cause
    exact { h with
      awaits := hclose.1
      settles := h.settles.append hclose.2
      ages := h.ages.shrinks (Peer.shrinks_close _ isDone cause) }

lemma within_beginListening (h : c.peer.Awaits ok) (isDone : Task.Id → Bool) (now : Float) :
    Within ok c (c.beginListening isDone now).1 (c.beginListening isDone now).2.1 := by
  refine Within.endListening isDone ?_
  split
  · exact .refl h
  · exact .refl h
  · exact within_absorb h isDone now _

lemma within_resumeListening {ν : Type} (h : c.peer.Awaits ok) (isDone : Task.Id → Bool)
    (now : Float) (input : Task.Outcome ν Failure) :
    Within ok c (c.resumeListening isDone now input).1
      (c.resumeListening isDone now input).2.1 := by
  refine Within.endListening isDone ?_
  split
  · exact within_absorb h isDone now _
  · exact .refl h
  · exact .refl h

end Connection

end SuggestBridge
