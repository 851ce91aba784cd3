import SuggestBridge.Proofs.Frame.RoundTrip
import SuggestBridge.Proofs.Peer.Calling
import SuggestBridge.Proofs.Sexp.RoundTrip

/-!
# What a peer does to the outside

Beside settling calls a peer writes frames, closes its connection and runs callbacks.  `Outward`
says what an operation that begins no call does of that: it writes nothing but refusals, and only
on an open peer; the callbacks stay registered as long as the peer is open, and are run in their
order when it closes.  One operation after the other does the same (`Outward.trans`), so the rule
for the listener follows from the rule for one payload.

A call that begins either leaves no trace but its number, or writes one frame before anything else,
which is read back as that call (`beginCall_cases`).
-/

namespace SuggestBridge

namespace Peer

variable {κ : Type} {p q r : Peer κ} {isDone : Task.Id → Bool}

/-! ## Frames of messages -/

/-- The bytes are one whole frame, whose payload is read as a message. -/
def IsFrameOf (frame : Bytes) (message : Sexp) : Prop :=
  ∃ w : Frame.Whole, w.bytes = frame ∧ Sexp.read w.payload = .ok message

/-- Whatever can be sent is read back. -/
lemma isFrameOf_of_frameOf {message : Sexp} {frame : Bytes} (h : frameOf message = .ok frame) :
    IsFrameOf frame message.canon := by
  unfold frameOf at h
  split at h
  · cases h
  · next text hwrite =>
    obtain ⟨w, hbytes, hpayload⟩ :=
      Frame.exists_whole_of_encode (Result.mapError_eq_ok_iff.1 h)
    exact ⟨w, hbytes, hpayload ▸ Sexp.read_of_write hwrite⟩

lemma canon_callMessage (uid : Nat) (method : Text) (args : List Sexp) :
    (callMessage uid method args).canon = callMessage uid method (Sexp.canonAll args) := by
  simp only [callMessage, Sexp.canon, Sexp.canonAll]

lemma canon_refusalMessage (uid : Sexp) (text : Text) :
    (refusalMessage uid text).canon = refusalMessage uid.canon text := by
  simp only [refusalMessage, Sexp.canon, Sexp.canonAll]

/-! ## Effects -/

/-- The frames that effects send, in their order. -/
def frames (effects : List (Effect κ)) : List Bytes :=
  effects.filterMap fun
    | .send frame => some frame
    | _ => none

/-- The callbacks that effects run, in their order. -/
def called (effects : List (Effect κ)) : List κ :=
  effects.filterMap fun
    | .callback k => some k
    | _ => none

@[simp] lemma frames_append (es fs : List (Effect κ)) : frames (es ++ fs) = frames es ++ frames fs :=
  List.filterMap_append

@[simp] lemma called_append (es fs : List (Effect κ)) : called (es ++ fs) = called es ++ called fs :=
  List.filterMap_append

/-- What concerns nobody but those who make calls. -/
def Effect.IsInner : Effect κ → Prop
  | .settle _ _ => True
  | .log _ => True
  | _ => False

lemma frames_of_inner {es : List (Effect κ)} (h : ∀ e ∈ es, e.IsInner) : frames es = [] := by
  refine List.filterMap_eq_nil_iff.2 fun e he => ?_
  cases e with
  | send frame => exact (h _ he).elim
  | _ => rfl

lemma called_of_inner {es : List (Effect κ)} (h : ∀ e ∈ es, e.IsInner) : called es = [] := by
  refine List.filterMap_eq_nil_iff.2 fun e he => ?_
  cases e with
  | callback k => exact (h _ he).elim
  | _ => rfl

lemma frames_callbacks (ks : List κ) : frames (ks.map Effect.callback) = [] := by
  rw [frames, List.filterMap_map]
  exact List.filterMap_eq_nil_iff.2 fun _ _ => rfl

lemma called_callbacks (ks : List κ) : called (ks.map Effect.callback) = ks := by
  rw [called, List.filterMap_map]
  exact List.filterMap_some

/-! ## What an operation does -/

/-- What an operation that begins no call does to the outside, from `p` to `q`. -/
structure Outward (p q : Peer κ) (es : List (Effect κ)) : Prop where
  nextUid : q.nextUid = p.nextUid
  final : p.closed = true → q.closed = true
  sends : ∀ frame ∈ frames es, p.closed = false ∧ ∃ uid text,
    IsFrameOf frame (refusalMessage uid text)
  /-- The callbacks are run in their order, or stay registered. -/
  calls : called es ++ q.callbacks = p.callbacks
  early : q.closed = false → called es = []
  all : (p.closed = true → p.callbacks = []) → q.closed = true → q.callbacks = []
  /-- Nothing is sent behind the end of the connection. -/
  silent : ∀ before after, es = before ++ .closeConnection :: after →
    q.closed = true ∧ frames after = []

namespace Outward

variable {es fs : List (Effect κ)}

/-- Nothing happens but to those who make calls. -/
lemma of_inner (hnext : q.nextUid = p.nextUid) (hclosed : q.closed = p.closed)
    (hcallbacks : q.callbacks = p.callbacks) (hes : ∀ e ∈ es, e.IsInner) : Outward p q es where
  nextUid := hnext
  final h := hclosed ▸ h
  sends frame hframe := by
    rw [frames_of_inner hes] at hframe
    exact absurd hframe List.not_mem_nil
  calls := by rw [called_of_inner hes, hcallbacks, List.nil_append]
  early _ := called_of_inner hes
  all h hq := by rw [hcallbacks, h (hclosed ▸ hq)]
  silent before after heq := (hes .closeConnection (by simp [heq])).elim

lemma trans (h : Outward p q es) (h' : Outward q r fs) : Outward p r (es ++ fs) where
  nextUid := h'.nextUid.trans h.nextUid
  final hp := h'.final (h.final hp)
  sends frame hframe := by
    rw [frames_append, List.mem_append] at hframe
    rcases hframe with hframe | hframe
    · exact h.sends frame hframe
    · obtain ⟨hopen, hrefusal⟩ := h'.sends frame hframe
      refine ⟨?_, hrefusal⟩
      cases hp : p.closed with
      | false => rfl
      | true => simp [h.final hp] at hopen
  calls := by rw [called_append, List.append_assoc, h'.calls, h.calls]
  early hr := by
    have hq : q.closed = false := by
      cases hq : q.closed with
      | false => rfl
      | true => simp [h'.final hq] at hr
    rw [called_append, h.early hq, h'.early hr, List.append_nil]
  all hp hr := h'.all (h.all hp) hr
  silent before after heq := by
    rcases List.append_eq_append_iff.1 heq with ⟨mid, rfl, hfs⟩ | ⟨mid, rfl, hcut⟩
    · exact h'.silent mid after hfs
    · cases mid with
      | nil => exact h'.silent [] after (by simpa using hcut.symm)
      | cons e mid =>
        rw [List.cons_append, List.cons.injEq] at hcut
        obtain ⟨rfl, rfl⟩ := hcut
        obtain ⟨hclosed, hmid⟩ := h.silent before mid rfl
        have hfs : frames fs = [] := by
          refine List.eq_nil_iff_forall_not_mem.2 fun frame hframe => ?_
          simp [(h'.sends frame hframe).1] at hclosed
        rw [frames_append, hmid, hfs]
        exact ⟨h'.final hclosed, rfl⟩

end Outward

/-- Whoever is registered with an open peer stays so, or is called back. -/
def Hands (p q : Peer κ) (es : List (Effect κ)) : Prop :=
  p.closed = false → ∀ k ∈ p.callbacks, .callback k ∈ es ∨ q.closed = false ∧ k ∈ q.callbacks

lemma Outward.hands {es : List (Effect κ)} (h : Outward p q es) : p.Hands q es := by
  intro hopen k hk
  rw [← h.calls, List.mem_append] at hk
  rcases hk with hk | hk
  · obtain ⟨e, he, hek⟩ := List.mem_filterMap.1 hk
    cases e <;> cases hek
    exact .inl he
  · refine .inr ⟨?_, hk⟩
    by_contra hclosed
    rw [h.all (fun hp => by simp [hopen] at hp) (by simpa using hclosed)] at hk
    exact absurd hk List.not_mem_nil

/-- Nobody is registered or called back who was not registered. -/
def Confines (p q : Peer κ) (es : List (Effect κ)) : Prop :=
  ∀ k, k ∈ q.callbacks ∨ .callback k ∈ es → k ∈ p.callbacks

lemma Outward.confines {es : List (Effect κ)} (h : Outward p q es) : p.Confines q es := by
  intro k hk
  rw [← h.calls, List.mem_append]
  rcases hk with hk | hk
  · exact .inr hk
  · exact .inl (List.mem_filterMap.2 ⟨_, hk, rfl⟩)

lemma hands_addCallback (p : Peer κ) (k : κ) : p.Hands (p.addCallback k).1 (p.addCallback k).2 := by
  intro hopen j hj
  refine .inr ?_
  rw [addCallback, if_neg (by simp [hopen])]
  exact ⟨hopen, List.mem_append_left _ hj⟩

lemma mem_callbacks_addCallback {k j : κ} (h : j ∈ (p.addCallback k).1.callbacks) :
    j ∈ p.callbacks ∨ j = k := by
  rw [addCallback] at h
  split at h
  · exact .inl h
  · exact (List.mem_append.1 h).imp_right List.mem_singleton.1

/-- Whoever is to be called back is registered, or called back at once. -/
lemma called_or_registered (p : Peer κ) (k : κ) : .callback k ∈ (p.addCallback k).2 ∨
    (p.addCallback k).1.closed = false ∧ k ∈ (p.addCallback k).1.callbacks := by
  rw [addCallback]
  split
  · exact .inl (List.mem_singleton.2 rfl)
  · next hopen => exact .inr ⟨by simpa using hopen, by simp⟩

lemma isInner_rejectAll (p : Peer κ) (isDone : Task.Id → Bool) (failure : Failure) :
    ∀ e ∈ (p.rejectAll isDone failure).2, e.IsInner := by
  rw [rejectAll_effects]
  intro e he
  obtain ⟨c, -, rfl⟩ := List.mem_map.1 he
  trivial

/-- Closing writes nothing, and runs all callbacks of an open peer. -/
lemma effects_close (p : Peer κ) (isDone : Task.Id → Bool) (cause : Option Text) :
    frames (p.close isDone cause).2 = [] ∧
      called (p.close isDone cause).2 = if p.closed then [] else p.callbacks := by
  unfold close
  split
  · exact ⟨rfl, rfl⟩
  · have hinner := isInner_rejectAll { p with closed := true } isDone (.closed closedMessage)
    dsimp only
    generalize (rejectAll { p with closed := true } isDone (.closed closedMessage)).2 = es
      at hinner ⊢
    have hall : ∀ line, ∀ e ∈ .log line :: es, e.IsInner :=
      fun line => List.forall_mem_cons.2 ⟨trivial, hinner⟩
    rw [frames_append, called_append, frames_of_inner (hall _), called_of_inner (hall _)]
    exact ⟨frames_callbacks p.callbacks, called_callbacks p.callbacks⟩

lemma outward_close (p : Peer κ) (isDone : Task.Id → Bool) (cause : Option Text) :
    Outward p (p.close isDone cause).1 (p.close isDone cause).2 := by
  obtain ⟨hframes, hcalled⟩ := effects_close p isDone cause
  have hclosed := closed_close p isDone cause
  have hcallbacks : (p.close isDone cause).1.callbacks = if p.closed then p.callbacks else [] := by
    unfold close
    split <;> rfl
  exact
    { nextUid := congrArg (·.nextUid) (close_fst p isDone cause)
      final := fun _ => hclosed
      sends := fun frame hframe => by
        rw [hframes] at hframe
        exact absurd hframe List.not_mem_nil
      calls := by
        rw [hcalled, hcallbacks]
        split <;> simp
      early := fun hopen => by simp [hclosed] at hopen
      all := fun hp _ => by
        rw [hcallbacks]
        split
        · next hclosed => exact hp hclosed
        · rfl
      silent := fun before after heq => by
        have hnone := heq ▸ hframes
        rw [frames_append, List.append_eq_nil_iff] at hnone
        exact ⟨hclosed, hnone.2⟩ }

lemma outward_refuse (p : Peer κ) (fault : Option Fault) (uid subject : Sexp) :
    Outward p p (p.refuse fault uid subject).1 := by
  have hnothing : Outward p p [] := .of_inner rfl rfl rfl (by simp)
  rw [refuse]
  split
  · exact hnothing
  · split
    · exact hnothing
    · next hopen =>
      split
      · exact hnothing
      · next frame hframe =>
        split
        · have hrefusal := isFrameOf_of_frameOf hframe
          rw [canon_refusalMessage] at hrefusal
          exact
            { nextUid := rfl
              final := id
              sends := fun f hf => by
                rw [List.mem_singleton.1 hf]
                exact ⟨by simpa using hopen, _, _, hrefusal⟩
              calls := rfl
              early := fun _ => rfl
              all := id
              silent := fun before after heq => by
                rcases before with _ | ⟨e, _ | ⟨e', before⟩⟩ <;> simp at heq }
        · split
          · exact .of_inner rfl rfl rfl (by simp [Effect.IsInner])
          · exact hnothing

lemma isInner_reply (p : Peer κ) (isDone : Task.Id → Bool) (now : Float) (kind : Text)
    (uid value : Sexp) : ∀ e ∈ (p.reply isDone now kind uid value).2.1, e.IsInner := by
  rw [reply]
  dsimp only
  repeat' split
  all_goals simp [Effect.IsInner]

lemma outward_dispatch (p : Peer κ) (isDone : Task.Id → Bool) (now : Float) (fault : Option Fault)
    (payload : Text) :
    Outward p (p.dispatch isDone now fault payload).1 (p.dispatch isDone now fault payload).2.1 := by
  have hsame := dispatch_fst p isDone now fault payload
  have hof : (∀ e ∈ (p.dispatch isDone now fault payload).2.1, e.IsInner) →
      Outward p (p.dispatch isDone now fault payload).1
        (p.dispatch isDone now fault payload).2.1 :=
    .of_inner (by rw [hsame]) (by rw [hsame]) (by rw [hsame])
  rw [dispatch_eq] at hof ⊢
  cases hmessage : message payload with
  | unreadable =>
    rw [hmessage] at hof
    exact hof nofun
  | invalid =>
    rw [hmessage] at hof
    exact hof (List.forall_mem_cons.2 ⟨trivial, isInner_rejectAll p isDone _⟩)
  | request uid subject => exact outward_refuse p fault uid subject
  | reply kind uid value =>
    rw [hmessage] at hof
    exact hof (isInner_reply p isDone now kind uid value)

lemma outward_dispatchAll (p : Peer κ) (isDone : Task.Id → Bool) (now : Float)
    (fault : Option Fault) (payloads : List Text) :
    Outward p (p.dispatchAll isDone now fault payloads).1
      (p.dispatchAll isDone now fault payloads).2.1 := by
  induction payloads generalizing p with
  | nil => exact .of_inner rfl rfl rfl (by simp [dispatchAll])
  | cons payload payloads ih =>
    have hone := outward_dispatch p isDone now fault payload
    rw [dispatchAll]
    rcases hdispatch : p.dispatch isDone now fault payload with ⟨q, es, verdict⟩
    rw [hdispatch] at hone
    cases verdict with
    | proceed => exact hone.trans (ih q)
    | stop cause => exact hone

lemma outward_receive (p : Peer κ) (isDone : Task.Id → Bool) (now : Float) (fault : Option Fault)
    (data : Bytes) :
    Outward p (p.receive isDone now fault data).1 (p.receive isDone now fault data).2.1 := by
  rw [receive]
  dsimp only
  split
  · next payloads _ =>
    have h := outward_dispatchAll { p with buffer := (Frame.feed p.buffer data).buffer } isDone now
      fault payloads
    exact ⟨h.nextUid, h.final, h.sends, h.calls, h.early, h.all, h.silent⟩
  · exact .of_inner rfl rfl rfl
      (List.forall_mem_cons.2 ⟨trivial, isInner_rejectAll _ isDone _⟩)

/-! ## Where nothing can be refused -/

section Frames

variable {fault : Option Fault} (hfault : fault.isSome = true)
include hfault

/-- No refusal is written where writing it reports a fault. -/
lemma frames_refuse (p : Peer κ) (uid subject : Sexp) : frames (p.refuse fault uid subject).1 = [] := by
  obtain ⟨f, rfl⟩ := Option.isSome_iff_exists.1 hfault
  rw [refuse]
  split
  · rfl
  · split
    · rfl
    · split
      · rfl
      · dsimp only
        split <;> rfl

lemma frames_dispatch (p : Peer κ) (isDone : Task.Id → Bool) (now : Float) (payload : Text) :
    frames (p.dispatch isDone now fault payload).2.1 = [] := by
  rw [dispatch_eq]
  cases message payload with
  | unreadable => rfl
  | invalid => exact frames_of_inner (List.forall_mem_cons.2 ⟨trivial, isInner_rejectAll p isDone _⟩)
  | request uid subject => exact frames_refuse hfault p uid subject
  | reply kind uid value => exact frames_of_inner (isInner_reply p isDone now kind uid value)

lemma frames_dispatchAll (p : Peer κ) (isDone : Task.Id → Bool) (now : Float) (payloads : List Text) :
    frames (p.dispatchAll isDone now fault payloads).2.1 = [] := by
  induction payloads generalizing p with
  | nil => rfl
  | cons payload payloads ih =>
    have hone := frames_dispatch hfault p isDone now payload
    rw [dispatchAll]
    rcases hdispatch : p.dispatch isDone now fault payload with ⟨q, es, verdict⟩
    rw [hdispatch] at hone
    cases verdict with
    | proceed => exact (frames_append es _).trans (List.append_eq_nil_iff.2 ⟨hone, ih q⟩)
    | stop cause => exact hone

lemma frames_receive (p : Peer κ) (isDone : Task.Id → Bool) (now : Float) (data : Bytes) :
    frames (p.receive isDone now fault data).2.1 = [] := by
  rw [receive]
  dsimp only
  split
  · exact frames_dispatchAll hfault _ isDone now _
  · exact frames_of_inner (List.forall_mem_cons.2 ⟨trivial, isInner_rejectAll _ isDone _⟩)

end Frames

end Peer

namespace Connection

open Peer (Outward IsFrameOf callMessage)

variable {κ : Type} {isDone : Task.Id → Bool}

/-! ## The listener -/

lemma outward_absorb (c : Connection κ) (isDone : Task.Id → Bool) (now : Float) (fuel : Nat) :
    Outward c.peer (c.absorb isDone now fuel).1.peer (c.absorb isDone now fuel).2.1 := by
  induction fuel generalizing c with
  | zero => exact .of_inner rfl rfl rfl (by simp [absorb])
  | succ fuel ih =>
    rw [absorb]
    dsimp only
    split
    · refine .of_inner rfl rfl rfl ?_
      rw [Peer.endOfStream]
      split <;> simp [Peer.Effect.IsInner]
    · have hone := Peer.outward_receive c.peer isDone now (c.refusalFault.or c.writeFault)
        (c.incoming.take chunkSize).1
      rcases hreceive : c.peer.receive isDone now (c.refusalFault.or c.writeFault)
        (c.incoming.take chunkSize).1 with ⟨p, es, verdict⟩
      rw [hreceive] at hone
      cases verdict with
      | stop cause => exact hone
      | proceed =>
        dsimp only at hone ⊢
        split
        · exact hone
        · exact hone
        · exact hone.trans
            (ih { c with peer := p, incoming := (c.incoming.take chunkSize).2 })

lemma outward_endListening {p : Peer κ} {r : Connection κ × List (Peer.Effect κ) × Pause}
    (h : Outward p r.1.peer r.2.1) :
    Outward p (endListening isDone r).1.peer (endListening isDone r).2.1 := by
  obtain ⟨c, es, pause⟩ := r
  cases pause with
  | blocked => exact h
  | ended cause => exact h.trans (Peer.outward_close c.peer isDone cause)

lemma outward_nothing (p : Peer κ) : Outward p p [] := .of_inner rfl rfl rfl (by simp)

lemma outward_beginListening (c : Connection κ) (isDone : Task.Id → Bool) (now : Float) :
    Outward c.peer (c.beginListening isDone now).1.peer (c.beginListening isDone now).2.1 := by
  refine outward_endListening ?_
  split
  · exact outward_nothing c.peer
  · exact outward_nothing c.peer
  · exact outward_absorb c isDone now c.absorbFuel

lemma outward_resumeListening {ν : Type} (c : Connection κ) (isDone : Task.Id → Bool) (now : Float)
    (input : Task.Outcome ν Failure) :
    Outward c.peer (c.resumeListening isDone now input).1.peer
      (c.resumeListening isDone now input).2.1 := by
  refine outward_endListening ?_
  split
  · exact outward_absorb c isDone now c.absorbFuel
  · exact outward_nothing c.peer
  · exact outward_nothing c.peer

/-- A listener whose refusals cannot be written writes nothing. -/
lemma frames_absorb {c : Connection κ} (hfault : c.refusalFault.isSome = true) (isDone : Task.Id → Bool)
    (now : Float) (fuel : Nat) : Peer.frames (c.absorb isDone now fuel).2.1 = [] := by
  induction fuel generalizing c with
  | zero => rfl
  | succ fuel ih =>
    have hfault' : (c.refusalFault.or c.writeFault).isSome = true := by simp [hfault]
    rw [absorb]
    dsimp only
    split
    · rw [Peer.endOfStream]
      split <;> rfl
    · have hone := Peer.frames_receive hfault' c.peer isDone now (c.incoming.take chunkSize).1
      rcases hreceive : c.peer.receive isDone now (c.refusalFault.or c.writeFault)
        (c.incoming.take chunkSize).1 with ⟨p, es, verdict⟩
      rw [hreceive] at hone
      cases verdict with
      | stop cause => exact hone
      | proceed =>
        dsimp only at hone ⊢
        split
        · exact hone
        · exact hone
        · exact (Peer.frames_append es _).trans (List.append_eq_nil_iff.2 ⟨hone,
            @ih { c with peer := p, incoming := (c.incoming.take chunkSize).2 } hfault⟩)

lemma frames_endListening {r : Connection κ × List (Peer.Effect κ) × Pause}
    (h : Peer.frames r.2.1 = []) : Peer.frames (endListening isDone r).2.1 = [] := by
  obtain ⟨c, es, pause⟩ := r
  cases pause with
  | blocked => exact h
  | ended cause =>
    exact (Peer.frames_append es _).trans
      (List.append_eq_nil_iff.2 ⟨h, (Peer.effects_close c.peer isDone cause).1⟩)

lemma frames_beginListening {c : Connection κ} (hfault : c.refusalFault.isSome = true)
    (isDone : Task.Id → Bool) (now : Float) : Peer.frames (c.beginListening isDone now).2.1 = [] := by
  refine frames_endListening ?_
  split
  · rfl
  · rfl
  · exact frames_absorb hfault isDone now _

lemma frames_resumeListening {ν : Type} {c : Connection κ} (hfault : c.refusalFault.isSome = true)
    (isDone : Task.Id → Bool) (now : Float) (input : Task.Outcome ν Failure) :
    Peer.frames (c.resumeListening isDone now input).2.1 = [] := by
  refine frames_endListening ?_
  split
  · exact frames_absorb hfault isDone now _
  · rfl
  · rfl

/-! ## Calls -/

lemma outward_failSending (c : Connection κ) (isDone : Task.Id → Bool) (uid : Nat) (f : Fault) :
    Outward c.peer (c.failSending isDone uid f).1.peer (c.failSending isDone uid f).2.1 := by
  rw [failSending]
  split
  · have hforget : Outward c.peer (c.peer.forget uid) [] := .of_inner rfl rfl rfl (by simp)
    exact hforget.trans (Peer.outward_close _ isDone _)
  · exact outward_nothing c.peer

lemma outward_resumeCall (c : Connection κ) (isDone : Task.Id → Bool) (state : CallState)
    (input : Task.Outcome Sexp Failure) :
    Outward c.peer (c.resumeCall isDone state input).1.peer
      (c.resumeCall isDone state input).2.1 := by
  unfold resumeCall
  split
  · exact .of_inner rfl rfl rfl (by simp)
  · split
    · exact outward_nothing c.peer
    · exact outward_failSending c isDone _ _
    · exact outward_nothing c.peer

lemma frames_failSending (c : Connection κ) (isDone : Task.Id → Bool) (uid : Nat) (f : Fault) :
    Peer.frames (c.failSending isDone uid f).2.1 = [] := by
  rw [failSending]
  split
  · exact (Peer.effects_close _ isDone _).1
  · rfl

/-- What a call writes at once: its frame, unless writing reports a fault. -/
def written (c : Connection κ) (frame : Bytes) : List (Peer.Effect κ) :=
  if c.writeFault.isNone then [.send frame] else []

/-- A call that begins on an open peer cannot be sent, and then uses up its number and changes
nothing else; or it is put on the list of those that wait, and its frame, which is read back as the
call, is written before anything else.  Without a fault that is all. -/
lemma beginCall_cases (c : Connection κ) (hopen : c.peer.closed = false) (isDone : Task.Id → Bool)
    (now : Float) (future drained : Task.Id) (method : Text) (args : List Sexp) :
    (∃ m, c.beginCall isDone now future drained method args =
        ({ c with peer := numbered c.peer }, [], .ends (.failure (.unencodable m)))) ∨
      ∃ frame d es progress,
        c.beginCall isDone now future drained method args = (d, c.written frame ++ es, progress) ∧
        c.peer.issue now future method args =
          (listed c.peer method future now, .ok (c.peer.nextUid, frame)) ∧
        IsFrameOf frame (callMessage c.peer.nextUid method (Sexp.canonAll args)) ∧
        Outward (listed c.peer method future now) d.peer es ∧ Peer.frames es = [] ∧
        (c.writeFault = none → c.drainFault = none →
          d.peer = listed c.peer method future now ∧ es = [] ∧
            ∃ state, progress = .waits state future ∨ progress = .waits state drained) := by
  rw [beginCall]
  cases hframe : Peer.frameOf (callMessage c.peer.nextUid method args) with
  | error e =>
    refine .inl ⟨"Cannot encode " ++ method ++ " call: " ++ e.message, ?_⟩
    simp only [Peer.issue, hopen, hframe, Bool.false_eq_true, if_false, numbered]
  | ok frame =>
    have hread := Peer.isFrameOf_of_frameOf hframe
    rw [Peer.canon_callMessage] at hread
    have hissue : c.peer.issue now future method args =
        (listed c.peer method future now, .ok (c.peer.nextUid, frame)) := by
      simp only [Peer.issue, hopen, hframe, Bool.false_eq_true, if_false, listed, numbered]
    refine .inr ⟨frame, ?_⟩
    simp only [hissue, true_and]
    have hfail := outward_failSending { c with peer := listed c.peer method future now } isDone
      c.peer.nextUid
    have hsilent := frames_failSending { c with peer := listed c.peer method future now } isDone
      c.peer.nextUid
    have hpeer : ({ c with peer := listed c.peer method future now } : Connection κ).peer =
      listed c.peer method future now := rfl
    generalize ({ c with peer := listed c.peer method future now } : Connection κ) = d
      at hfail hsilent hpeer ⊢
    rw [hpeer] at hfail
    cases hwrite : c.writeFault with
    | some f =>
      have hnothing : c.written frame = [] := by rw [written, hwrite]; rfl
      rw [hnothing]
      exact ⟨_, _, _, rfl, hread, hfail f, hsilent f, fun h => absurd h (Option.some_ne_none f)⟩
    | none =>
      have hone : c.written frame = [.send frame] := by rw [written, hwrite]; rfl
      rw [hone]
      cases hdrain : c.drainFault with
      | some f =>
        exact ⟨_, _, _, rfl, hread, hfail f, hsilent f, fun _ h => absurd h (Option.some_ne_none f)⟩
      | none =>
        cases c.congested with
        | true =>
          exact ⟨_, _, _, rfl, hread, outward_nothing _, rfl, fun _ _ => ⟨rfl, rfl, _, .inr rfl⟩⟩
        | false =>
          exact ⟨_, _, _, rfl, hread, hpeer ▸ outward_nothing d.peer, rfl,
            fun _ _ => ⟨hpeer, rfl, _, .inl rfl⟩⟩

/-- A call that begins calls nobody back, unless it closes the peer. -/
lemma hands_beginCall (c : Connection κ) (isDone : Task.Id → Bool) (now : Float)
    (future drained : Task.Id) (method : Text) (args : List Sexp) :
    c.peer.Hands (c.beginCall isDone now future drained method args).1.peer
      (c.beginCall isDone now future drained method args).2.1 := by
  intro hopen k hk
  rcases beginCall_cases c hopen isDone now future drained method args with
    ⟨m, heq⟩ | ⟨frame, d, es, progress, heq, -, -, hout, -⟩
  · rw [heq]
    exact .inr ⟨hopen, hk⟩
  · rw [heq]
    exact (hout.hands hopen k hk).imp_left (List.mem_append_right _)

lemma confines_beginCall (c : Connection κ) (isDone : Task.Id → Bool) (now : Float)
    (future drained : Task.Id) (method : Text) (args : List Sexp) :
    c.peer.Confines (c.beginCall isDone now future drained method args).1.peer
      (c.beginCall isDone now future drained method args).2.1 := by
  intro k hk
  cases hclosed : c.peer.closed with
  | true =>
    have heq : c.beginCall isDone now future drained method args =
        (c, [], .ends (.failure (.closed Peer.closedMessage))) := by
      simp [beginCall, Peer.issue, hclosed]
    rw [heq] at hk
    exact hk.resolve_right List.not_mem_nil
  | false =>
    rcases beginCall_cases c hclosed isDone now future drained method args with
      ⟨m, heq⟩ | ⟨frame, d, es, progress, heq, -, -, hout, -⟩
    · rw [heq] at hk
      exact hk.resolve_right List.not_mem_nil
    · rw [heq] at hk
      refine hout.confines k (hk.imp_right fun hmem => (List.mem_append.1 hmem).resolve_left ?_)
      rw [written]
      split <;> simp

end Connection

end SuggestBridge
