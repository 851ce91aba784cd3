import SuggestBridge.Peer.Basic
import SuggestBridge.Proofs.Sexp.Readable
import Mathlib.Data.List.Nodup

/-!
# How a peer handles what it receives

A payload gives a verdict on some of the calls that wait: a reply on the call with its number, a
malformed payload on all of them, any other payload on none (`verdictFor`).  However many payloads
are handled, the first verdict on a call is the one that counts (`firstVerdict`).

`Handled` says what handling does to a peer in terms of verdicts alone: the calls with a verdict no
longer wait, and those of them that nobody has abandoned are settled by it, each once.  Verdicts one
after the other combine (`Handled.trans`), so the rule for a whole run of payloads follows from the
rule for one (`handled_dispatch`, `handled_dispatchAll`).
-/

namespace SuggestBridge.Peer

variable {κ : Type} {p q r : Peer κ} {isDone : Task.Id → Bool}

/-! ## Verdicts -/

/-- What a payload is to a peer. -/
inductive Message where
  /-- It holds a number that cannot be read. -/
  | unreadable
  | invalid
  /-- A call of the other side. -/
  | request (uid subject : Sexp)
  | reply (kind : Text) (uid value : Sexp)

/-- What a payload is to a peer. -/
def message (payload : Text) : Message :=
  match Sexp.read payload with
  | .error (.digits _) => .unreadable
  | .error (.malformed _) => .invalid
  | .ok v =>
    match parts? v with
    | none => .invalid
    | some (kind, uid, value) =>
      if kind = Text.ofString "call" ∨ kind = Text.ofString "methods" then .request uid value
      else .reply kind uid value

/-- What a message makes of the call with a number, if it waits. -/
def Message.verdictFor (uid : Nat) : Message → Option (Except Failure Sexp)
  | .invalid => some (.error (.protocol invalidMessage))
  | .reply kind u value => if uid? u = some uid then some (replyResult kind value) else none
  | _ => none

/-- What a payload makes of the call with a number, if it waits. -/
def verdictFor (uid : Nat) (payload : Text) : Option (Except Failure Sexp) :=
  (message payload).verdictFor uid

/-- What payloads one after the other make of the call with a number, if it waits. -/
def firstVerdict (uid : Nat) (payloads : List Text) : Option (Except Failure Sexp) :=
  payloads.findSome? (verdictFor uid)

lemma firstVerdict_append (uid : Nat) (ps qs : List Text) :
    firstVerdict uid (ps ++ qs) = (firstVerdict uid ps).or (firstVerdict uid qs) :=
  List.findSome?_append

lemma firstVerdict_cons (uid : Nat) (payload : Text) (ps : List Text) :
    firstVerdict uid (payload :: ps) = (verdictFor uid payload).or (firstVerdict uid ps) :=
  List.findSome?_cons.trans (by cases verdictFor uid payload <;> rfl)

/-! ## What handling does -/

/-- The futures that effects settle, with the results. -/
def settlements (effects : List (Effect κ)) : List (Task.Id × Except Failure Sexp) :=
  effects.filterMap fun
    | .settle future result => some (future, result)
    | _ => none

lemma settlements_append (es fs : List (Effect κ)) :
    settlements (es ++ fs) = settlements es ++ settlements fs :=
  List.filterMap_append

/-- No two calls that wait share a number or a future. -/
def Distinct (p : Peer κ) : Prop :=
  (p.pending.map (·.uid)).Nodup ∧ (p.pending.map (·.future)).Nodup

lemma Distinct.eq_of_uid (h : p.Distinct) {c d : PendingCall} (hc : c ∈ p.pending)
    (hd : d ∈ p.pending) (heq : c.uid = d.uid) : c = d :=
  List.inj_on_of_nodup_map h.1 hc hd heq

lemma Distinct.eq_of_future (h : p.Distinct) {c d : PendingCall} (hc : c ∈ p.pending)
    (hd : d ∈ p.pending) (heq : c.future = d.future) : c = d :=
  List.inj_on_of_nodup_map h.2 hc hd heq

lemma Distinct.of_sublist (h : p.Distinct) (hq : q.pending.Sublist p.pending) : q.Distinct :=
  ⟨h.1.sublist (hq.map _), h.2.sublist (hq.map _)⟩

/-- From `p` to `q` the calls with a verdict were taken off the list of those that wait, and those
that nobody has abandoned were settled by it. -/
structure Handled (p q : Peer κ) (isDone : Task.Id → Bool)
    (verdict : Nat → Option (Except Failure Sexp)) (effects : List (Effect κ)) : Prop where
  pending : q.pending = p.pending.filter fun c => (verdict c.uid).isNone
  nextUid : q.nextUid = p.nextUid
  settled : ∀ f res, (f, res) ∈ settlements effects ↔
    ∃ c ∈ p.pending, c.future = f ∧ isDone f = false ∧ verdict c.uid = some res
  once : ((settlements effects).map Prod.fst).Nodup

namespace Handled

variable {v w : Nat → Option (Except Failure Sexp)} {es fs : List (Effect κ)}

lemma mem_pending (h : Handled p q isDone v es) {c : PendingCall} :
    c ∈ q.pending ↔ c ∈ p.pending ∧ v c.uid = none := by
  rw [h.pending, List.mem_filter, Option.isNone_iff_eq_none]

lemma distinct (h : Handled p q isDone v es) (hp : p.Distinct) : q.Distinct :=
  hp.of_sublist (h.pending ▸ List.filter_sublist)

/-- Nothing was handled. -/
lemma of_no_verdict (hpending : q.pending = p.pending) (hnext : q.nextUid = p.nextUid)
    (hv : ∀ u, v u = none) (hes : settlements es = []) : Handled p q isDone v es where
  pending := by simp [hpending, hv]
  nextUid := hnext
  settled f res := by simp [hes, hv]
  once := by simp [hes]

/-- One verdict after the other: the first one on a call counts. -/
lemma trans (h : Handled p q isDone v es) (h' : Handled q r isDone w fs) (hp : p.Distinct) :
    Handled p r isDone (fun u => (v u).or (w u)) (es ++ fs) where
  pending := by
    rw [h'.pending, h.pending, List.filter_filter]
    refine List.filter_congr fun c _ => ?_
    cases v c.uid <;> simp
  nextUid := h'.nextUid.trans h.nextUid
  settled f res := by
    rw [settlements_append, List.mem_append, h.settled, h'.settled]
    constructor
    · rintro (⟨c, hc, hf, hopen, hv⟩ | ⟨c, hc, hf, hopen, hw⟩)
      · exact ⟨c, hc, hf, hopen, by simp [hv]⟩
      · obtain ⟨hc, hv⟩ := h.mem_pending.1 hc
        exact ⟨c, hc, hf, hopen, by simp [hv, hw]⟩
    · rintro ⟨c, hc, hf, hopen, hvw⟩
      cases hv : v c.uid with
      | some res' =>
        rw [hv] at hvw
        exact .inl ⟨c, hc, hf, hopen, hv.trans hvw⟩
      | none =>
        rw [hv] at hvw
        exact .inr ⟨c, h.mem_pending.2 ⟨hc, hv⟩, hf, hopen, hvw⟩
  once := by
    rw [settlements_append, List.map_append, List.nodup_append]
    refine ⟨h.once, h'.once, ?_⟩
    rintro f hf _ hg rfl
    obtain ⟨⟨_, res⟩, hmem, rfl⟩ := List.mem_map.1 hf
    obtain ⟨⟨_, res'⟩, hmem', rfl⟩ := List.mem_map.1 hg
    obtain ⟨c, hc, hcf, -, hv⟩ := (h.settled _ _).1 hmem
    obtain ⟨d, hd, hdf, -, -⟩ := (h'.settled _ _).1 hmem'
    obtain ⟨hd, hnone⟩ := h.mem_pending.1 hd
    rw [hp.eq_of_future hc hd (hcf.trans hdf.symm), hnone] at hv
    cases hv

end Handled

/-! ## Rejections and closing -/

lemma rejectAll_effects (p : Peer κ) (isDone : Task.Id → Bool) (failure : Failure) :
    (p.rejectAll isDone failure).2 =
      (p.pending.filter fun c => !isDone c.future).map fun c =>
        .settle c.future (.error failure) := by
  rw [rejectAll]
  induction p.pending with
  | nil => rfl
  | cons c cs ih => cases hc : isDone c.future <;> simp_all

/-- Failing every call that waits is a verdict on all of them. -/
lemma handled_rejectAll (hp : p.Distinct) (isDone : Task.Id → Bool) (failure : Failure) :
    Handled p (p.rejectAll isDone failure).1 isDone (fun _ => some (.error failure))
      (p.rejectAll isDone failure).2 := by
  have hsettlements : settlements (p.rejectAll isDone failure).2 =
      (p.pending.filter fun c => !isDone c.future).map fun c => (c.future, .error failure) := by
    rw [rejectAll_effects, settlements, List.filterMap_map]
    exact congrFun List.filterMap_eq_map _
  refine ⟨by simp [rejectAll], rfl, fun f res => ?_, ?_⟩
  · rw [hsettlements]
    simp only [List.mem_map, List.mem_filter, Bool.not_eq_true', Prod.mk.injEq, Option.some.injEq]
    constructor
    · rintro ⟨c, ⟨hc, hopen⟩, rfl, rfl⟩
      exact ⟨c, hc, rfl, hopen, rfl⟩
    · rintro ⟨c, hc, rfl, hopen, rfl⟩
      exact ⟨c, ⟨hc, hopen⟩, rfl, rfl⟩
  · rw [hsettlements, List.map_map]
    exact hp.2.sublist (List.filter_sublist.map _)

/-- The failure of the calls that wait when a peer closes. -/
def closing : Failure := .closed closedMessage

lemma closed_close (p : Peer κ) (isDone : Task.Id → Bool) (cause : Option Text) :
    (p.close isDone cause).1.closed = true := by
  unfold close
  split
  · assumption
  · rfl

lemma close_fst (p : Peer κ) (isDone : Task.Id → Bool) (cause : Option Text) :
    (p.close isDone cause).1 =
      { p with
        pending := (p.close isDone cause).1.pending
        closed := (p.close isDone cause).1.closed
        callbacks := (p.close isDone cause).1.callbacks } := by
  unfold close
  split <;> rfl

/-- Closing a peer is a verdict on all calls that wait. -/
lemma handled_close (hp : p.Distinct) (hclosed : p.closed = true → p.pending = [])
    (isDone : Task.Id → Bool) (cause : Option Text) :
    Handled p (p.close isDone cause).1 isDone (fun _ => some (.error closing))
      (p.close isDone cause).2 := by
  unfold close
  split
  · next h =>
    have hnone := hclosed h
    exact ⟨by simp [hnone], rfl, by simp [settlements, hnone], .nil⟩
  · have hreject := @handled_rejectAll κ { p with closed := true } hp isDone closing
    have hsettlements : ∀ (line : LogLine) (es : List (Effect κ)),
        settlements (.log line :: es ++ .closeConnection :: p.callbacks.map .callback) =
          settlements es := by
      intro line es
      have hcallbacks : settlements (p.callbacks.map (Effect.callback (κ := κ))) = [] := by
        rw [settlements, List.filterMap_map]
        exact List.filterMap_eq_nil_iff.2 fun _ _ => rfl
      rw [List.cons_append, settlements, List.filterMap_cons_none rfl, ← settlements,
        settlements_append, settlements, settlements, List.filterMap_cons_none rfl, ← settlements,
        ← settlements, hcallbacks, List.append_nil]
    refine ⟨hreject.pending, hreject.nextUid, fun f res => ?_, ?_⟩
    · rw [hsettlements]
      exact hreject.settled f res
    · rw [hsettlements]
      exact hreject.once

/-! ## One payload and many -/

lemma handled_reply (hp : p.Distinct) (now : Float) (kind : Text) (uid value : Sexp) :
    Handled p (p.reply isDone now kind uid value).1 isDone
      (fun u => (Message.reply kind uid value).verdictFor u)
      (p.reply isDone now kind uid value).2.1 := by
  rw [reply]
  cases hfind : (uid? uid).bind fun n => p.pending.find? (·.uid == n) with
  | none =>
    -- the number is that of no call
    have hno : ∀ c ∈ p.pending, uid? uid ≠ some c.uid := by
      intro c hc huid
      rw [huid, Option.bind_some, List.find?_eq_none] at hfind
      exact hfind c hc (by simp)
    have hhandled : ∀ es : List (Effect κ), settlements es = [] →
        Handled p p isDone (fun u => (Message.reply kind uid value).verdictFor u) es := by
      intro es hes
      refine ⟨?_, rfl, fun f res => ?_, by simp [hes]⟩
      · rw [List.filter_eq_self.2]
        exact fun c hc => by simp [Message.verdictFor, hno c hc]
      · simp only [hes, List.not_mem_nil, false_iff]
        rintro ⟨c, hc, -, -, hv⟩
        simp [Message.verdictFor, hno c hc] at hv
    dsimp only
    split <;> exact hhandled _ rfl
  | some call =>
    obtain ⟨n, huid, hfind⟩ := Option.bind_eq_some_iff.1 hfind
    have hcall := List.mem_of_find?_eq_some hfind
    have hn : call.uid = n := by simpa using List.find?_some hfind
    have hverdict : ∀ u, (Message.reply kind uid value).verdictFor u =
        if u = call.uid then some (replyResult kind value) else none := by
      intro u
      simp only [Message.verdictFor, huid, Option.some.injEq, hn, eq_comm]
    have hpending : (p.forget call.uid).pending = p.pending.filter fun c =>
        ((Message.reply kind uid value).verdictFor c.uid).isNone := by
      refine List.filter_congr fun c _ => ?_
      rw [hverdict]
      by_cases hc : c.uid = call.uid <;> simp [hc]
    dsimp only
    split
    · next hdone =>
      refine ⟨hpending, rfl, fun f res => ?_, .nil⟩
      simp only [settlements, List.filterMap_nil, List.not_mem_nil, false_iff]
      rintro ⟨c, hc, rfl, hopen, hv⟩
      rw [hverdict] at hv
      split at hv
      · next huid => simp [hp.eq_of_uid hc hcall huid, hdone] at hopen
      · cases hv
    · next hopen =>
      refine ⟨hpending, rfl, fun f res => ?_, List.nodup_singleton _⟩
      have hopen : isDone call.future = false := by simpa using hopen
      simp only [settlements, List.filterMap_cons, List.filterMap_nil, List.mem_singleton,
        Prod.mk.injEq]
      constructor
      · rintro ⟨rfl, rfl⟩
        exact ⟨call, hcall, rfl, hopen, by rw [hverdict, if_pos rfl]⟩
      · rintro ⟨c, hc, rfl, -, hv⟩
        rw [hverdict] at hv
        split at hv
        · next huid =>
          cases hv
          exact ⟨by rw [hp.eq_of_uid hc hcall huid], rfl⟩
        · cases hv

/-- Handling a payload, by what it is to the peer. -/
lemma dispatch_eq (p : Peer κ) (isDone : Task.Id → Bool) (now : Float) (fault : Option Fault)
    (payload : Text) :
    p.dispatch isDone now fault payload =
      match message payload with
      | .unreadable => (p, [], .stop none)
      | .invalid =>
        ((p.rejectAll isDone (.protocol invalidMessage)).1,
          .log (Log.warning
              ("Received invalid SExp data: " ++ Text.quoted (payload.take shownPayload))) ::
            (p.rejectAll isDone (.protocol invalidMessage)).2,
          .proceed)
      | .request uid subject =>
        (p, (p.refuse fault uid subject).1, (p.refuse fault uid subject).2)
      | .reply kind uid value => p.reply isDone now kind uid value := by
  rw [dispatch, message]
  rcases Sexp.read payload with (e | e) | v
  · rfl
  · rfl
  · dsimp only
    rcases parts? v with _ | ⟨kind, uid, value⟩
    · rfl
    · dsimp only
      split <;> rfl

lemma settlements_refuse (p : Peer κ) (fault : Option Fault) (uid subject : Sexp) :
    settlements (p.refuse fault uid subject).1 = [] := by
  rw [refuse]
  repeat' split
  all_goals rfl

/-- One payload gives its verdicts. -/
lemma handled_dispatch (hp : p.Distinct) (isDone : Task.Id → Bool) (now : Float)
    (fault : Option Fault) (payload : Text) :
    Handled p (p.dispatch isDone now fault payload).1 isDone (verdictFor · payload)
      (p.dispatch isDone now fault payload).2.1 := by
  rw [dispatch_eq]
  simp only [verdictFor]
  cases message payload with
  | unreadable => exact .of_no_verdict rfl rfl (fun _ => rfl) rfl
  | invalid =>
    have hreject := handled_rejectAll hp isDone (.protocol invalidMessage)
    exact ⟨hreject.pending, hreject.nextUid, hreject.settled, hreject.once⟩
  | request uid subject =>
    exact .of_no_verdict rfl rfl (fun _ => rfl) (settlements_refuse p fault uid subject)
  | reply kind uid value => exact handled_reply hp now kind uid value

/-- Handling a payload changes nothing of a peer but the list of the calls that wait. -/
lemma dispatch_fst (p : Peer κ) (isDone : Task.Id → Bool) (now : Float) (fault : Option Fault)
    (payload : Text) :
    (p.dispatch isDone now fault payload).1 =
      { p with pending := (p.dispatch isDone now fault payload).1.pending } := by
  rw [dispatch_eq]
  cases message payload with
  | reply kind uid value =>
    simp only [reply]
    repeat' split
    all_goals rfl
  | _ => rfl

lemma handled_dispatchAll (hp : p.Distinct) (isDone : Task.Id → Bool) (now : Float)
    (fault : Option Fault) (payloads : List Text) :
    ∃ done rest, payloads = done ++ rest ∧
      ((p.dispatchAll isDone now fault payloads).2.2 = .proceed → rest = []) ∧
      Handled p (p.dispatchAll isDone now fault payloads).1 isDone (firstVerdict · done)
        (p.dispatchAll isDone now fault payloads).2.1 ∧
      (p.dispatchAll isDone now fault payloads).1 =
        { p with pending := (p.dispatchAll isDone now fault payloads).1.pending } := by
  induction payloads generalizing p with
  | nil => exact ⟨[], [], rfl, fun _ => rfl, .of_no_verdict rfl rfl (fun _ => rfl) rfl, rfl⟩
  | cons payload payloads ih =>
    have hone := handled_dispatch hp isDone now fault payload
    have hsame := dispatch_fst p isDone now fault payload
    have hfirst : ∀ done, (fun u => firstVerdict u (payload :: done)) =
        fun u => (verdictFor u payload).or (firstVerdict u done) := fun done => by
      funext u
      exact firstVerdict_cons u payload done
    rw [dispatchAll]
    rcases hdispatch : p.dispatch isDone now fault payload with ⟨q, es, verdict⟩
    rw [hdispatch] at hone hsame
    cases verdict with
    | proceed =>
      obtain ⟨done, rest, rfl, hrest, hmore, hsame'⟩ := ih (hone.distinct hp)
      refine ⟨payload :: done, rest, rfl, hrest, ?_, ?_⟩
      · rw [hfirst]
        exact hone.trans hmore hp
      · dsimp only at hsame ⊢
        rw [hsame', hsame]
    | stop cause =>
      refine ⟨[payload], payloads, rfl, fun h => (by cases h), ?_, hsame⟩
      rw [hfirst]
      simpa [firstVerdict] using hone

/-- A payload that cannot be read is the last one that is handled. -/
lemma readable_of_dispatchAll {now : Float} {fault : Option Fault} {payloads : List Text}
    (h : (p.dispatchAll isDone now fault payloads).2.2 = .proceed) :
    ∀ payload ∈ payloads, message payload ≠ .unreadable := by
  induction payloads generalizing p with
  | nil => simp
  | cons payload payloads ih =>
    rw [dispatchAll] at h
    rcases hdispatch : p.dispatch isDone now fault payload with ⟨q, es, verdict⟩
    rw [hdispatch] at h
    cases verdict with
    | stop cause => cases h
    | proceed =>
      refine List.forall_mem_cons.2 ⟨fun hmessage => ?_, ih h⟩
      rw [dispatch_eq, hmessage] at hdispatch
      cases hdispatch

/-! ## Payloads that end the connection -/

/-- A payload that can end the connection: one that cannot be read, or a call of the other side. -/
def Stops (payload : Text) : Prop :=
  message payload = .unreadable ∨ ∃ uid subject, message payload = .request uid subject

/-- The parts of a reply that was read. -/
lemma read_of_message_eq_reply {payload kind : Text} {uid value : Sexp}
    (h : message payload = .reply kind uid value) :
    ∃ more, Sexp.read payload = .ok (.list (.symbol kind :: uid :: value :: more)) ∧
      kind ≠ Text.ofString "call" ∧ kind ≠ Text.ofString "methods" := by
  unfold message at h
  split at h
  · cases h
  · cases h
  · next v hread =>
    split at h
    · cases h
    · next kind' uid' value' hparts =>
      split at h
      · cases h
      · next hkind =>
        cases h
        unfold parts? at hparts
        split at hparts
        · next more =>
          cases hparts
          exact ⟨more, hread, not_or.1 hkind⟩
        · cases hparts

/-- A reply never ends the connection. -/
lemma reply_proceeds (p : Peer κ) (isDone : Task.Id → Bool) (now : Float) {payload kind : Text}
    {uid value : Sexp} (h : message payload = .reply kind uid value) :
    (p.reply isDone now kind uid value).2.2 = .proceed := by
  obtain ⟨more, hread, -⟩ := read_of_message_eq_reply h
  obtain ⟨shown, hshown⟩ : ∃ s, Sexp.shown uid = .ok s := by
    cases Sexp.readable_of_read hread with
    | list hall => exact (hall uid (by simp)).exists_shown
  rw [reply]
  split
  · rw [hshown]
  · dsimp only
    split <;> rfl

lemma dispatch_proceeds {payload : Text} (h : ¬Stops payload) (p : Peer κ)
    (isDone : Task.Id → Bool) (now : Float) (fault : Option Fault) :
    (p.dispatch isDone now fault payload).2.2 = .proceed := by
  rw [dispatch_eq]
  cases hmessage : message payload with
  | unreadable => exact absurd (.inl hmessage) h
  | invalid => rfl
  | request uid subject => exact absurd (.inr ⟨uid, subject, hmessage⟩) h
  | reply kind uid value => exact reply_proceeds p isDone now hmessage

lemma dispatchAll_proceeds {payloads : List Text} (h : ∀ payload ∈ payloads, ¬Stops payload)
    (p : Peer κ) (isDone : Task.Id → Bool) (now : Float) (fault : Option Fault) :
    (p.dispatchAll isDone now fault payloads).2.2 = .proceed := by
  induction payloads generalizing p with
  | nil => rfl
  | cons payload payloads ih =>
    obtain ⟨hpayload, h⟩ := List.forall_mem_cons.1 h
    have hproceed := dispatch_proceeds hpayload p isDone now fault
    rw [dispatchAll]
    rcases hdispatch : p.dispatch isDone now fault payload with ⟨q, es, verdict⟩
    rw [hdispatch] at hproceed
    cases hproceed
    exact ih h q

end SuggestBridge.Peer
