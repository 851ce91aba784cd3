import SuggestBridge.Proofs.Peer.Delivery

/-!
# Replies find their calls

The calls of a peer are told apart by their numbers alone.  `Correlated` collects what that comes to
in a state that a run has reached: which numbers are given out, what a call that returns a value has
received, that no call is settled twice, and that a call ends as the first reply with its number
says, whatever other replies arrive before, after or in between (`correlated_of_run`).
-/

namespace SuggestBridge

/-! ## Replies and their numbers -/

namespace Peer

/-- A payload is a reply: a list of at least three items that a symbol heads, but neither `call` nor
`methods`. -/
def IsReply (payload : Text) : Prop :=
  ∃ kind uid value more, Sexp.read payload = .ok (.list (.symbol kind :: uid :: value :: more)) ∧
    kind ≠ Text.ofString "call" ∧ kind ≠ Text.ofString "methods"

/-- A payload carries the number of a call: it is a list with the number in second place that is
headed neither by `call` nor by `methods`. -/
def Carries (uid : Nat) (payload : Text) : Prop :=
  ∃ head more, Sexp.read payload = .ok (.list (head :: .int uid :: more)) ∧
    head ≠ .symbol (Text.ofString "call") ∧ head ≠ .symbol (Text.ofString "methods")

lemma message_of_isReply {payload : Text} (hreply : IsReply payload) :
    ∃ kind uid value more, message payload = .reply kind uid value ∧
      Sexp.read payload = .ok (.list (.symbol kind :: uid :: value :: more)) ∧
      kind ≠ Text.ofString "call" ∧ kind ≠ Text.ofString "methods" := by
  obtain ⟨kind, uid, value, more, hread, hkind⟩ := hreply
  refine ⟨kind, uid, value, more, ?_, hread, hkind⟩
  simp only [message, hread, parts?, if_neg (not_or.2 hkind)]

lemma IsReply.not_stops {payload : Text} (hreply : IsReply payload) : ¬Stops payload := by
  obtain ⟨kind, uid, value, -, hmessage, -⟩ := message_of_isReply hreply
  rintro (h | ⟨_, _, h⟩) <;> rw [hmessage] at h <;> cases h

lemma uid?_eq_some {v : Sexp} {n : Nat} : uid? v = some n ↔ v = .int n := by
  constructor
  · intro h
    unfold uid? at h
    split at h
    · cases h
      rfl
    · cases h
  · rintro rfl
    rfl

/-- Whatever carries the number of a call is a verdict on it. -/
lemma not_carries_of_verdictFor {uid : Nat} {payload : Text} (h : verdictFor uid payload = none) :
    ¬Carries uid payload := by
  rintro ⟨head, more, hread, hcall, hmethods⟩
  unfold verdictFor message at h
  simp only [hread] at h
  split at h
  · simp [Message.verdictFor] at h
  · next kind u value hparts =>
    unfold parts? at hparts
    split at hparts
    · next heq =>
      cases hparts
      cases heq
      split at h
      · next hkind => rcases hkind with rfl | rfl <;> contradiction
      · simp [Message.verdictFor, uid?] at h
    · cases hparts

lemma IsReply.verdictFor_eq_none_iff {uid : Nat} {payload : Text} (hreply : IsReply payload) :
    verdictFor uid payload = none ↔ ¬Carries uid payload := by
  refine ⟨not_carries_of_verdictFor, fun hnot => ?_⟩
  obtain ⟨kind, u, value, more, hmessage, hread, hcall, hmethods⟩ := message_of_isReply hreply
  rw [verdictFor, hmessage, Message.verdictFor, if_neg]
  intro hu
  rw [uid?_eq_some.1 hu] at hread
  exact hnot ⟨.symbol kind, value :: more, hread, by simpa using hcall, by simpa using hmethods⟩

/-- Only a `return` with the number of a call lets it return a value. -/
lemma read_of_verdictFor_eq_ok {uid : Nat} {payload : Text} {v : Sexp}
    (h : verdictFor uid payload = some (.ok v)) :
    ∃ more, Sexp.read payload =
      .ok (.list (.symbol (Text.ofString "return") :: .int uid :: v :: more)) := by
  rw [verdictFor] at h
  cases hmessage : message payload with
  | unreadable => simp [hmessage, Message.verdictFor] at h
  | invalid => simp [hmessage, Message.verdictFor] at h
  | request u subject => simp [hmessage, Message.verdictFor] at h
  | reply kind u value =>
    rw [hmessage, Message.verdictFor] at h
    split at h
    · next hu =>
      obtain ⟨more, hread, -⟩ := read_of_message_eq_reply hmessage
      rw [uid?_eq_some.1 hu] at hread
      rw [Option.some.injEq, replyResult] at h
      split at h
      · next hkind =>
        cases h
        exact ⟨more, hkind ▸ hread⟩
      · split at h <;> cases h
    · cases h

/-- The payload that lets a call return a value is the first one that carries its number. -/
lemma first_of_firstVerdict {uid : Nat} {payloads : List Text} {v : Sexp}
    (h : firstVerdict uid payloads = some (.ok v)) :
    ∃ before payload after, payloads = before ++ payload :: after ∧
      (∃ more, Sexp.read payload =
        .ok (.list (.symbol (Text.ofString "return") :: .int uid :: v :: more))) ∧
      ∀ p ∈ before, ¬Carries uid p := by
  obtain ⟨before, payload, after, heq, hverdict, hbefore⟩ := List.findSome?_eq_some_iff.1 h
  exact ⟨before, payload, after, heq, read_of_verdictFor_eq_ok hverdict,
    fun p hp => not_carries_of_verdictFor (hbefore p hp)⟩

lemma firstVerdict_eq_none_iff {uid : Nat} {payloads : List Text}
    (hreplies : ∀ p ∈ payloads, IsReply p) :
    firstVerdict uid payloads = none ↔ ∀ p ∈ payloads, ¬Carries uid p := by
  rw [firstVerdict, List.findSome?_eq_none_iff]
  exact forall₂_congr fun p hp => (hreplies p hp).verdictFor_eq_none_iff

/-- Replies with different numbers may arrive in any order. -/
lemma firstVerdict_perm (uid : Nat) {ps qs : List Text} (hperm : ps.Perm qs)
    (hdistinct : ps.Pairwise fun p q => verdictFor uid p = none ∨ verdictFor uid q = none) :
    firstVerdict uid ps = firstVerdict uid qs := by
  induction hperm with
  | nil => rfl
  | cons p _ ih =>
    rw [firstVerdict_cons, firstVerdict_cons, ih (List.pairwise_cons.1 hdistinct).2]
  | swap p q ps =>
    obtain ⟨hqp, -⟩ := List.pairwise_cons.1 hdistinct
    simp only [firstVerdict_cons]
    rcases hqp p List.mem_cons_self with hnone | hnone <;> rw [hnone] <;> simp
  | trans hpq _ ih ih' =>
    refine (ih hdistinct).trans (ih' ?_)
    exact (hpq.pairwise_iff fun h => h.symm).1 hdistinct

/-- Replies that are treated one after the other. -/
lemma dispatchAll_replies {κ : Type} {p q : Peer κ} (hp : p.Distinct) {isDone : Task.Id → Bool}
    {now : Float} {fault : Option Fault} {payloads : List Text}
    (hreplies : ∀ payload ∈ payloads, IsReply payload) {es : List (Effect κ)} {verdict : Verdict}
    (hdispatch : p.dispatchAll isDone now fault payloads = (q, es, verdict)) :
    verdict = .proceed ∧
      q = { p with pending := p.pending.filter fun c => (firstVerdict c.uid payloads).isNone } ∧
      ∀ f r, (f, r) ∈ settlements es ↔
        ∃ c ∈ p.pending, c.future = f ∧ isDone f = false ∧
          firstVerdict c.uid payloads = some r := by
  have hproceed := dispatchAll_proceeds
    (fun payload hmem => (hreplies payload hmem).not_stops) p isDone now fault
  obtain ⟨done, rest, rfl, hrest, hhandled, hsame⟩ :=
    handled_dispatchAll hp isDone now fault payloads
  cases hrest hproceed
  rw [List.append_nil] at hdispatch hproceed hhandled hsame ⊢
  rw [hdispatch] at hproceed hhandled hsame
  refine ⟨hproceed, ?_, hhandled.settled⟩
  dsimp only at hsame hhandled
  rw [hsame, hhandled.pending]

end Peer

namespace Exchange

open SuggestBridge.Frame (Whole bytesOf)
open Peer (History IsReply Carries firstVerdict settlements)
open SuggestBridge.Task (Outcome)

variable {x y z : Exchange} {h h' : History}

/-! ## What is settled -/

/-- The effects of what may be done with the peer next: a call begins or goes on, the listener
begins or goes on, or the connection is closed from this side. -/
inductive Emits (x : Exchange) : List (Peer.Effect NamedCallback) → Prop
  | begins (now : Float) (method : Text) (args : List Sexp) :
    Emits x (x.connection.beginCall x.kernel.isDone now x.kernel.futures.size
      (x.kernel.futures.size + 1) method args).2.1
  | goesOn (state : Connection.CallState) (input : Outcome Sexp Failure) :
    Emits x (x.connection.resumeCall x.kernel.isDone state input).2.1
  | listens {l a} (now : Float) (activity : x.kernel.activity? l = some a)
    (body : a.body = some .listen) :
    Emits x (x.connection.beginListening x.kernel.isDone now).2.1
  | reads (now : Float) (input : Outcome Sexp Failure) :
    Emits x (x.connection.resumeListening x.kernel.isDone now input).2.1
  | stops {l} (listener : x.connection.listener = some l) :
    Emits x (x.connection.peer.close (x.kernel.cancel l).1.isDone none).2

/-- Effects settle futures of calls, none that is settled already and none twice. -/
def SettlesOnce (x : Exchange) (h : History) (es : List (Peer.Effect NamedCallback)) : Prop :=
  ((settlements es).map Prod.fst).Nodup ∧ ∀ f r, (f, r) ∈ settlements es →
    x.kernel.outcome? f = none ∧ ∃ i ∈ h.issues, i.future = f

lemma Orderly.settlesOnce_of_handled (hx : Orderly x h) {p q : Peer NamedCallback}
    {isDone : Task.Id → Bool} {verdict : Nat → Option (Except Failure Sexp)}
    {es : List (Peer.Effect NamedCallback)} (hhandled : Peer.Handled p q isDone verdict es)
    (hpending : ∀ c ∈ p.pending, c ∈ x.connection.peer.pending)
    (hopen : ∀ f, isDone f = false → x.kernel.outcome? f = none) : SettlesOnce x h es := by
  refine ⟨hhandled.once, fun f r hmem => ?_⟩
  obtain ⟨c, hc, rfl, hdone, -⟩ := (hhandled.settled f r).1 hmem
  obtain ⟨i, hi, -, hfuture, -⟩ := hx.ledger.entries c (hpending c hc)
  exact ⟨hopen _ hdone, i, hi, hfuture⟩

lemma settlesOnce_of_nil {es : List (Peer.Effect NamedCallback)} (hes : settlements es = []) :
    SettlesOnce x h es := by
  rw [SettlesOnce, hes]
  exact ⟨.nil, fun _ _ hmem => absurd hmem List.not_mem_nil⟩

lemma outcome_of_isDone {k : Task.Kernel Routine Empty Sexp Failure} {f : Task.Id}
    (hdone : k.isDone f = false) : k.outcome? f = none := by
  rwa [Task.Kernel.isDone, Option.isSome_eq_false_iff, Option.isNone_iff_eq_none] at hdone

/-- A call that goes on settles no future twice. -/
lemma Orderly.settlesOnce_of_went (hx : Orderly x h) {c d : Connection NamedCallback} {uid : Nat}
    {future : Task.Id} {drained : Option Task.Id} {es : List (Peer.Effect NamedCallback)}
    {progress : Connection.CallProgress}
    (hwent : Connection.Went c x.kernel.isDone uid future drained d es progress)
    (hpending : ∀ p ∈ (c.peer.forget uid).pending, p ∈ x.connection.peer.pending) :
    SettlesOnce x h es := by
  cases hwent with
  | awaits hes => exact settlesOnce_of_nil hes
  | drains hes => exact settlesOnce_of_nil hes
  | leaves hes => exact settlesOnce_of_nil hes
  | breaks handled =>
    exact hx.settlesOnce_of_handled handled hpending fun f hdone => outcome_of_isDone hdone

/-- A call that begins settles no future twice, and not its own. -/
lemma Orderly.settlesOnce_of_begun (hx : Orderly x h) {future drained : Task.Id}
    {d : Connection NamedCallback} {es : List (Peer.Effect NamedCallback)}
    {progress : Connection.CallProgress}
    (hbegun : Connection.Begun x.connection x.kernel.isDone future drained d es progress) :
    SettlesOnce x h es := by
  cases hbegun with
  | refused => exact settlesOnce_of_nil rfl
  | unsendable => exact settlesOnce_of_nil rfl
  | issued _ went =>
    refine hx.settlesOnce_of_went went fun p hp => ?_
    obtain ⟨hmem, hne⟩ := List.mem_filter.1 hp
    rcases List.mem_append.1 hmem with hmem | hmem
    · exact hmem
    · simp [List.mem_singleton.1 hmem] at hne

/-- Whatever is done with the peer next settles no future twice. -/
lemma Orderly.settlesOnce (hx : Orderly x h) {es : List (Peer.Effect NamedCallback)}
    (hes : x.Emits es) : SettlesOnce x h es := by
  have hopen : ∀ f, x.kernel.isDone f = false → x.kernel.outcome? f = none :=
    fun f hdone => outcome_of_isDone hdone
  cases hes with
  | begins now method args =>
    have hfuture : ∀ c ∈ x.connection.peer.pending, c.future ≠ x.kernel.futures.size :=
      fun c hc => Nat.ne_of_lt (hx.pending_plain c hc).1
    exact hx.settlesOnce_of_begun (Connection.begun_beginCall hx.ledger.distinct
      hx.ledger.pending_uid_lt hfuture x.kernel.isDone now (x.kernel.futures.size + 1) method args)
  | goesOn state input =>
    cases state with
    | awaiting uid future => exact settlesOnce_of_nil rfl
    | draining uid future =>
      exact hx.settlesOnce_of_went (Connection.went_resumeCall hx.ledger.distinct hx.ledger.closed
        x.kernel.isDone uid future input) fun p hp => List.mem_of_mem_filter hp
  | listens now activity body =>
    obtain ⟨-, -, hdrain, -⟩ := hx.placed activity body
    obtain ⟨-, -, -, hfront⟩ := Frame.drain_eq_ok_iff.1 hdrain
    obtain ⟨_, _, _, hlistened, -⟩ := Connection.listened_beginListening hx.ledger.distinct
      hx.ledger.closed hfront x.kernel.isDone now
    exact hx.settlesOnce_of_handled hlistened.handled (fun c hc => hc) hopen
  | reads now input =>
    obtain ⟨_, _, _, hlistened, -⟩ := Connection.listened_resumeListening hx.ledger.distinct
      hx.ledger.closed x.kernel.isDone now input
    exact hx.settlesOnce_of_handled hlistened.handled (fun c hc => hc) hopen
  | @stops l hl =>
    obtain ⟨k, os, hnoted, -, hsettled, -⟩ := hx.cancelled l (hx.listener_active hl)
    refine hx.settlesOnce_of_handled (Peer.handled_close hx.ledger.distinct hx.ledger.closed
      (x.kernel.cancel l).1.isDone none) (fun c hc => hc) fun f hdone => ?_
    have hnone := outcome_of_isDone hdone
    rw [hsettled.outcome, hnoted.outcome, Option.or_eq_none_iff] at hnone
    exact hnone.1

/-! ## What is promised about calls -/

/-- Since `x`, frames of replies have arrived in full, the first of them perhaps in part before, and
no job is left. -/
structure Delivered (x : Exchange) (h : History) (ws : List Whole) (y : Exchange) : Prop where
  replies : ∀ w ∈ ws, IsReply w.payload
  delivers : ∃ bytes h', x.connection.peer.buffer ++ bytes = bytesOf ws ∧ Delivers x h bytes y h'
  ready : y.kernel.ready = []

/-- A call has the same outcome in two states later than `x`. So has its future, if the call had not
ended in `x`. -/
def Agree (x : Exchange) (h : History) (y z : Exchange) (t : Task.Id) : Prop :=
  y.kernel.outcome? t = z.kernel.outcome? t ∧
    ∀ i ∈ h.issues, i.task = t → x.kernel.outcome? t = none →
      y.kernel.outcome? i.future = z.kernel.outcome? i.future

/-- What is promised about the calls of a peer. -/
structure Correlated (x : Exchange) (h : History) : Prop where
  /-- The calls have the numbers from one on, in the order in which they took them. -/
  numbers : h.issues.map (·.uid) = List.range' 1 h.issues.length
  /-- Each has a task and a future of its own. -/
  distinct : (h.issues.map (·.task)).Nodup ∧ (h.issues.map (·.future)).Nodup
  /-- The next call takes the next number, even if it cannot be encoded. -/
  next : x.connection.peer.closed = false → ∀ now future method args p result,
    x.connection.peer.issue now future method args = (p, result) →
      p.nextUid = h.issues.length + 2 ∧
        ∀ uid frame, result = .ok (uid, frame) → uid = h.issues.length + 1
  /-- A call that returned a value received it, since it was issued, as a `return` with its number,
  and nothing before that carried its number. -/
  returned : ∀ t ∈ x.callers, ∀ v, x.kernel.outcome? t = some (.value v) →
    ∃ i ∈ h.issues, i.task = t ∧ ∃ before payload after,
      h.since i = before ++ payload :: after ∧
        (∃ more, Sexp.read payload =
          .ok (.list (.symbol (Text.ofString "return") :: .int i.uid :: v :: more))) ∧
        ∀ p ∈ before, ¬Carries i.uid p
  /-- What is settled stays settled so. -/
  kept : ∀ y h', Leads x h y h' → ∀ u o, x.kernel.outcome? u = some o →
    y.kernel.outcome? u = some o
  /-- Nothing settles a call that is settled, or one call twice. -/
  once : ∀ es, x.Emits es → SettlesOnce x h es
  /-- Replies, however many are treated at once and whatever was treated before them, concern no
  call but those whose numbers they carry, and each of these by the first one that carries its
  number. -/
  replies : ∀ now fault before payloads, (∀ payload ∈ payloads, IsReply payload) →
    ∀ p es q fs verdict,
      x.connection.peer.dispatchAll x.kernel.isDone now fault before = (p, es, .proceed) →
      p.dispatchAll x.kernel.isDone now fault payloads = (q, fs, verdict) →
        verdict = .proceed ∧
        q = { p with pending := p.pending.filter fun c => (firstVerdict c.uid payloads).isNone } ∧
        (∀ f r, (f, r) ∈ settlements fs ↔ ∃ c ∈ p.pending, c.future = f ∧
          x.kernel.isDone f = false ∧ firstVerdict c.uid payloads = some r) ∧
        ∀ uid, firstVerdict uid payloads = none ↔ ∀ payload ∈ payloads, ¬Carries uid payload
  /-- Replies have the same outcome in any order, if no two of them carry the same number. -/
  permuted : x.Quiet → ∀ us vs y z, us.Perm vs →
    (us.Pairwise fun v w => ∀ uid, Carries uid v.payload → ¬Carries uid w.payload) →
    x.Delivered h us y → x.Delivered h vs z → ∀ t ∈ x.callers, x.Agree h y z t
  /-- One more reply changes no call but the one whose number it is the first to carry: neither a
  duplicate, nor one with a number of no call, nor one that comes after its call has ended. -/
  extra : x.Quiet → ∀ before w after y z, x.Delivered h (before ++ w :: after) y →
    x.Delivered h (before ++ after) z → ∀ t ∈ x.callers,
      (∀ i ∈ h.issues, i.task = t → x.kernel.outcome? t = none → Carries i.uid w.payload →
        ∃ v ∈ before, Carries i.uid v.payload) → x.Agree h y z t
  /-- Replies that are delivered are treated: after finitely many jobs no job is left. -/
  rests : x.Quiet → ∀ ws bytes y h', (∀ w ∈ ws, IsReply w.payload) →
    x.connection.peer.buffer ++ bytes <+: bytesOf ws → Delivers x h bytes y h' →
    ∃ z h'', Delivers y h' [] z h'' ∧ z.kernel.ready = []

lemma Delivered.agree (hx : Orderly x h) (hq : x.Quiet) {us vs : List Whole}
    (hy : x.Delivered h us y) (hz : x.Delivered h vs z) {t : Task.Id} (ht : t ∈ x.callers)
    (hsame : ∀ i ∈ h.issues, i.task = t → x.kernel.outcome? t = none →
      firstVerdict i.uid (us.map Whole.payload) = firstVerdict i.uid (vs.map Whole.payload)) :
    x.Agree h y z t := by
  obtain ⟨bytes, h', hbytes, hdelivers⟩ := hy.delivers
  obtain ⟨more, h'', hmore, hdelivers'⟩ := hz.delivers
  exact Delivers.agree hx hq (fun w hw => (hy.replies w hw).not_stops)
    (fun w hw => (hz.replies w hw).not_stops) hdelivers hbytes hy.ready hdelivers' hmore hz.ready
    ht hsame

lemma Delivered.permuted (hx : Orderly x h) (hq : x.Quiet) {us vs : List Whole}
    (hperm : us.Perm vs)
    (hdistinct : us.Pairwise fun v w => ∀ uid, Carries uid v.payload → ¬Carries uid w.payload)
    (hy : x.Delivered h us y) (hz : x.Delivered h vs z) {t : Task.Id} (ht : t ∈ x.callers) :
    x.Agree h y z t := by
  refine hy.agree hx hq hz ht fun i _ _ _ => ?_
  refine Peer.firstVerdict_perm i.uid (hperm.map Whole.payload) (List.pairwise_map.2 ?_)
  refine hdistinct.imp_of_mem fun {v w} hv hw hne => ?_
  rw [(hy.replies v hv).verdictFor_eq_none_iff, (hy.replies w hw).verdictFor_eq_none_iff]
  exact not_or_of_imp fun hcarries => hne i.uid hcarries

/-- A reply that carries a number no call waits for, or not as the first one, says nothing new. -/
lemma firstVerdict_insert {uid : Nat} {before after : List Text} {payload : Text}
    (hbefore : ∀ p ∈ before, IsReply p) (hpayload : IsReply payload)
    (h : Carries uid payload → ∃ p ∈ before, Carries uid p) :
    firstVerdict uid (before ++ payload :: after) = firstVerdict uid (before ++ after) := by
  rw [Peer.firstVerdict_append, Peer.firstVerdict_append, Peer.firstVerdict_cons]
  by_cases hcarries : Carries uid payload
  · obtain ⟨p, hp, hcarries⟩ := h hcarries
    cases hfirst : firstVerdict uid before with
    | none => exact absurd hcarries ((Peer.firstVerdict_eq_none_iff hbefore).1 hfirst p hp)
    | some r => rw [Option.some_or, Option.some_or]
  · rw [hpayload.verdictFor_eq_none_iff.2 hcarries, Option.none_or]

lemma Delivered.extra (hx : Orderly x h) (hq : x.Quiet) {before after : List Whole} {w : Whole}
    (hy : x.Delivered h (before ++ w :: after) y) (hz : x.Delivered h (before ++ after) z)
    {t : Task.Id} (ht : t ∈ x.callers)
    (hcarries : ∀ i ∈ h.issues, i.task = t → x.kernel.outcome? t = none →
      Carries i.uid w.payload → ∃ v ∈ before, Carries i.uid v.payload) : x.Agree h y z t := by
  refine hy.agree hx hq hz ht fun i hi htask hopen => ?_
  rw [List.map_append, List.map_append, List.map_cons]
  refine firstVerdict_insert (fun p hp => ?_) (hy.replies w (by simp)) fun hw => ?_
  · obtain ⟨v, hv, rfl⟩ := List.mem_map.1 hp
    exact hy.replies v (List.mem_append_left _ hv)
  · obtain ⟨v, hv, hcarries⟩ := hcarries i hi htask hopen hw
    exact ⟨v.payload, List.mem_map_of_mem hv, hcarries⟩

/-- **Replies are correlated.**  In every state that a run has reached, in any order of calls,
cancellations, chunks, faults and jobs, calls and replies find each other by numbers alone. -/
theorem correlated_of_run (hrun : Run x h) : Correlated x h := by
  have hx := orderly_of_run hrun
  refine
    { numbers := hx.ledger.uids
      distinct := ⟨hx.ledger.tasks, hx.ledger.futures⟩
      next := fun hopen now future method args p result hissue => ?_
      returned := fun t ht v hv => ?_
      kept := fun y h' hleads u o ho => (hx.persists hleads).1 ho
      once := fun es hes => hx.settlesOnce hes
      replies := fun now fault before payloads hreplies p es q fs verdict hbefore hdispatch => ?_
      permuted := fun hq us vs y z hperm hdistinct hy hz t ht =>
        hy.permuted hx hq hperm hdistinct hz ht
      extra := fun hq before w after y z hy hz t ht hcarries => hy.extra hx hq hz ht hcarries
      rests := fun _ _ _ _ _ _ _ hy => (hx.leads hy.leads).exists_rest }
  · have hnext := hx.ledger.next
    rcases Connection.issue_eq x.connection.peer now future method args hopen with
      ⟨e, heq⟩ | ⟨frame, heq⟩ <;> rw [heq] at hissue <;> cases hissue
    · exact ⟨congrArg (· + 1) hnext, nofun⟩
    · refine ⟨congrArg (· + 1) hnext, ?_⟩
      rintro _ _ ⟨⟩
      exact hnext
  · obtain ⟨i, hi, htask, hverdict⟩ := hx.answered t ht v hv
    exact ⟨i, hi, htask, Peer.first_of_firstVerdict hverdict⟩
  · obtain ⟨_, _, -, -, hhandled, -⟩ :=
      Peer.handled_dispatchAll hx.ledger.distinct x.kernel.isDone now fault before
    rw [hbefore] at hhandled
    obtain ⟨hproceed, hq, hsettled⟩ :=
      Peer.dispatchAll_replies (hhandled.distinct hx.ledger.distinct) hreplies hdispatch
    exact ⟨hproceed, hq, hsettled, fun uid => Peer.firstVerdict_eq_none_iff hreplies⟩

/-- Two calls that wait for their replies. -/
def twoCalls : Exchange := (((start {}).settle.call "a" "m" []).call "b" "m" []).settle

/-- Two calls that wait for their replies have the first two numbers, and whatever replies arrive,
in whatever order, they are treated. -/
theorem correlated_twoCalls :
    ∃ h, Run twoCalls h ∧ twoCalls.Quiet ∧ h.issues.map (·.uid) = [1, 2] ∧
      Correlated twoCalls h ∧
      ∀ ws : List Whole, (∀ w ∈ ws, IsReply w.payload) → ∃ y, twoCalls.Delivered h ws y := by
  have hstart : Run (start {}) {} := .refl
  obtain ⟨_, hlistening⟩ := hstart.settle
  obtain ⟨h, hrun⟩ := ((hlistening.call "a" "m" []).call "b" "m" []).settle
  rw [← twoCalls] at hrun
  have hcorrelated : Correlated twoCalls h := correlated_of_run hrun
  have hquiet : twoCalls.Quiet := ⟨List.isEmpty_iff.1 (by decide +kernel), by decide +kernel⟩
  have hbuffer : twoCalls.connection.peer.buffer = [] := by decide +kernel
  have hlength : h.issues.length = 2 := by
    have hnext := (orderly_of_run hrun).ledger.next
    have htwo : twoCalls.connection.peer.nextUid = 3 := by decide +kernel
    exact Nat.succ.inj (hnext.symm.trans htwo)
  refine ⟨h, hrun, hquiet, ?_, hcorrelated, fun ws hreplies => ?_⟩
  · rw [hcorrelated.numbers, hlength]
    rfl
  · have hdata : Delivers twoCalls h (bytesOf ws) (twoCalls.data (bytesOf ws)) h :=
      .data (bytesOf ws) .refl
    obtain ⟨y, h', hrest, hready⟩ := hcorrelated.rests hquiet ws _ _ _ hreplies
      (by rw [hbuffer]; exact List.prefix_refl _) hdata
    refine ⟨y, hreplies, ⟨bytesOf ws, h', by rw [hbuffer]; rfl, ?_⟩, hready⟩
    have hall := hdata.trans hrest
    rwa [List.append_nil] at hall

end Exchange

end SuggestBridge
