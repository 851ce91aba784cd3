import SuggestBridge.Proofs.Peer.Abandonment
import SuggestBridge.Proofs.Peer.Finality
import SuggestBridge.Proofs.Peer.Refusal

/-!
# Payloads that are no messages

A payload that is no message cannot be attributed to any call, so it fails all that wait.  It fails
no others: a call that an earlier payload has settled, be it in the same chunk, keeps its result, and
a call that begins later is settled by its own reply.  The peer stays open, and later replies to the
calls that were failed are dropped (`rejecting_of_run`).
-/

namespace SuggestBridge

namespace Peer

variable {κ : Type} {p : Peer κ} {isDone : Task.Id → Bool}

/-- A payload that is no message: it does not follow the grammar, or it is not a list of at least
three items that begins with a name. -/
def Invalid (payload : Text) : Prop :=
  (∃ e, Sexp.read payload = .error (.malformed e)) ∨
    ∃ v, Sexp.read payload = .ok v ∧ ∀ items, v = .list items →
      items.length < 3 ∨ ∀ name, items.head? ≠ some (.symbol name)

/-- The failure of the calls that wait when a payload is no message. -/
def rejection : Failure := .protocol invalidMessage

lemma parts?_eq_none_iff {v : Sexp} :
    parts? v = none ↔ ∀ items, v = .list items →
      items.length < 3 ∨ ∀ name, items.head? ≠ some (.symbol name) := by
  constructor
  · rintro h items rfl
    match items with
    | [] | [_] | [_, _] => exact .inl (by simp)
    | head :: uid :: value :: more =>
      refine .inr fun name hhead => ?_
      cases hhead
      cases h
  · intro h
    unfold parts?
    split
    · next kind uid value more =>
      rcases h _ rfl with hshort | hname
      · simp only [List.length_cons] at hshort
        omega
      · exact absurd rfl (hname kind)
    · rfl

lemma message_eq_invalid_iff {payload : Text} : message payload = .invalid ↔ Invalid payload := by
  unfold message Invalid
  cases hread : Sexp.read payload with
  | error e => cases e <;> simp
  | ok v =>
    simp only [Except.ok.injEq, exists_eq_left', reduceCtorEq, exists_false, false_or,
      ← parts?_eq_none_iff]
    cases parts? v with
    | none => simp
    | some parts =>
      dsimp only
      split <;> simp

lemma Invalid.verdictFor {payload : Text} (h : Invalid payload) (uid : Nat) :
    verdictFor uid payload = some (.error rejection) := by
  rw [Peer.verdictFor, message_eq_invalid_iff.2 h]
  rfl

/-- The first verdict on a call whose payloads are followed by an invalid one. -/
lemma Invalid.firstVerdict_append_cons {payload : Text} (h : Invalid payload) (uid : Nat)
    (before after : List Text) :
    firstVerdict uid (before ++ payload :: after) =
      some ((firstVerdict uid before).getD (.error rejection)) := by
  rw [firstVerdict_append, firstVerdict_cons, h.verdictFor]
  cases Peer.firstVerdict uid before <;> rfl

/-- What an invalid payload makes happen. -/
def rejectionOf (p : Peer κ) (isDone : Task.Id → Bool) (payload : Text) : List (Effect κ) :=
  .log (Log.warning ("Received invalid SExp data: " ++ Text.quoted (payload.take shownPayload))) ::
    (p.pending.filter fun c => !isDone c.future).map fun c => .settle c.future (.error rejection)

lemma dispatch_invalid {payload : Text} (h : Invalid payload) (p : Peer κ)
    (isDone : Task.Id → Bool) (now : Float) (fault : Option Fault) :
    p.dispatch isDone now fault payload =
      ({ p with pending := [] }, p.rejectionOf isDone payload, .proceed) := by
  rw [dispatch_eq, message_eq_invalid_iff.2 h]
  dsimp only
  rw [rejectAll_effects]
  rfl

/-- The payloads behind an invalid one find no call that waits. -/
lemma dispatchAll_invalid {payload : Text} (h : Invalid payload) (p : Peer κ)
    (isDone : Task.Id → Bool) (now : Float) (fault : Option Fault) (after : List Text) :
    p.dispatchAll isDone now fault (payload :: after) =
      ((({ p with pending := [] } : Peer κ).dispatchAll isDone now fault after).1,
        p.rejectionOf isDone payload ++
          (({ p with pending := [] } : Peer κ).dispatchAll isDone now fault after).2.1,
        (({ p with pending := [] } : Peer κ).dispatchAll isDone now fault after).2.2) := by
  rw [dispatchAll, dispatch_invalid h]

/-- A reply with a number that no call waits under is dropped. -/
lemma dispatch_unknown {payload kind : Text} {uid value : Sexp}
    (h : message payload = .reply kind uid value) (hno : ∀ c ∈ p.pending, uid? uid ≠ some c.uid)
    (isDone : Task.Id → Bool) (now : Float) (fault : Option Fault) :
    ∃ line, p.dispatch isDone now fault payload = (p, [.log line], .proceed) := by
  have hfind : ((uid? uid).bind fun n => p.pending.find? (·.uid == n)) = none := by
    rw [Option.bind_eq_none_iff]
    intro n hn
    rw [List.find?_eq_none]
    intro c hc huid
    exact hno c hc (hn.trans (congrArg some (beq_iff_eq.1 huid).symm))
  obtain ⟨more, hread, -⟩ := read_of_message_eq_reply h
  obtain ⟨shown, hshown⟩ : ∃ s, Sexp.shown uid = .ok s := by
    cases Sexp.readable_of_read hread with
    | list hall => exact (hall uid (by simp)).exists_shown
  rw [dispatch_eq, h]
  simp only [reply, hfind, hshown]
  exact ⟨_, rfl⟩

/-- Payloads settle nothing where no call waits. -/
lemma handled_of_nobody (hpending : p.pending = []) (isDone : Task.Id → Bool) (now : Float)
    (fault : Option Fault) (payloads : List Text) :
    Handled p (p.dispatchAll isDone now fault payloads).1 isDone (fun _ => none)
        (p.dispatchAll isDone now fault payloads).2.1 ∧
      settlements (p.dispatchAll isDone now fault payloads).2.1 = [] := by
  have hdistinct : p.Distinct := by simp [Distinct, hpending]
  obtain ⟨done, rest, -, -, hhandled, -⟩ :=
    handled_dispatchAll hdistinct isDone now fault payloads
  have hnone : settlements (p.dispatchAll isDone now fault payloads).2.1 = [] := by
    rw [List.eq_nil_iff_forall_not_mem]
    rintro ⟨f, r⟩ hmem
    obtain ⟨c, hc, -⟩ := (hhandled.settled f r).1 hmem
    simp [hpending] at hc
  refine ⟨.of_no_verdict ?_ hhandled.nextUid (fun _ => rfl) hnone, hnone⟩
  rw [hhandled.pending, hpending]
  rfl

/-- The calls that earlier payloads of a chunk have settled do not wait any more. -/
lemma not_settled_of_pending {q : Peer κ} {now : Float} {fault : Option Fault} {before : List Text}
    {es : List (Effect κ)} (hp : p.Distinct)
    (h : p.dispatchAll isDone now fault before = (q, es, .proceed)) {c : PendingCall}
    (hc : c ∈ q.pending) (r : Except Failure Sexp) : (c.future, r) ∉ settlements es := by
  obtain ⟨done, rest, -, -, hhandled, -⟩ := handled_dispatchAll hp isDone now fault before
  rw [h] at hhandled
  intro hmem
  obtain ⟨hc, hnone⟩ := hhandled.mem_pending.1 hc
  obtain ⟨d, hd, hfuture, -, hverdict⟩ := (hhandled.settled _ _).1 hmem
  rw [hp.eq_of_future hd hc hfuture, hnone] at hverdict
  cases hverdict

/-- An invalid payload among others: no call waits any more, and each that did is settled by the
first verdict before the invalid payload, or fails. -/
lemma Invalid.rejects {payload : Text} (h : Invalid payload) (hp : p.Distinct) {before : List Text}
    (hbefore : ∀ b ∈ before, ¬Stops b) (after : List Text) (isDone : Task.Id → Bool) (now : Float)
    (fault : Option Fault) :
    ∃ q es verdict, p.dispatchAll isDone now fault (before ++ payload :: after) = (q, es, verdict) ∧
      q.closed = p.closed ∧ ((∀ b ∈ after, ¬Stops b) → verdict = .proceed) ∧
      Handled p q isDone (fun uid => some ((firstVerdict uid before).getD (.error rejection)))
        es := by
  obtain ⟨_, _, hsplit, hrest, hfirst, -⟩ := handled_dispatchAll hp isDone now fault before
  have hproceeds := dispatchAll_proceeds hbefore p isDone now fault
  cases hrest hproceeds
  rw [List.append_nil] at hsplit
  subst hsplit
  rcases hall : p.dispatchAll isDone now fault before with ⟨q, es, verdict⟩
  rw [hall] at hfirst hproceeds
  cases hproceeds
  have hsecond := handled_dispatch (hfirst.distinct hp) isDone now fault payload
  rw [dispatch_invalid h] at hsecond
  obtain ⟨hthird, -⟩ := handled_of_nobody (p := { q with pending := [] }) rfl isDone now fault after
  have hboth := (hfirst.trans hsecond hp).trans hthird hp
  obtain ⟨_, _, -, -, -, hsame⟩ :=
    handled_dispatchAll hp isDone now fault (before ++ payload :: after)
  have hwhole := dispatchAll_append hall (payload :: after)
  rw [dispatchAll_invalid h] at hwhole
  refine ⟨_, _, _, hwhole, ?_, fun hafter => dispatchAll_proceeds hafter _ isDone now fault, ?_⟩
  · rw [hwhole] at hsame
    rw [hsame]
  · have hverdict : (fun uid => ((firstVerdict uid before).or (Peer.verdictFor uid payload)).or none) =
        fun uid => some ((firstVerdict uid before).getD (.error rejection)) := by
      funext uid
      rw [h.verdictFor]
      cases firstVerdict uid before <;> rfl
    rw [hverdict, List.append_assoc] at hboth
    exact hboth

end Peer

namespace Exchange

open SuggestBridge.Frame (Whole bytesOf)
open Peer (History Issue IsReplyKind RepliesTo Invalid firstVerdict settlements rejection
  replyMessage replyOutcome)
open SuggestBridge.Task (Outcome)

variable {x y z : Exchange} {h h' h'' : History}

/-! ## Runs -/

lemma Leads.trans (hl : Leads x h y h') (hl' : Leads y h' z h'') : Leads x h z h'' := by
  induction hl' with
  | refl => exact hl
  | occur e _ ih => exact ih.occur e
  | work limit _ hstep ih => exact ih.work limit hstep

lemma Leads.received (hl : Leads x h y h') : ∃ more, h'.received = h.received ++ more := by
  induction hl with
  | refl => exact ⟨[], (List.append_nil _).symm⟩
  | occur _ _ ih => exact ih
  | @work y z h' limit _ hstep ih =>
    obtain ⟨more, hmore⟩ := ih
    obtain ⟨new, hnew⟩ := Frame.leading_append h'.read (taken y z)
    refine ⟨more ++ new, ?_⟩
    rw [History.received, note, hnew, ← History.received, hmore, List.append_assoc]

lemma Leads.mem_issues (hl : Leads x h y h') {i : Issue} (hi : i ∈ h.issues) : i ∈ h'.issues := by
  induction hl with
  | refl => exact hi
  | occur _ _ ih => exact ih
  | work _ _ _ ih => exact List.mem_append_left _ ih

/-- After an invalid payload no earlier call is on the list of those that wait. -/
lemma Leads.not_pending (hrun : Run x h) (hl : Leads x h y h') {payload : Text}
    {before after : List Text} (hreceived : h'.received = h.received ++ (before ++ payload :: after))
    (hinvalid : Invalid payload) {i : Issue} (hi : i ∈ h.issues) :
    ∀ c ∈ y.connection.peer.pending, c.uid ≠ i.uid := by
  intro c hc huid
  have hx := orderly_of_run hrun
  have hy := hx.leads hl
  obtain ⟨j, hj, hjuid, -, hnone⟩ := hy.ledger.entries c hc
  cases hy.ledger.uid_inj hj (hl.mem_issues hi) (hjuid.trans huid)
  rw [hx.ledger.since_append hreceived hi, Peer.firstVerdict_append, hinvalid.firstVerdict_append_cons] at hnone
  simp at hnone

/-! ## Callers -/

/-- How a call ends whose future was settled by `o` before its caller was told: so, unless its caller
gives it up, or unless it fails while its frame is still being sent. -/
def EndsBy (sending : Prop) (o r : Outcome Sexp Failure) : Prop :=
  r = o ∨ r = .cancelled ∨ sending ∧ ((∃ m, r = .failure (.closed m)) ∨
    ∃ e : Failure, e.isSystem = false ∧ r = .failure e)

/-- A call that has not ended is being sent, or waits for its reply. -/
lemma sending_or_waiting (hrun : Run x h) {i : Issue} (hi : i ∈ h.issues)
    (hopen : x.kernel.outcome? i.task = none) : x.Sending i ∨ x.Waiting i := by
  rcases (staged_of_run hrun).2 i hi with hs | hw | ⟨⟨o, ho⟩, -⟩ | hup
  · exact .inl hs
  · exact .inr hw
  · simp [hopen] at ho
  · obtain ⟨o, ho, -⟩ := hup.exists_outcome
    simp [hopen] at ho

/-- A call whose frame is being sent was being sent since it was issued. -/
lemma Leads.sending (hrun : Run x h) (hl : Leads x h y h') {i : Issue} (hi : i ∈ h.issues)
    (hopen : x.kernel.outcome? i.task = none) (hs : y.Sending i) : x.Sending i := by
  have hx := orderly_of_run hrun
  refine (sending_or_waiting hrun hi hopen).resolve_right fun hw => ?_
  obtain ⟨a, ha, hbody⟩ := hs
  rcases (hw.leads hx hi hl).2 with ⟨b, hb, hbody'⟩ | ⟨⟨o, ho⟩, -⟩
  · cases ha.symm.trans hb
    cases hbody.symm.trans hbody'
  · simp [(hx.leads hl).waking.unsettled ha] at ho

/-- The caller of a call whose future was settled is told so. -/
lemma Leads.told (hrun : Run x h) (hl : Leads x h y h') {i : Issue} (hi : i ∈ h.issues)
    (hopen : x.kernel.outcome? i.task = none) {o : Outcome Sexp Failure}
    (ho : x.kernel.outcome? i.future = some o) {r : Outcome Sexp Failure}
    (hr : y.kernel.outcome? i.task = some r) : EndsBy (x.Sending i) o r := by
  have hx := orderly_of_run hrun
  induction hl generalizing r with
  | refl => simp [hopen] at hr
  | @occur y h' e hl ih =>
    cases hnone : y.kernel.outcome? i.task with
    | some r' =>
      obtain ⟨-, hlater⟩ := (hx.leads hl).occur e
      cases (hlater.outcome hnone).symm.trans hr
      exact ih hnone
    | none =>
      -- an event ends no call
      obtain ⟨b, hb⟩ : ∃ b, y.kernel.activity? i.task = some b := by
        rcases sending_or_waiting (Leads.trans hrun hl) (hl.mem_issues hi) hnone with ⟨b, hb, -⟩ | ⟨b, hb, -⟩
        · exact ⟨b, hb⟩
        · exact ⟨b, hb⟩
      obtain ⟨c, hc, -⟩ := stays_of_occur (hx.leads hl) e hb
      simp [((hx.leads hl).occur e).1.waking.unsettled hc] at hr
  | @work y z h' limit hl hstep ih =>
    have hy := hx.leads hl
    cases hnone : y.kernel.outcome? i.task with
    | some r' =>
      obtain ⟨-, _, hlater⟩ := hy.work (work_of_step? hy hstep)
      cases (hlater.outcome hnone).symm.trans hr
      exact ih hnone
    | none =>
      have hfuture : y.kernel.outcome? i.future = some o := (hx.persists hl).1 ho
      rcases sending_or_waiting (Leads.trans hrun hl) (hl.mem_issues hi) hnone with hs | ⟨b, hb, hbody⟩
      · obtain ⟨b, hb, hbody⟩ := hs
        rcases hy.call_ends hb hbody hstep hr with hr | hr | hr
        · exact .inl (Option.some.inj (hr.symm.trans hfuture))
        · exact .inr (.inl hr)
        · exact .inr (.inr ⟨hl.sending hrun hi hopen ⟨b, hb, hbody⟩, hr⟩)
      · obtain ⟨o', ho', rfl⟩ := hy.call_ends hb hbody hstep hr
        cases hfuture.symm.trans ho'
        split
        · exact .inr (.inl rfl)
        · exact .inl rfl

/-- When no job is left, a call whose future is settled has ended, or its frame is being sent. -/
lemma sending_or_ended (hrun : Run x h) (hready : x.kernel.ready = []) {i : Issue}
    (hi : i ∈ h.issues) {o : Outcome Sexp Failure} (ho : x.kernel.outcome? i.future = some o) :
    x.Sending i ∨ ∃ r, x.kernel.outcome? i.task = some r := by
  cases hnone : x.kernel.outcome? i.task with
  | some r => exact .inr ⟨r, rfl⟩
  | none =>
    refine .inl ((sending_or_waiting hrun hi hnone).resolve_right ?_)
    rintro ⟨a, ha, hb⟩
    exact (orderly_of_run hrun).ready_of_settled ha hb ho hready

/-! ## The job that treats payloads -/

/-- A job in which payloads are received is one of the listener. -/
lemma Orderly.listener_of_received (hx : Orderly x h) {limit : Float} (hstep : x.step? limit = some z)
    (hnew : (note h x limit z).received ≠ h.received) :
    ∃ l a bytes done failure d es pause made progress, x.kernel.activity? l = some a ∧
      a.body = some .listen ∧
      Connection.Listened x.connection d x.kernel.isDone bytes done failure es pause ∧
      Task.Kernel.Turn x.kernel z.kernel l made (Peer.outcomesOf es) progress ∧
      z.connection.peer = d.peer ∧ note h x limit z = h.add bytes := by
  have hunread : ∀ {g : History}, note h x limit z = g → g.received = h.received → False := by
    rintro g rfl hg
    exact hnew hg
  cases work_of_step? hx hstep with
  | cancelled ha hb hidle hasked turn hissue hconnection =>
    exact (hunread (note_eq h (by rw [hconnection])) rfl).elim
  | call ha hb begun turn hissue hconnection =>
    exact (hunread (note_eq h (by rw [hconnection, begun.incoming])) rfl).elim
  | answered ha hb ho turn hissue hconnection =>
    exact (hunread (note_eq h (by rw [hconnection])) rfl).elim
  | drained ha hb told went turn hissue hconnection =>
    exact (hunread (note_eq h (by rw [hconnection, went.incoming])) rfl).elim
  | late ha hb told ho turn hissue hconnection =>
    exact (hunread (note_eq h (by rw [hconnection])) rfl).elim
  | @closes l a bytes done failure d es cause closed ha hb listened told why turn hissue hconnection =>
    have hread : x.connection.incoming.buffer = bytes ++ z.connection.incoming.buffer := by
      rw [hconnection]
      exact listened.read
    exact ⟨_, _, _, _, _, _, _, _, _, _, ha, hb, listened, turn, by rw [hconnection],
      note_of_read h hissue hread⟩
  | @listens l a bytes done failure d es closed ha hb listened told turn hissue hconnection =>
    have hread : x.connection.incoming.buffer = bytes ++ z.connection.incoming.buffer := by
      rw [hconnection]
      exact listened.read
    exact ⟨_, _, _, _, _, _, _, _, _, _, ha, hb, listened, turn, by rw [hconnection],
      note_of_read h hissue hread⟩

/-- It ends no call. -/
lemma Orderly.not_ended_of_received (hx : Orderly x h) {limit : Float}
    (hstep : x.step? limit = some z) (hnew : (note h x limit z).received ≠ h.received) {i : Issue}
    (hi : i ∈ h.issues) (hnone : x.kernel.outcome? i.task = none) :
    z.kernel.outcome? i.task = none := by
  obtain ⟨l, a, _, _, _, _, _, _, _, _, ha, hb, -, turn, -⟩ := hx.listener_of_received hstep hnew
  cases hz : z.kernel.outcome? i.task with
  | none => rfl
  | some r =>
    obtain ⟨b, hb'⟩ := hx.callers _ (hx.makers i hi) hnone
    cases eq_of_ended turn hb' hz
    exact absurd (hx.placed ha hb).1 (not_mem_callers hx (hx.makers i hi))

/-- If it leaves the peer open, then it settles the calls that wait by the first verdict. -/
lemma Orderly.treated (hx : Orderly x h) {limit : Float} (hstep : x.step? limit = some z)
    {new : List Text} (hnew : (note h x limit z).received = h.received ++ new) (hsome : new ≠ [])
    (hopen : z.connection.peer.closed = false) :
    z.connection.peer.pending =
        x.connection.peer.pending.filter (fun c => (firstVerdict c.uid new).isNone) ∧
      ∀ c ∈ x.connection.peer.pending, x.kernel.outcome? c.future = none →
        z.kernel.outcome? c.future = (firstVerdict c.uid new).map Outcome.ofExcept := by
  have hgrows : (note h x limit z).received ≠ h.received := by
    rw [hnew]
    exact fun heq => hsome (List.append_right_eq_self.1 heq)
  obtain ⟨l, a, bytes, done, failure, d, es, pause, made, progress, ha, hb, listened, turn, hpeer,
    hnote⟩ := hx.listener_of_received hstep hgrows
  cases pause with
  | ended cause =>
    rw [hpeer, (listened.ended cause rfl).1] at hopen
    cases hopen
  | blocked =>
    obtain ⟨rfl, -, -, hdrain⟩ := listened.blocked rfl
    have hdone : done = new := by
      rw [hnote, received_add hx ha hb, Frame.leading_of_drain hdrain,
        List.append_cancel_left_eq] at hnew
      exact hnew
    subst hdone
    have hhandled := listened.handled
    rw [Connection.verdictOn_none] at hhandled
    exact ⟨hpeer ▸ hhandled.pending, fun c hc hnone =>
      hx.settled_of_handled ha turn hx.ledger.distinct hhandled hc hc hnone⟩

/-- What has come of `x`, with history `h`, when the listener has treated in one job the payloads
`before`, then one that is no message, and then perhaps others: it is `z`, with history `h'`. -/
structure Rejected (x : Exchange) (h : History) (before : List Text) (z : Exchange) (h' : History) :
    Prop where
  pending : z.connection.peer.pending = []
  /-- A call that waited and that nobody had abandoned keeps the verdict of a payload before, and
  fails otherwise. -/
  settled : ∀ c ∈ x.connection.peer.pending, x.kernel.outcome? c.future = none →
    z.kernel.outcome? c.future =
      some (.ofExcept ((firstVerdict c.uid before).getD (.error rejection)))
  /-- What had an outcome keeps it, and so does what has one now. -/
  kept : ∀ u o, x.kernel.outcome? u = some o → z.kernel.outcome? u = some o
  stays : ∀ y g, Leads z h' y g → ∀ u o, z.kernel.outcome? u = some o → y.kernel.outcome? u = some o
  /-- The callers of the calls that are settled now are told so. -/
  told : ∀ i ∈ h.issues, x.kernel.outcome? i.task = none → ∀ o,
    z.kernel.outcome? i.future = some o → ∀ y g, Leads z h' y g →
    (∀ r, y.kernel.outcome? i.task = some r → EndsBy (z.Sending i) o r) ∧
      (y.kernel.ready = [] → y.Sending i ∨ ∃ r, y.kernel.outcome? i.task = some r)
  /-- Replies to calls that were issued before are dropped from now on. -/
  dropped : ∀ i ∈ h.issues, ∀ y g, Leads z h' y g → ∀ payload kind uid value,
    Peer.message payload = .reply kind uid value → Peer.uid? uid = some i.uid →
    ∀ isDone now fault, ∃ line,
      y.connection.peer.dispatch isDone now fault payload = (y.connection.peer, [.log line], .proceed)
  /-- Calls that wait later were issued later, and are settled by their own replies. -/
  answered : ∀ y g, Leads z h' y g → ∀ c ∈ y.connection.peer.pending,
    (∀ i ∈ h.issues, c.uid ≠ i.uid) ∧ (y.Sound → y.kernel.outcome? c.future = none →
    ∀ kind, IsReplyKind kind → ∀ value : Sexp, value.Plain →
    ∀ frame, Peer.frameOf (replyMessage kind c.uid value) = .ok frame →
    ∀ before after : List Whole,
      (∀ w ∈ before ++ after, ∃ n : Int, n ≠ c.uid ∧ RepliesTo n w.payload) →
    ∀ bytes missing, y.connection.peer.buffer ++
        (y.connection.incoming.buffer ++ (bytes ++ missing)) =
      bytesOf before ++ (frame ++ bytesOf after) →
    ∀ w g', Delivers y g bytes w g' →
      Replied y c (replyOutcome kind value) (before ++ after) missing w g')

lemma rejected_of_settled (hrun : Run x h) {limit : Float} (hstep : x.step? limit = some z)
    {payload : Text} {before after : List Text}
    (hreceived : (note h x limit z).received = h.received ++ (before ++ payload :: after))
    (hinvalid : Invalid payload) (hpending : z.connection.peer.pending = [])
    (hsettled : ∀ c ∈ x.connection.peer.pending, x.kernel.outcome? c.future = none →
      z.kernel.outcome? c.future =
        some (.ofExcept ((firstVerdict c.uid before).getD (.error rejection)))) :
    Rejected x h before z (note h x limit z) := by
  have hx := orderly_of_run hrun
  have hrunz : Run z (note h x limit z) := hrun.work limit hstep
  have hz := orderly_of_run hrunz
  have hgrows : (note h x limit z).received ≠ h.received := by
    rw [hreceived]
    exact fun heq => by simpa using List.append_right_eq_self.1 heq
  have hleads : Leads x h z (note h x limit z) := .work limit .refl hstep
  have hgone : ∀ i ∈ h.issues, ∀ y g, Leads z (note h x limit z) y g →
      ∀ c ∈ y.connection.peer.pending, c.uid ≠ i.uid := by
    intro i hi y g hl
    obtain ⟨more, hmore⟩ := hl.received
    have hall : g.received = h.received ++ (before ++ payload :: (after ++ more)) := by
      rw [hmore, hreceived]
      simp
    exact Leads.not_pending hrun (hleads.trans hl) hall hinvalid hi
  exact
    { pending := hpending
      settled := hsettled
      kept := fun u o => (hx.persists hleads).1
      stays := fun y g hl u o => (hz.persists hl).1
      told := fun i hi hnone o ho y g hl =>
        ⟨fun r hr => Leads.told hrunz hl (hleads.mem_issues hi)
            (hx.not_ended_of_received hstep hgrows hi hnone) ho hr,
          fun hready => sending_or_ended (Leads.trans hrunz hl) hready
            (hl.mem_issues (hleads.mem_issues hi)) ((hz.persists hl).1 ho)⟩
      dropped := fun i hi y g hl payload kind uid value hreply huid isDone now fault =>
        Peer.dispatch_unknown hreply
          (fun c hc hcuid => hgone i hi y g hl c hc (Option.some.inj (hcuid.symm.trans huid)))
          isDone now fault
      answered := fun y g hl c hc => ⟨fun i hi => hgone i hi y g hl c hc,
        fun hs hnone kind hkind value hvalue frame hframe before after haround bytes missing hbytes w
            g' hd =>
          replied_of_delivers (Leads.trans hrunz hl) hs hc hnone hkind hvalue hframe haround hbytes hd⟩ }

/-- If there is a verdict on every call that waits, then the end of the connection adds none. -/
lemma handled_endListening {c d : Connection NamedCallback} {isDone : Task.Id → Bool}
    {es : List (Peer.Effect NamedCallback)} {verdict : Nat → Except Failure Sexp}
    (hhandled : Peer.Handled c.peer d.peer isDone (fun uid => some (verdict uid)) es)
    (hdistinct : c.peer.Distinct) (ends : Peer.Verdict) :
    ∃ d' es' why, Connection.endListening isDone (d, es, Connection.pauseAfter ends) =
        (d', es', why) ∧ d'.incoming = d.incoming ∧ (ends = .proceed → d'.peer = d.peer) ∧
      Peer.Handled c.peer d'.peer isDone (fun uid => some (verdict uid)) es' := by
  cases ends with
  | proceed => exact ⟨d, es, .blocked, rfl, rfl, fun _ => rfl, hhandled⟩
  | stop cause =>
    have hnone : d.peer.pending = [] := by
      rw [hhandled.pending]
      simp
    have hclose := Peer.handled_close (hhandled.distinct hdistinct) (fun _ => hnone) isDone cause
    exact ⟨_, _, _, rfl, rfl, fun h => (by cases h), hhandled.trans hclose hdistinct⟩

/-- Pausing reads nothing. -/
lemma incoming_pause (x : Exchange) (l : Task.Id) (d : Connection NamedCallback)
    (es : List (Peer.Effect NamedCallback)) (why : Connection.Pause) :
    (x.pause l (d, es, why)).connection.incoming.buffer = d.incoming.buffer := by
  obtain ⟨⟨closes, hconnection⟩, -⟩ := applyAll_eq x d es
  cases why <;> simp only [pause, hconnection, Task.Stream.await]

/-- A chunk arrives when no job is left, and completes payloads one of which is no message. -/
lemma rejected_of_chunk (hrun : Run x h) (hq : x.Quiet) {chunk rest : Bytes} (hchunk : chunk ≠ [])
    (hshort : chunk.length ≤ Connection.chunkSize) {before after : List Whole} {w : Whole}
    (hbytes : x.connection.peer.buffer ++ chunk = bytesOf (before ++ w :: after) ++ rest)
    (hrest : Frame.front rest = .incomplete) (hbefore : ∀ v ∈ before, ¬Peer.Stops v.payload)
    (hinvalid : Invalid w.payload) (limit : Float) :
    ∃ z, (x.data chunk).step? limit = some z ∧
      Rejected (x.data chunk) h (before.map Whole.payload) z (note h (x.data chunk) limit z) ∧
      ((∀ v ∈ after, ¬Peer.Stops v.payload) → z.connection.peer.closed = false) := by
  have hx := orderly_of_run hrun
  have hdrain : Frame.drain (x.connection.peer.buffer ++ chunk) =
      ⟨.ok (before.map Whole.payload ++ w.payload :: after.map Whole.payload), rest⟩ :=
    Frame.drain_eq_ok_iff.2 ⟨_, hbytes, by simp, hrest⟩
  obtain ⟨l, a, k, d, ha, hrunning, hpeer, hbuffer, hnothing, -, hstep⟩ :=
    hq.treats hx hchunk hshort hdrain limit
  have hy : Orderly (x.data chunk) h := (hx.data chunk).1
  obtain ⟨q, es, verdict, hall, hsame, hproceeds, hhandled⟩ := hinvalid.rejects
    (p := { x.connection.peer with buffer := rest }) hx.ledger.distinct
    (List.forall_mem_map.2 hbefore) (after.map Whole.payload) (x.data chunk).kernel.isDone k.now
    (x.connection.refusalFault.or x.connection.writeFault)
  have hstep := hstep hall
  obtain ⟨d', es', why, hend, hincoming, hgoes, hhandled'⟩ := handled_endListening
    (c := (x.data chunk).connection) (d := { d with peer := q }) (hpeer ▸ hhandled.of_buffer)
    hy.ledger.distinct verdict
  rw [hend] at hstep
  obtain ⟨hzpeer, -, -, hsettled⟩ := pause_handled hy ha hrunning why hhandled'
  have hzbuffer := incoming_pause { x.data chunk with kernel := k } l d' es' why
  generalize pause { x.data chunk with kernel := k } l (d', es', why) = z
    at hstep hzpeer hsettled hzbuffer
  have hreceived : (note h (x.data chunk) limit z).received =
      h.received ++ (before.map Whole.payload ++ w.payload :: after.map Whole.payload) := by
    have htaken : (x.data chunk).connection.incoming.buffer =
        chunk ++ z.connection.incoming.buffer := by
      rw [hzbuffer, hincoming, hnothing, hbuffer, List.append_nil]
    have hread : (note h (x.data chunk) limit z).read = h.read ++ chunk := by
      rw [note, taken_of_append htaken]
    rw [History.received, hread, Frame.leading_append_of_drain (hx.drained hq.opened),
      Frame.leading_of_drain hdrain]
  refine ⟨z, hstep, ?_, fun hafter => ?_⟩
  · refine rejected_of_settled (hrun.occur (.data chunk)) hstep hreceived hinvalid ?_ ?_
    · rw [hzpeer, hhandled'.pending]
      simp
    · exact hsettled
  · rw [hzpeer, hgoes (hproceeds (List.forall_mem_map.2 hafter))]
    exact hsame.trans hq.opened

/-! ## What is promised -/

/-- What is promised about payloads that are no messages. -/
structure Rejecting (x : Exchange) (h : History) : Prop where
  /-- On an open peer, after any payloads that have left it open, such a payload fails every call that
  waits and that nobody has abandoned, empties the list and leaves the peer open.  Calls that the
  payloads before have settled are not among those, and no payload after it settles another. -/
  dispatches : x.connection.peer.closed = false → ∀ isDone now fault before p es,
    x.connection.peer.dispatchAll isDone now fault before = (p, es, .proceed) →
    ∀ payload, Invalid payload →
    p.dispatch isDone now fault payload =
        ({ p with pending := [] }, p.rejectionOf isDone payload, .proceed) ∧
      p.closed = false ∧ (∀ c ∈ p.pending, ∀ r, (c.future, r) ∉ settlements es) ∧
      ∀ after, ∃ q fs verdict,
        x.connection.peer.dispatchAll isDone now fault (before ++ payload :: after) =
          (q, es ++ (p.rejectionOf isDone payload ++ fs), verdict) ∧
        q.pending = [] ∧ settlements fs = []
  /-- Whichever job treats such a payload and leaves the peer open, however many payloads it treats
  before and after. -/
  job : ∀ limit z, x.step? limit = some z → z.connection.peer.closed = false →
    ∀ before payload after, Invalid payload →
    (note h x limit z).received = h.received ++ (before ++ payload :: after) →
    Rejected x h before z (note h x limit z)
  /-- There is such a job: when no job is left and a chunk arrives that completes such a payload,
  behind none that can end the connection, the next one treats it.  It leaves the peer open unless
  a payload behind it ends the connection. -/
  chunk : x.Quiet → ∀ chunk, chunk ≠ [] → chunk.length ≤ Connection.chunkSize →
    ∀ before w after rest,
    x.connection.peer.buffer ++ chunk = bytesOf (before ++ w :: after) ++ rest →
    Frame.front rest = .incomplete → (∀ v ∈ before, ¬Peer.Stops v.payload) → Invalid w.payload →
    ∀ limit, ∃ z, (x.data chunk).step? limit = some z ∧
      Rejected (x.data chunk) h (before.map Whole.payload) z (note h (x.data chunk) limit z) ∧
      ((∀ v ∈ after, ¬Peer.Stops v.payload) → z.connection.peer.closed = false)

/-- **A payload that is no message fails the calls that wait, and no others.**  In every state that a
run has reached, in any order of calls, cancellations, chunks, faults and jobs. -/
theorem rejecting_of_run (hrun : Run x h) : Rejecting x h where
  dispatches hopen isDone now fault before p es hall payload hinvalid := by
    have hdistinct := (orderly_of_run hrun).ledger.distinct
    obtain ⟨_, _, -, -, -, hsame⟩ :=
      Peer.handled_dispatchAll hdistinct isDone now fault before
    rw [hall] at hsame
    refine ⟨Peer.dispatch_invalid hinvalid p isDone now fault, ?_,
      fun c hc r => Peer.not_settled_of_pending hdistinct hall hc r, fun after => ?_⟩
    · exact (congrArg (·.closed) hsame).trans hopen
    · obtain ⟨hnobody, hsettles⟩ :=
        Peer.handled_of_nobody (p := { p with pending := [] }) rfl isDone now fault after
      have hwhole := Peer.dispatchAll_append hall (payload :: after)
      rw [Peer.dispatchAll_invalid hinvalid] at hwhole
      exact ⟨_, _, _, hwhole, hnobody.pending, hsettles⟩
  job limit z hstep hopen before payload after hinvalid hreceived := by
    obtain ⟨hpending, hsettled⟩ :=
      (orderly_of_run hrun).treated hstep hreceived (by simp) hopen
    simp only [hinvalid.firstVerdict_append_cons] at hpending hsettled
    exact rejected_of_settled hrun hstep hreceived hinvalid (by simpa using hpending) hsettled
  chunk hq chunk hchunk hshort before w after rest hbytes hrest hbefore hinvalid limit :=
    rejected_of_chunk hrun hq hchunk hshort hbytes hrest hbefore hinvalid limit

/-- A number where a message should be. -/
def strayNumber : Whole := ⟨Frame.hexBytes 6 1, [0x37], by decide, by decide⟩

/-- Two calls wait, and the reply to the first arrives together with a payload that is no message:
the first call has its reply and the second fails. -/
theorem rejecting_twoCalls :
    ∃ h z, Run twoCalls h ∧ Rejecting twoCalls h ∧
      (twoCalls.data (firstReply.bytes ++ strayNumber.bytes)).step? 0 = some z ∧
      z.connection.peer.closed = false ∧ z.connection.peer.pending = [] ∧
      ∀ c ∈ twoCalls.connection.peer.pending, z.kernel.outcome? c.future =
        some (if c.uid = 1 then .value (.int 7) else .failure rejection) := by
  have hstart : Run (start {}) {} := .refl
  obtain ⟨_, hlistening⟩ := hstart.settle
  obtain ⟨h, hrun⟩ := ((hlistening.call "a" "m" []).call "b" "m" []).settle
  rw [← twoCalls] at hrun
  have hquiet : twoCalls.Quiet := ⟨List.isEmpty_iff.1 (by decide +kernel), by decide +kernel⟩
  have hempty : twoCalls.connection.peer.buffer = [] := by decide +kernel
  have hreply : Peer.message firstReply.payload = .reply (Text.ofString "return") (.int 1) (.int 7) := by
    rfl
  have hinvalid : Invalid strayNumber.payload := Peer.message_eq_invalid_iff.1 rfl
  have hgoes : ∀ v ∈ [firstReply], ¬Peer.Stops v.payload := by
    simp [Peer.Stops, hreply]
  have hrejecting := rejecting_of_run hrun
  obtain ⟨z, hz, hrejected, hopen⟩ := hrejecting.chunk hquiet (firstReply.bytes ++ strayNumber.bytes)
    (by decide) (by decide) [firstReply] strayNumber [] [] (by simp [hempty, bytesOf]) (by decide)
    hgoes hinvalid 0
  refine ⟨h, z, hrun, hrejecting, hz, hopen (by simp), hrejected.pending, fun c hc => ?_⟩
  have hnone : twoCalls.connection.peer.pending.all (fun c =>
      ((twoCalls.data (firstReply.bytes ++ strayNumber.bytes)).kernel.outcome? c.future).isNone) =
        true := by decide +kernel
  have hwaits := Option.isNone_iff_eq_none.1 (List.all_eq_true.1 hnone c hc)
  have hpeer : ∀ (x : Exchange) bytes, (x.data bytes).connection.peer = x.connection.peer :=
    fun _ _ => rfl
  rw [hrejected.settled c (by rwa [hpeer]) hwaits]
  -- the reply is a verdict on the call with its number only
  have hverdict : firstVerdict c.uid [firstReply.payload] =
      if c.uid = 1 then some (.ok (.int 7)) else none := by
    have huid : Peer.uid? (.int 1) = some 1 := rfl
    have hnil : firstVerdict c.uid [] = none := rfl
    rw [Peer.firstVerdict_cons, hnil, Option.or_none, Peer.verdictFor, hreply,
      Peer.Message.verdictFor, huid]
    simp only [Option.some.injEq, eq_comm]
    rfl
  rw [List.map_singleton, hverdict]
  split <;> rfl

end Exchange

end SuggestBridge
