import SuggestBridge.Proofs.Peer.Attention

/-!
# What is left of calls that have ended

A call that has taken a number is on one of four stages: its frame is being sent, or it waits for
its reply, or it is gone, that is it has ended and is not on the list of those that wait, or it was
given up.  Once a call waits for its reply it is gone as soon as it ends, however it ends.  A call
that is given up before, while its frame is being sent, is not taken off the list, and its entry
stays until its reply comes or the connection ends (`tracked_of_run`).
-/

namespace SuggestBridge.Exchange

open Peer (History Issue)
open Connection (Begun Went)
open SuggestBridge.Task (Outcome)
open SuggestBridge.Task.Kernel (Turn Settled)

variable {x y : Exchange} {h h' : History} {i : Issue}

/-! ## The stages of a call -/

/-- The frame of a call is being sent: it waits for the write buffer to drain. -/
def Sending (x : Exchange) (i : Issue) : Prop :=
  ∃ a, x.kernel.activity? i.task = some a ∧ a.body = some (.calling (.draining i.uid i.future))

/-- A call waits for its reply. -/
def Waiting (x : Exchange) (i : Issue) : Prop :=
  ∃ a, x.kernel.activity? i.task = some a ∧ a.body = some (.calling (.awaiting i.uid i.future))

/-- A call has ended, and is not on the list of those that wait. -/
def Gone (x : Exchange) (i : Issue) : Prop :=
  (∃ o, x.kernel.outcome? i.task = some o) ∧ ∀ c ∈ x.connection.peer.pending, c.uid ≠ i.uid

/-- Neither a reply nor the end of the connection, but a cancellation or another fault. -/
def givesUp : Outcome Sexp Failure → Bool
  | .cancelled => true
  | .failure (.fault f) => !f.isSystem
  | _ => false

/-- A call has ended for neither a reply nor the end of the connection. -/
def GivenUp (x : Exchange) (i : Issue) : Prop :=
  (x.kernel.outcome? i.task).any givesUp = true

/-- The stages of a call. -/
def Staged (x : Exchange) (i : Issue) : Prop :=
  x.Sending i ∨ x.Waiting i ∨ x.Gone i ∨ x.GivenUp i

lemma GivenUp.of_outcome {o : Outcome Sexp Failure} (ho : x.kernel.outcome? i.task = some o)
    (hgives : givesUp o = true) : x.GivenUp i := by
  rw [GivenUp, ho]
  exact hgives

lemma GivenUp.exists_outcome (hi : x.GivenUp i) :
    ∃ o, x.kernel.outcome? i.task = some o ∧ givesUp o = true :=
  (Option.any_eq_true _ _).1 hi

/-- An ended call of a closed peer is gone. -/
lemma Orderly.gone_of_closed (hx : Orderly x h) {o : Outcome Sexp Failure}
    (ho : x.kernel.outcome? i.task = some o) (hclosed : x.connection.peer.closed = true) :
    x.Gone i := by
  refine ⟨⟨o, ho⟩, fun c hc => ?_⟩
  rw [hx.ledger.closed hclosed] at hc
  exact absurd hc List.not_mem_nil

/-! ## Waiting for the write buffer -/

/-- How the wait for the write buffer can end. -/
def Drained (o : Outcome Sexp Failure) : Prop :=
  (∃ v, o = .value v) ∨ o = .cancelled ∨ ∃ f, o = .failure (.fault f)

/-- While the peer is open, whoever waits for the write buffer is told that it has drained, or is
cancelled, or finds a fault. -/
def Drains (x : Exchange) : Prop :=
  x.connection.peer.closed = false → ∀ t a uid future d o, x.kernel.activity? t = some a →
    a.body = some (.calling (.draining uid future)) → a.waitingFor = some d →
    x.kernel.outcome? d = some o → Drained o

lemma Drains.work (hdrains : x.Drains) (hx : Orderly x h) {limit : Float}
    (hwork : Work x limit y) : y.Drains := by
  intro hopen t a uid future d o ha hb hd ho
  obtain ⟨u, b, made, os, progress, m⟩ := hx.moves hwork
  obtain ⟨-, _, hlater⟩ := hx.work hwork
  obtain ⟨-, hxa⟩ := m.other_of_settled ha hb hd ho nofun
  obtain ⟨⟨d', hd', hspare, -⟩, -⟩ := hx.placed hxa hb
  cases hd'.symm.trans hd
  have hopen' : x.connection.peer.closed = false := by
    by_contra hclosed
    simp [hlater.closed (by simpa using hclosed)] at hopen
  exact hdrains hopen' t a uid future d o hxa hb hd (m.outcome_spare hspare ▸ ho)

/-- An event that settles the wait for the write buffer in one of these ways. -/
lemma Drains.of_later (hdrains : x.Drains) (hx : Orderly x h)
    (hevent : Orderly y h ∧ Later x h y h none)
    (hsettles : ∀ d ∈ x.connection.draining, x.kernel.outcome? d = none → ∀ o,
      y.kernel.outcome? d = some o → Drained o) : y.Drains := by
  intro hopen t a uid future d o ha hb hd ho
  obtain ⟨hy, hlater⟩ := hevent
  have hopen' : x.connection.peer.closed = false := by
    by_contra hclosed
    simp [hlater.closed (by simpa using hclosed)] at hopen
  obtain ⟨-, ⟨i, hi, rfl, -⟩, -⟩ := hy.placed ha hb
  obtain ⟨b, hxb, hbody, hwaiting, -⟩ := hlater.stayed nofun (hx.callers_lt (hx.makers i hi)) ha
  rw [hb] at hbody
  rw [hd] at hwaiting
  cases hnone : x.kernel.outcome? d with
  | some o' =>
    cases (hlater.outcome hnone).symm.trans ho
    exact hdrains hopen' _ b uid future d _ hxb hbody hwaiting hnone
  | none =>
    obtain ⟨⟨d', hd', -, hdraining⟩, -⟩ := hx.placed hxb hbody
    cases hd'.symm.trans hwaiting
    exact hsettles d (hdraining hnone) hnone o ho

/-- An event that settles nothing. -/
lemma Drains.of_outcome (hdrains : x.Drains) (hx : Orderly x h)
    (hevent : Orderly y h ∧ Later x h y h none)
    (houtcome : ∀ u, y.kernel.outcome? u = x.kernel.outcome? u) : y.Drains :=
  hdrains.of_later hx hevent fun d _ hnone o ho => by
    rw [houtcome, hnone] at ho
    cases ho

/-- The stream changes: whoever waits for the write buffer does not wait for it. -/
lemma Drains.notify (hdrains : x.Drains) (hx : Orderly x h) (s : Task.Stream Failure)
    (hs : s.waiter = x.connection.incoming.waiter) (o : Outcome Sexp Failure) :
    (x.onIncoming fun k _ => s.notify k o).Drains := by
  refine hdrains.of_later hx (hx.notify s hs o) fun d hd hnone o' ho' => ?_
  rw [onIncoming, Task.Stream.notify, hs] at ho'
  cases hw : x.connection.incoming.waiter with
  | none =>
    rw [hw] at ho'
    simp [hnone] at ho'
  | some w =>
    rw [hw] at ho'
    have hne : d ≠ w := fun heq => (hx.waiter w hw).2 (heq ▸ hd)
    simp [Task.Kernel.outcome?_settle_of_ne hne, hnone] at ho'

lemma Drains.data (hdrains : x.Drains) (hx : Orderly x h) (bytes : Bytes) :
    (x.data bytes).Drains := by
  by_cases hnothing : (bytes.isEmpty || x.connection.incoming.ended) = true
  · have hsame : x.data bytes = x := by
      rw [Exchange.data, onIncoming, Task.Stream.feed, if_pos hnothing]
    rwa [hsame]
  · have hfeed : x.data bytes = x.onIncoming fun k _ =>
        Task.Stream.notify k { x.connection.incoming with
          buffer := x.connection.incoming.buffer ++ bytes } (.value default) := by
      rw [Exchange.data, onIncoming, Task.Stream.feed, if_neg hnothing]
      rfl
    rw [hfeed]
    exact hdrains.notify hx { x.connection.incoming with
      buffer := x.connection.incoming.buffer ++ bytes } rfl _

lemma Drains.cancel (hdrains : x.Drains) (hx : Orderly x h) (name : Text) :
    (x.cancel name).Drains := by
  have hevent := hx.cancel name
  rw [Exchange.cancel] at hevent ⊢
  split at hevent
  · next t ht =>
    have hcaller : t ∈ x.callers := by
      obtain ⟨c, hc, rfl⟩ := Option.map_eq_some_iff.1 ht
      exact List.mem_map_of_mem (List.mem_reverse.1 (List.mem_of_find?_eq_some hc))
    obtain ⟨k, os, hnoted, -, hsettled, hos, -⟩ := hx.cancelled t (hx.callers t hcaller)
    refine hdrains.of_later hx hevent fun d _ hnone o ho => .inr (.inl ?_)
    have hor := (hsettled.outcome d).symm.trans ho
    rw [hnoted.outcome, hnone, Option.none_or] at hor
    exact hos _ (Task.Kernel.mem_of_lookup hor)
  · exact hdrains

lemma Drains.relieve (hdrains : x.Drains) (hx : Orderly x h) (fault : Option Fault) :
    (x.relieve fault).Drains := by
  refine hdrains.of_later hx (hx.relieve fault) fun d hd hnone o ho => ?_
  have hplain : ∀ p ∈ x.connection.draining.map (·, drainOutcome fault),
      p.1 < x.kernel.futures.size ∧ x.kernel.activity? p.1 = none := by
    intro p hp
    obtain ⟨d, hd, rfl⟩ := List.mem_map.1 hp
    exact ⟨(hx.draining d hd).1, (hx.draining d hd).2.1⟩
  have hsettled := (Settled.nil hx.waking hx.tasksOnly).settleAll _ hplain
  rw [List.foldl_map, List.nil_append] at hsettled
  have hor := (hsettled.outcome d).symm.trans ho
  rw [hnone, Option.none_or] at hor
  obtain ⟨d', -, heq⟩ := List.mem_map.1 (Task.Kernel.mem_of_lookup hor)
  cases heq
  cases fault with
  | none => exact .inl ⟨_, rfl⟩
  | some f => exact .inr (.inr ⟨f, rfl⟩)

/-- Whatever happens from outside, the wait for the write buffer ends in one of these ways. -/
lemma Drains.occur (hdrains : x.Drains) (hx : Orderly x h) (e : Event) : (x.occur e).Drains := by
  have hevent := hx.occur e
  cases e with
  | call name method args => exact hdrains.of_outcome hx hevent fun _ => Task.Kernel.outcome?_add rfl
  | cancel name => exact hdrains.cancel hx name
  | data bytes => exact hdrains.data hx bytes
  | endOfStream => exact hdrains.notify hx { x.connection.incoming with ended := true } rfl _
  | readFault fault =>
    exact hdrains.notify hx { x.connection.incoming with failure := some (.fault fault) } rfl _
  | stop =>
    intro hopen
    have hclosed : (x.occur .stop).connection.peer.closed = true := closed_stop hx
    simp [hclosed] at hopen
  | addCallback k =>
    obtain ⟨hkernel, -⟩ := incoming_addCallback x k
    exact hdrains.of_outcome hx hevent fun u => congrArg (·.outcome? u) hkernel
  | congest => exact hdrains.of_outcome hx hevent fun _ => rfl
  | relieve fault => exact hdrains.relieve hx fault
  | faults write refusal drain close => exact hdrains.of_outcome hx hevent fun _ => rfl
  | elapse now => exact hdrains.of_outcome hx hevent fun _ => rfl

/-! ## The list of the calls that wait -/

/-- A call that goes on puts nothing on the list. -/
lemma mem_pending_of_mem_went {c d : Connection NamedCallback} {isDone : Task.Id → Bool} {uid : Nat}
    {future : Task.Id} {drained : Option Task.Id} {es : List (Peer.Effect NamedCallback)}
    {progress : Connection.CallProgress} (went : Went c isDone uid future drained d es progress)
    {p : PendingCall} (hp : p ∈ d.peer.pending) : p ∈ c.peer.pending := by
  cases went with
  | breaks handled => exact List.mem_of_mem_filter (handled.mem_pending.1 hp).1
  | _ => exact hp

/-- A job puts on the list at most the call that it begins. -/
lemma mem_pending_of_work {limit : Float} (hwork : Work x limit y) {c : PendingCall}
    (hc : c ∈ y.connection.peer.pending) :
    c ∈ x.connection.peer.pending ∨ c.uid = x.connection.peer.nextUid := by
  cases hwork with
  | cancelled ha hb hidle hasked turn hissue hconnection => exact .inl (hconnection ▸ hc)
  | call ha hb begun turn hissue hconnection =>
    rw [hconnection] at hc
    cases begun with
    | refused => exact .inl hc
    | unsendable => exact .inl hc
    | issued _ went =>
      refine (List.mem_append.1 (mem_pending_of_mem_went went hc)).imp_right fun hnew => ?_
      rw [List.mem_singleton.1 hnew]
  | answered ha hb ho turn hissue hconnection =>
    rw [hconnection] at hc
    exact .inl (List.mem_of_mem_filter hc)
  | drained ha hb told went turn hissue hconnection =>
    rw [hconnection] at hc
    exact .inl (mem_pending_of_mem_went went hc)
  | late ha hb told ho turn hissue hconnection =>
    rw [hconnection] at hc
    exact .inl (List.mem_of_mem_filter hc)
  | listens ha hb listened told turn hissue hconnection =>
    rw [hconnection] at hc
    exact .inl (listened.handled.mem_pending.1 hc).1
  | closes ha hb listened told why turn hissue hconnection =>
    rw [hconnection] at hc
    exact .inl (listened.handled.mem_pending.1 hc).1

/-- Nothing that happens from outside puts a call on the list. -/
lemma mem_pending_of_occur (hx : Orderly x h) (e : Event) {c : PendingCall}
    (hc : c ∈ (x.occur e).connection.peer.pending) : c ∈ x.connection.peer.pending := by
  cases e with
  | stop =>
    have hempty := hx.stop.1.ledger.closed (closed_stop hx)
    rw [show x.occur .stop = x.stop from rfl, hempty] at hc
    exact absurd hc List.not_mem_nil
  | cancel name =>
    rw [occur, cancel] at hc
    split at hc <;> exact hc
  | addCallback k =>
    rw [occur, addCallback] at hc
    split at hc
    · exact hc
    · next hopen =>
      rw [Peer.addCallback, if_neg hopen] at hc
      exact hc
  | _ => exact hc

/-! ## Calls that are gone -/

/-- A call that is gone does not come back. -/
lemma Gone.work (hgone : x.Gone i) (hx : Orderly x h) (hi : i ∈ h.issues) {limit : Float}
    (hwork : Work x limit y) : y.Gone i := by
  obtain ⟨⟨o, ho⟩, hentry⟩ := hgone
  obtain ⟨-, _, hlater⟩ := hx.work hwork
  refine ⟨⟨o, hlater.outcome ho⟩, fun c hc => ?_⟩
  rcases mem_pending_of_work hwork hc with hc | huid
  · exact hentry c hc
  · exact fun heq => Nat.ne_of_lt (hx.ledger.uid_lt hi) (heq ▸ huid)

lemma Gone.occur (hgone : x.Gone i) (hx : Orderly x h) (e : Event) : (x.occur e).Gone i := by
  obtain ⟨⟨o, ho⟩, hentry⟩ := hgone
  obtain ⟨-, hlater⟩ := hx.occur e
  exact ⟨⟨o, hlater.outcome ho⟩, fun c hc => hentry c (mem_pending_of_occur hx e hc)⟩

lemma GivenUp.later {t : Option Task.Id} (hi : x.GivenUp i) (l : Later x h y h' t) :
    y.GivenUp i := by
  obtain ⟨o, ho, hgives⟩ := hi.exists_outcome
  exact .of_outcome (l.outcome ho) hgives

/-! ## From stage to stage -/

section Work

variable {limit : Float} {t : Task.Id} {a : Task.Activity Routine} {made : Nat}
  {os : List (Task.Id × Outcome Sexp Failure)} {progress : Task.Progress Routine Sexp Failure}

/-- The turn of another task leaves a call on its stage. -/
lemma Sending.other (hs : x.Sending i) (turn : Turn x.kernel y.kernel t made os progress)
    (hne : i.task ≠ t) : y.Sending i := by
  obtain ⟨b, hb, hbody⟩ := hs
  exact ⟨b, (turn.other _ hne).trans hb, hbody⟩

lemma Waiting.other (hw : x.Waiting i) (turn : Turn x.kernel y.kernel t made os progress)
    (hne : i.task ≠ t) : y.Waiting i := by
  obtain ⟨b, hb, hbody⟩ := hw
  exact ⟨b, (turn.other _ hne).trans hb, hbody⟩

/-- A call that has not ended is not the task of a turn with another body. -/
lemma ne_of_body {u : Task.Id} {b : Task.Activity Routine} {r r' : Routine}
    (hb : x.kernel.activity? u = some b) (hr : b.body = some r)
    (ha : x.kernel.activity? t = some a) (hr' : a.body = some r') (hne : r ≠ r') : u ≠ t := by
  rintro rfl
  cases hb.symm.trans ha
  exact hne (Option.some.inj (hr.symm.trans hr'))

/-- Its own turn takes a call that ends off the list. -/
lemma gone_of_forget (turn : Turn x.kernel y.kernel i.task made os (.ends o))
    (hpeer : y.connection.peer = x.connection.peer.forget i.uid) : y.Gone i := by
  refine ⟨⟨o, (turn.ended o rfl).2⟩, fun c hc => ?_⟩
  rw [hpeer] at hc
  simpa using (List.mem_filter.1 hc).2

/-- A call that waits for its reply waits on, or is gone. -/
lemma Waiting.work (hw : x.Waiting i) (hx : Orderly x h)
    (hwork : Work x limit y) : y.Waiting i ∨ y.Gone i := by
  obtain ⟨b, hb, hbody⟩ := hw
  have hw : x.Waiting i := ⟨b, hb, hbody⟩
  obtain ⟨hwaiting, -⟩ := hx.placed hb hbody
  cases hwork with
  | @cancelled t a r ha hr hidle hasked turn hissue hconnection hcalls =>
    refine .inl (hw.other turn ?_)
    rintro rfl
    cases hb.symm.trans ha
    simp [hwaiting] at hidle
  | call ha hr begun turn => exact .inl (hw.other turn (ne_of_body hb hbody ha hr nofun))
  | @answered t a uid future o ha hr ho turn hissue hconnection hcalls =>
    by_cases hne : i.task = t
    · subst hne
      cases hb.symm.trans ha
      cases hbody.symm.trans hr
      exact .inr (gone_of_forget turn (by rw [hconnection]))
    · exact .inl (hw.other turn hne)
  | drained ha hr told went turn => exact .inl (hw.other turn (ne_of_body hb hbody ha hr nofun))
  | late ha hr told ho turn => exact .inl (hw.other turn (ne_of_body hb hbody ha hr nofun))
  | listens ha hr listened told turn => exact .inl (hw.other turn (ne_of_body hb hbody ha hr nofun))
  | closes ha hr listened told why turn =>
    exact .inl (hw.other turn (ne_of_body hb hbody ha hr nofun))

/-- A call whose frame is being sent goes on to wait, or ends. -/
lemma Sending.work (hs : x.Sending i) (hx : Orderly x h) (hdrains : x.Drains)
    (hwork : Work x limit y) : y.Staged i := by
  obtain ⟨b, hb, hbody⟩ := hs
  have hs : x.Sending i := ⟨b, hb, hbody⟩
  obtain ⟨⟨g, hg, -⟩, -⟩ := hx.placed hb hbody
  have hy := (hx.work hwork).1
  cases hwork with
  | @cancelled t a r ha hr hidle hasked turn hissue hconnection hcalls =>
    refine .inl (hs.other turn ?_)
    rintro rfl
    cases hb.symm.trans ha
    simp [hg] at hidle
  | call ha hr begun turn => exact .inl (hs.other turn (ne_of_body hb hbody ha hr (by rintro ⟨⟩)))
  | answered ha hr ho turn => exact .inl (hs.other turn (ne_of_body hb hbody ha hr (by rintro ⟨⟩)))
  | @drained t a uid future d es progress closes ha hr told went turn hissue hconnection hcalls hfault
      hleft =>
    by_cases hne : i.task = t
    · subst hne
      cases hb.symm.trans ha
      cases hbody.symm.trans hr
      have hpeer : y.connection.peer = d.peer := by rw [hconnection]
      cases went with
      | awaits hes =>
        obtain ⟨-, c, hc, hcbody, -⟩ := turn.waits _ _ rfl
        exact .inr (.inl ⟨c, hc, hcbody⟩)
      | drains hes hd => cases hd
      | @leaves _ o hes ho =>
        obtain ⟨-, hended⟩ := turn.ended _ rfl
        rcases hleft o rfl with hclosed | rfl | ⟨g', hg', ho'⟩
        · exact .inr (.inr (.inl (hy.gone_of_closed hended (hpeer ▸ hclosed))))
        · exact .inr (.inr (.inr (.of_outcome hended rfl)))
        · cases hopen : x.connection.peer.closed with
          | true => exact .inr (.inr (.inl (hy.gone_of_closed hended (hpeer ▸ hopen))))
          | false =>
            -- what it was told is no value, or it would wait for its reply
            refine .inr (.inr (.inr (.of_outcome hended ?_)))
            rcases ho with rfl | ⟨e, he, rfl⟩
            · rfl
            · rcases hdrains hopen _ b _ _ g' _ hb hbody hg' ho' with ⟨v, heq⟩ | heq | ⟨f, heq⟩
              · cases heq
              · cases heq
              · cases heq
                simpa [givesUp, Failure.isSystem] using he
      | breaks handled closed =>
        exact .inr (.inr (.inl (hy.gone_of_closed (turn.ended _ rfl).2 (hpeer ▸ closed))))
    · exact .inl (hs.other turn hne)
  | @late t a uid future o closes ha hr told ho turn hissue hconnection hcalls =>
    by_cases hne : i.task = t
    · subst hne
      cases hb.symm.trans ha
      cases hbody.symm.trans hr
      exact .inr (.inr (.inl (gone_of_forget turn (by rw [hconnection]))))
    · exact .inl (hs.other turn hne)
  | listens ha hr listened told turn => exact .inl (hs.other turn (ne_of_body hb hbody ha hr (by rintro ⟨⟩)))
  | closes ha hr listened told why turn =>
    exact .inl (hs.other turn (ne_of_body hb hbody ha hr (by rintro ⟨⟩)))

/-- A call that begins is on one of the stages when its first turn is over. -/
lemma staged_of_begun (hx : Orderly x h) (hy : Orderly y h')
    {d : Connection NamedCallback} {es : List (Peer.Effect NamedCallback)}
    {progress : Connection.CallProgress} {closes : Nat}
    (begun : Begun x.connection x.kernel.isDone x.kernel.futures.size (x.kernel.futures.size + 1) d
      es progress)
    (turn : Turn x.kernel y.kernel t 2 (Peer.outcomesOf es) (callTurn progress))
    (connection : y.connection = { d with closes })
    (left : ∀ o, progress = .ends o → d.peer.closed = true ∨
      d.peer.pending = x.connection.peer.pending ∨
        ∃ f : Fault, f.isSystem = false ∧ o = .failure (.fault f)) (n : Nat) :
    y.Staged ⟨t, x.connection.peer.nextUid, x.kernel.futures.size, n⟩ := by
  have hpeer : y.connection.peer = d.peer := by rw [connection]
  have hends : ∀ o, progress = .ends o →
      y.Staged ⟨t, x.connection.peer.nextUid, x.kernel.futures.size, n⟩ := by
    rintro o rfl
    obtain ⟨-, hended⟩ := turn.ended o rfl
    rcases left o rfl with hclosed | hsame | ⟨f, hf, rfl⟩
    · exact .inr (.inr (.inl (hy.gone_of_closed hended (hpeer ▸ hclosed))))
    · refine .inr (.inr (.inl ⟨⟨o, hended⟩, fun c hc => ?_⟩))
      rw [hpeer, hsame] at hc
      exact Nat.ne_of_lt (hx.ledger.pending_uid_lt c hc)
    · exact .inr (.inr (.inr (.of_outcome hended (by simpa [givesUp] using hf))))
  cases begun with
  | refused => exact hends _ rfl
  | unsendable => exact hends _ rfl
  | issued hopen went =>
    cases went with
    | awaits hes =>
      obtain ⟨-, c, hc, hbody, -⟩ := turn.waits _ _ rfl
      exact .inr (.inl ⟨c, hc, hbody⟩)
    | drains hes hd =>
      obtain ⟨-, c, hc, hbody, -⟩ := turn.waits _ _ rfl
      exact .inl ⟨c, hc, hbody⟩
    | leaves hes ho => exact hends _ rfl
    | breaks handled closed => exact hends _ rfl

/-- Whatever the next job does, every call is on one of the stages. -/
lemma staged_of_work (hall : ∀ i ∈ h.issues, x.Staged i) (hx : Orderly x h) (hdrains : x.Drains)
    (hwork : Work x limit y) : ∀ i ∈ (note h x limit y).issues, y.Staged i := by
  obtain ⟨hy, _, hlater⟩ := hx.work hwork
  intro i hi
  rcases List.mem_append.1 hi with hi | hi
  · rcases hall i hi with hs | hw | hgone | hup
    · exact hs.work hx hdrains hwork
    · exact .inr ((hw.work hx hwork).imp_right .inl)
    · exact .inr (.inr (.inl (hgone.work hx hi hwork)))
    · exact .inr (.inr (.inr (hup.later hlater)))
  · cases hwork with
    | call ha hb begun turn hissue hconnection hcalls hfault hleft =>
      rw [hissue] at hi
      split at hi
      · exact absurd hi List.not_mem_nil
      · rw [List.mem_singleton.1 hi]
        exact staged_of_begun hx hy begun turn hconnection hleft _
    | cancelled _ _ _ _ _ hissue => simp [hissue] at hi
    | answered _ _ _ _ hissue => simp [hissue] at hi
    | drained _ _ _ _ _ hissue => simp [hissue] at hi
    | late _ _ _ _ _ hissue => simp [hissue] at hi
    | listens _ _ _ _ _ hissue => simp [hissue] at hi
    | closes _ _ _ _ _ _ hissue => simp [hissue] at hi

lemma Sending.not_givenUp (hs : x.Sending i) (hx : Orderly x h) : ¬x.GivenUp i := by
  intro hup
  obtain ⟨b, hb, -⟩ := hs
  obtain ⟨o, ho, -⟩ := hup.exists_outcome
  simp [hx.waking.unsettled hb] at ho

/-- A call that is given up while its frame is being sent leaves its entry behind. -/
lemma Sending.stranded (hs : x.Sending i) (hx : Orderly x h)
    (hnone : x.kernel.outcome? i.future = none) (hwork : Work x limit y) (hup : y.GivenUp i)
    (hopen : y.connection.peer.closed = false) :
    ∃ c ∈ y.connection.peer.pending, c.uid = i.uid := by
  have hy := (hx.work hwork).1
  obtain ⟨b, hb, hbody⟩ := hs
  have hs : x.Sending i := ⟨b, hb, hbody⟩
  obtain ⟨⟨g, hg, -⟩, -, hentry⟩ := hx.placed hb hbody
  -- only its own turn ends it
  have hmoved : ∀ {t made os progress}, Turn x.kernel y.kernel t made os progress → i.task = t :=
    fun turn => by_contra fun hne => (hs.other turn hne).not_givenUp hy hup
  cases hwork with
  | cancelled ha hr hidle hasked turn =>
    cases hmoved turn
    cases hb.symm.trans ha
    simp [hg] at hidle
  | call ha hr begun turn => exact absurd (hmoved turn) (ne_of_body hb hbody ha hr nofun)
  | answered ha hr ho turn => exact absurd (hmoved turn) (ne_of_body hb hbody ha hr nofun)
  | drained ha hr told went turn hissue hconnection =>
    cases hmoved turn
    cases hb.symm.trans ha
    cases hbody.symm.trans hr
    rw [hconnection] at hopen ⊢
    cases went with
    | awaits hes =>
      obtain ⟨o, ho, -⟩ := hup.exists_outcome
      simp [(turn.waits _ _ rfl).1] at ho
    | drains hes hd => cases hd
    | leaves hes ho =>
      obtain ⟨c, hc, huid, -⟩ := hentry hnone
      exact ⟨c, hc, huid⟩
    | breaks handled closed => simp [closed] at hopen
  | late ha hr told ho turn =>
    cases hmoved turn
    cases hb.symm.trans ha
    cases hbody.symm.trans hr
    simp [hnone] at ho
  | listens ha hr listened told turn =>
    exact absurd (hmoved turn) (ne_of_body hb hbody ha hr nofun)
  | closes ha hr listened told why turn =>
    exact absurd (hmoved turn) (ne_of_body hb hbody ha hr nofun)

end Work

/-! ## Events -/

/-- An event leaves every call on its stage. -/
lemma stays_of_occur (hx : Orderly x h) (e : Event) {u : Task.Id} {b : Task.Activity Routine}
    (hb : x.kernel.activity? u = some b) :
    ∃ c, (x.occur e).kernel.activity? u = some c ∧ c.body = b.body := by
  obtain ⟨-, hlater⟩ := hx.occur e
  obtain ⟨c, hc⟩ := hlater.stays nofun hb
  obtain ⟨b', hb', hbody, -⟩ := hlater.stayed nofun (Task.Kernel.lt_size_of_activity? hb) hc
  cases hb.symm.trans hb'
  exact ⟨c, hc, hbody.symm⟩

lemma Waiting.occur (hw : x.Waiting i) (hx : Orderly x h) (e : Event) : (x.occur e).Waiting i := by
  obtain ⟨b, hb, hbody⟩ := hw
  obtain ⟨c, hc, hsame⟩ := stays_of_occur hx e hb
  exact ⟨c, hc, hsame.trans hbody⟩

lemma Sending.occur (hs : x.Sending i) (hx : Orderly x h) (e : Event) : (x.occur e).Sending i := by
  obtain ⟨b, hb, hbody⟩ := hs
  obtain ⟨c, hc, hsame⟩ := stays_of_occur hx e hb
  exact ⟨c, hc, hsame.trans hbody⟩

lemma Staged.occur (hi : x.Staged i) (hx : Orderly x h) (e : Event) : (x.occur e).Staged i := by
  obtain ⟨-, hlater⟩ := hx.occur e
  rcases hi with hs | hw | hgone | hup
  · exact .inl (hs.occur hx e)
  · exact .inr (.inl (hw.occur hx e))
  · exact .inr (.inr (.inl (hgone.occur hx e)))
  · exact .inr (.inr (.inr (hup.later hlater)))

/-! ## Runs -/

/-- In every run each call is on one of the stages. -/
lemma staged_of_run (hrun : Run x h) : x.Drains ∧ ∀ i ∈ h.issues, x.Staged i := by
  induction hrun with
  | refl =>
    refine ⟨fun _ t a uid future d o ha hb hd ho => ?_, fun _ hi => absurd hi List.not_mem_nil⟩
    -- at the start nothing is settled
    have houtcome : (start {}).kernel.outcome? d = none :=
      (Task.Kernel.outcome?_add rfl).trans (by simp [Task.Kernel.outcome?])
    simp [houtcome] at ho
  | occur e hl ih =>
    have hx := orderly_start.leads hl
    exact ⟨ih.1.occur hx e, fun i hi => (ih.2 i hi).occur hx e⟩
  | work limit hl hstep ih =>
    have hx := orderly_start.leads hl
    have hwork := work_of_step? hx hstep
    exact ⟨ih.1.work hx hwork, staged_of_work ih.2 hx ih.1 hwork⟩

/-- A call that has waited for its reply waits on, or is gone. -/
lemma Waiting.leads (hw : x.Waiting i) (hx : Orderly x h) (hi : i ∈ h.issues)
    (hl : Leads x h y h') : i ∈ h'.issues ∧ (y.Waiting i ∨ y.Gone i) := by
  induction hl with
  | refl => exact ⟨hi, .inl hw⟩
  | occur e hl ih =>
    have hy := hx.leads hl
    exact ⟨ih.1, ih.2.imp (·.occur hy e) (·.occur hy e)⟩
  | work limit hl hstep ih =>
    have hy := hx.leads hl
    have hwork := work_of_step? hy hstep
    refine ⟨List.mem_append_left _ ih.1, ?_⟩
    rcases ih.2 with hw | hgone
    · exact hw.work hy hwork
    · exact .inr (hgone.work hy ih.1 hwork)

/-- A call that is gone stays so. -/
lemma Gone.leads (hgone : x.Gone i) (hx : Orderly x h) (hi : i ∈ h.issues)
    (hl : Leads x h y h') : i ∈ h'.issues ∧ y.Gone i := by
  induction hl with
  | refl => exact ⟨hi, hgone⟩
  | occur e hl ih => exact ⟨ih.1, ih.2.occur (hx.leads hl) e⟩
  | work limit hl hstep ih =>
    have hy := hx.leads hl
    exact ⟨List.mem_append_left _ ih.1, ih.2.work hy ih.1 (work_of_step? hy hstep)⟩

/-- Who keeps the entries: calls that have not ended, and calls that were given up. -/
lemma exists_keeper (hrun : Run x h) {c : PendingCall} (hc : c ∈ x.connection.peer.pending) :
    ∃ i ∈ h.issues, i.uid = c.uid ∧ (x.kernel.outcome? i.task = none ∨ x.GivenUp i) := by
  have hx := orderly_of_run hrun
  obtain ⟨i, hi, huid, -⟩ := hx.ledger.entries c hc
  refine ⟨i, hi, huid, ?_⟩
  rcases (staged_of_run hrun).2 i hi with ⟨a, ha, -⟩ | ⟨a, ha, -⟩ | ⟨-, hentry⟩ | hup
  · exact .inl (hx.waking.unsettled ha)
  · exact .inl (hx.waking.unsettled ha)
  · exact absurd huid.symm (hentry c hc)
  · exact .inr hup

/-! ## What is promised -/

/-- What is promised about the entries of calls that have ended. -/
structure Tracked (x : Exchange) (h : History) : Prop where
  staged : ∀ i ∈ h.issues, x.Staged i
  /-- A call that ended for its reply or for the end of the connection is not on the list. -/
  ended : ∀ i ∈ h.issues, ∀ o, x.kernel.outcome? i.task = some o → givesUp o = false →
    ∀ c ∈ x.connection.peer.pending, c.uid ≠ i.uid
  /-- Nor is a call that has waited for its reply, as soon as it ends, be it by cancellation. -/
  waited : ∀ i ∈ h.issues, x.Waiting i → ∀ y h', Leads x h y h' →
    y.Waiting i ∨ (∃ o, y.kernel.outcome? i.task = some o) ∧
      ∀ c ∈ y.connection.peer.pending, c.uid ≠ i.uid
  /-- A call whose frame is being sent is on the list, and if it is given up it stays there. -/
  stranded : ∀ i ∈ h.issues, x.Sending i → x.kernel.outcome? i.future = none →
    ∀ limit y, x.step? limit = some y → y.GivenUp i → y.connection.peer.closed = false →
    ∃ c ∈ y.connection.peer.pending, c.uid = i.uid
  /-- There are no more entries than calls that have not ended or were given up. -/
  count : x.connection.peer.pending.length ≤
    (h.issues.filter fun i => (x.kernel.outcome? i.task).all givesUp).length

/-- **Entries of calls that have ended.**  In any run: whoever has waited for a reply, or has ended
for one or for the end of the connection, is not on the list of the calls that wait once it has
ended; whoever is given up while its frame is being sent is, and nobody else. -/
theorem tracked_of_run (hrun : Run x h) : Tracked x h := by
  have hx := orderly_of_run hrun
  obtain ⟨-, hall⟩ := staged_of_run hrun
  refine
    { staged := hall
      ended := fun i hi o ho hkeeps => ?_
      waited := fun i hi hw y h' hl => (hw.leads hx hi hl).2
      stranded := fun i hi hs hnone limit y hstep hup hopen =>
        hs.stranded hx hnone (work_of_step? hx hstep) hup hopen
      count := ?_ }
  · rcases hall i hi with ⟨a, ha, -⟩ | ⟨a, ha, -⟩ | ⟨-, hentry⟩ | hup
    · simp [hx.waking.unsettled ha] at ho
    · simp [hx.waking.unsettled ha] at ho
    · exact hentry
    · obtain ⟨o', ho', hgives⟩ := hup.exists_outcome
      cases ho.symm.trans ho'
      simp [hkeeps] at hgives
  · have hsubset : x.connection.peer.pending.map (·.uid) ⊆
        (h.issues.filter fun i => (x.kernel.outcome? i.task).all givesUp).map (·.uid) := by
      intro uid huid
      obtain ⟨c, hc, rfl⟩ := List.mem_map.1 huid
      obtain ⟨i, hi, huid, hkeeps⟩ := exists_keeper hrun hc
      refine List.mem_map.2 ⟨i, List.mem_filter.2 ⟨hi, ?_⟩, huid⟩
      rcases hkeeps with hnone | hup
      · rw [hnone]
        rfl
      · obtain ⟨o, ho, hgives⟩ := hup.exists_outcome
        rw [ho]
        exact hgives
    have hle := hx.ledger.distinct.1.length_le_of_subset hsubset
    rwa [List.length_map, List.length_map] at hle

/-- A call that was cancelled while it waited for the write buffer to drain. -/
def strandedCall : Exchange :=
  ((((start {}).settle.congest.call "a" "m" []).settle).cancel "a").settle

/-- A call is given up while its frame is being sent: it has ended, and keeps its entry. -/
theorem tracked_strandedCall :
    ∃ h, Run strandedCall h ∧ Tracked strandedCall h ∧ strandedCall.connection.peer.closed = false ∧
      ∃ i ∈ h.issues, strandedCall.GivenUp i ∧
        ∃ c ∈ strandedCall.connection.peer.pending, c.uid = i.uid := by
  have hstart : Run (start {}) {} := .refl
  obtain ⟨_, hlistening⟩ := hstart.settle
  obtain ⟨_, hsending⟩ := (Run.call (Leads.occur .congest hlistening) "a" "m" []).settle
  obtain ⟨h, hrun⟩ := Run.settle (Leads.occur (.cancel "a") hsending)
  have hrun : Run strandedCall h := hrun
  refine ⟨h, hrun, tracked_of_run hrun, by decide +kernel, ?_⟩
  obtain ⟨c, hc⟩ : ∃ c, c ∈ strandedCall.connection.peer.pending :=
    List.exists_mem_of_length_pos (by decide +kernel)
  have hx := orderly_of_run hrun
  obtain ⟨i, hi, huid, -⟩ := hx.ledger.entries c hc
  have hended : strandedCall.callers.all
      (fun t => (strandedCall.kernel.outcome? t).any givesUp) = true := by decide +kernel
  exact ⟨i, hi, List.all_eq_true.1 hended _ (hx.makers i hi), c, hc, huid.symm⟩

/-- The cancelled call is the only one, so there is one entry more than calls that are awaited. -/
theorem entry_outlives_call :
    strandedCall.callers.map (fun t => match strandedCall.kernel.outcome? t with
      | some .cancelled => true
      | _ => false) = [true] ∧
    strandedCall.connection.peer.pending.map (·.uid) = [1] := by
  decide +kernel

end SuggestBridge.Exchange
