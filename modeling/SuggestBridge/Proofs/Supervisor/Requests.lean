import SuggestBridge.Proofs.Supervisor.Closings
import SuggestBridge.Supervisor.Run

/-!
# The turns of callers

Calls, listeners and the requests of clients come to moves as well, all but one thing: that somebody
begins to wait for a session.  A request of a client does so in its first turn or never, because
what comes of a session or of a call never makes it ask for another session.
-/

namespace SuggestBridge

open SuggestBridge.Task

/-! ## What requests need -/

namespace Client

/-- What is needed next is no session, and it is the project of the key that it is needed for. -/
def Next.Serves (key : Text) : Next → Prop
  | .ends _ => True
  | .needs _ (.session _) => False
  | .needs r (.call _ _ _ _) => r.key = key
  | .needs _ (.close key') => key' = key

/-- What is needed next, if anything, is the end of the session of a key. -/
def Next.Closes (key : Text) : Next → Prop
  | .needs _ (.close key') => key' = key
  | .needs _ _ => False
  | .ends _ => True

lemma Next.Closes.serves {key : Text} {next : Next} (h : next.Closes key) : next.Serves key := by
  cases next with
  | ends result => trivial
  | needs r n =>
    cases n with
    | close key' => exact h
    | session | call => exact h.elim

namespace Request

/-- A request asks for a session first, or for nothing. -/
lemma begin_eq (c : Client) (q : Query) :
    Request.begin c q = .ends (.ok []) ∨
      Request.begin c q =
        .needs ⟨c, q, c.resolve q.file, .opening⟩ (.session (c.resolve q.file)) := by
  rw [Request.begin]
  split
  · exact .inl rfl
  · exact .inr rfl

variable (r : Request)

lemma closes_close (rows : List Row) : (r.close rows).Closes r.key := rfl

lemma closes_fail (e : Failure) : (r.fail e).1.Closes r.key := by
  unfold fail
  split
  · trivial
  · exact r.closes_close []

lemma serves_onSession (session : Except Failure SessionRef) :
    (r.onSession session).1.Serves r.key := by
  unfold onSession
  split
  · exact (r.closes_fail _).serves
  · split
    · exact (r.closes_fail _).serves
    · rfl

lemma closes_release (rows : List Row) : (r.release rows).1.Closes r.key := by
  unfold release
  split
  · dsimp only
    split
    · trivial
    · exact r.closes_close _
  · trivial

lemma closes_decoded (v : Sexp) : (r.decoded v).1.Closes r.key := by
  unfold decoded
  split
  · trivial
  · exact r.closes_release _

lemma closes_onAnswer (session : SessionRef) (v : Sexp) : (r.onAnswer session v).1.Closes r.key := by
  unfold onAnswer
  split
  · exact r.closes_fail _
  · dsimp only
    split
    · split
      · exact r.closes_close _
      · exact r.closes_decoded _
    · exact r.closes_decoded _

lemma closes_onReply (session : SessionRef) (reply : Reply) :
    (r.onReply session reply).1.Closes r.key := by
  unfold onReply
  split
  · exact r.closes_onAnswer session _
  · trivial
  · exact r.closes_fail _
  · split
    · trivial
    · exact r.closes_fail _
  · exact r.closes_fail _

end Request

end Client

/-! ## Where calls wait -/

namespace Connection

variable {κ : Type}

lemma failSending_ends (c : Connection κ) (isDone : Task.Id → Bool) (uid : Nat) (f : Fault) :
    ∃ o, (c.failSending isDone uid f).2.2 = .ends o := by
  rw [failSending]
  split <;> exact ⟨_, rfl⟩

/-- A call waits for one of its two futures, and then for the other. -/
lemma waits_beginCall (c : Connection κ) (isDone : Task.Id → Bool) (now : Float)
    (future drained : Task.Id) (method : Text) (args : List Sexp) (st : CallState) (x : Task.Id)
    (h : (c.beginCall isDone now future drained method args).2.2 = .waits st x) :
    (x = future ∨ x = drained) ∧ ∀ y ∈ st.refs, y = future := by
  rw [beginCall] at h
  split at h
  · cases h
  · dsimp only at h
    split at h
    · obtain ⟨o, ho⟩ := failSending_ends _ _ _ _
      rw [ho] at h
      cases h
    · split at h
      · obtain ⟨o, ho⟩ := failSending_ends _ _ _ _
        rw [ho] at h
        cases h
      · cases h
        exact ⟨.inr rfl, fun y hy => List.mem_singleton.1 hy⟩
      · cases h
        exact ⟨.inl rfl, fun _ hy => absurd hy List.not_mem_nil⟩

lemma waits_resumeCall (c : Connection κ) (isDone : Task.Id → Bool) (state : CallState)
    (input : Task.Outcome Sexp Failure) (st : CallState) (x : Task.Id)
    (h : (c.resumeCall isDone state input).2.2 = .waits st x) :
    x ∈ state.refs ∧ st.refs = [] := by
  unfold resumeCall at h
  cases state with
  | awaiting uid future => cases h
  | draining uid future =>
    dsimp only at h
    split at h
    · cases h
      exact ⟨List.mem_singleton.2 rfl, rfl⟩
    · obtain ⟨o, ho⟩ := failSending_ends _ _ _ _
      rw [ho] at h
      cases h
    · cases h

end Connection

namespace Supervisor

variable {p : Plan} {ω : Warrant} {s s' : Supervisor}

/-! ## Calls -/

/-- A call goes on with what is known. -/
def CallFits (p : Plan) (s : Supervisor) (st : Connection.CallState) : Prop :=
  ∀ x ∈ st.refs, s.kernel.Knows p x

lemma turns_followCall (n : Nat) {progress : Connection.CallProgress}
    (h : ∀ {st x}, progress = .waits st x → s.kernel.Knows p x ∧ CallFits p s st) :
    Turns p ω (CallFits p) s (s.followCall n progress) := by
  unfold followCall
  split
  · next st x =>
    obtain ⟨hx, hst⟩ := h rfl
    exact .waiting .refl hx hst
  · have hnote : Moves p ω s
        (s.updateSession n fun x => { x with lastActivity := s.kernel.now }) :=
      .single (.session n _ fun _ => ⟨rfl, rfl, rfl, rfl⟩)
        (.of_session n fun _ => ⟨rfl, rfl, rfl, rfl⟩)
    exact .ends hnote _
  · exact .ends .refl _
  · exact .ends .refl _

/-- The connection of a session. -/
lemma links_of_linkOf? {n : Nat} {x : Session} {l : Link} (hx : s.opened[n]? = some x)
    (hl : s.linkOf? n = some l) : s.links[x.link]? = some l := by
  rwa [linkOf?, hx] at hl

lemma turns_beginCall (h : Tidy p s) (n : Nat) (method : Text) (args : List Sexp) :
    Turns p ω (CallFits p) s (s.beginCall n method args) := by
  unfold beginCall
  split
  · next x l hx hlink =>
    have hl := links_of_linkOf? hx hlink
    obtain ⟨hfresh, hfuture, hunused⟩ := moves_fresh h
    have h₁ := h.moves hfresh
    generalize s.kernel.fresh = made at hfresh hfuture hunused h₁ ⊢
    obtain ⟨k₁, future⟩ := made
    obtain ⟨hfresh', hdrained, -⟩ := moves_fresh h₁
    have h₂ := h₁.moves hfresh'
    have hfuture₂ := (Moves.widens hfresh').loose (.refl p _) hfuture
    have hunused₂ := hunused.fresh
    dsimp only at hfuture₂ hdrained hunused₂ h₂ ⊢
    generalize k₁.fresh = made' at hfresh' hdrained hfuture₂ hunused₂ h₂ ⊢
    obtain ⟨k₂, drained⟩ := made'
    have hwithin : l.connection.Within (Answers p { s with kernel := k₂ } l)
        (l.connection.beginCall k₂.isDone k₂.now future drained method args).1
        (l.connection.beginCall k₂.isDone k₂.now future drained method args).2.1 :=
      Connection.within_beginCall (h₂.answers hl) k₂.isDone k₂.now ⟨hfuture₂, .inr hunused₂⟩
        (fun d hd heq => hunused₂.calls l (Array.mem_of_getElem? hl) ⟨d, hd, heq⟩) method args
    have hhands := Connection.hands_beginCall l.connection k₂.isDone k₂.now future drained method args
    have hconfines :=
      Connection.confines_beginCall l.connection k₂.isDone k₂.now future drained method args
    have hplace := Connection.waits_beginCall l.connection k₂.isDone k₂.now future drained method args
    generalize l.connection.beginCall k₂.isDone k₂.now future drained method args = r
      at hwithin hhands hconfines hplace ⊢
    obtain ⟨c, es, progress⟩ := r
    have hall : Moves p ω _ _ := moves_applyAll h₂ hl hwithin hhands hconfines
    refine .after ((hfresh.trans hfresh').trans hall) (turns_followCall n fun {st y} hwaits => ?_)
    obtain ⟨hy, hrefs⟩ := hplace st y hwaits
    have hknows := Moves.knows hall hfuture₂.knows
    refine ⟨?_, fun z hz => hrefs z hz ▸ hknows⟩
    rcases hy with rfl | rfl
    · exact hknows
    · exact Moves.knows hall hdrained.knows
  · exact .ends .refl _

lemma turns_resumeCall (h : Tidy p s) (n : Nat) {state : Connection.CallState}
    (hstate : CallFits p s state) (input : Outcome Value Failure) :
    Turns p ω (CallFits p) s (s.resumeCall n state input) := by
  unfold resumeCall
  split
  · next x l hx hlink =>
    have hl := links_of_linkOf? hx hlink
    have hwithin := Connection.within_resumeCall (h.answers hl)
      s.kernel.isDone state (input.map Value.sexp)
    have hout := Connection.outward_resumeCall l.connection s.kernel.isDone state
      (input.map Value.sexp)
    have hplace := Connection.waits_resumeCall l.connection s.kernel.isDone state
      (input.map Value.sexp)
    generalize l.connection.resumeCall s.kernel.isDone state (input.map Value.sexp) = r
      at hwithin hout hplace ⊢
    obtain ⟨c, es, progress⟩ := r
    have hall : Moves p ω s _ := moves_applyAll h hl hwithin hout.hands hout.confines
    refine .after hall (turns_followCall n fun {st y} hwaits => ?_)
    obtain ⟨hy, hrefs⟩ := hplace st y hwaits
    exact ⟨Moves.knows hall (hstate y hy), fun z hz => by simp [hrefs] at hz⟩
  · exact .ends .refl _

/-! ## Listening -/

lemma turns_followListener (h : Tidy p s) {n : Nat} {l : Link} (hl : s.links[n]? = some l)
    {r : Connection Nat × List (Peer.Effect Nat) × Connection.Pause}
    (hr : l.connection.Within (s.Answers p l) r.1 r.2.1)
    (hout : l.connection.peer.Outward r.1.peer r.2.1) :
    Turns p ω (Plain p) s (s.followListener n r) := by
  obtain ⟨c, es, why⟩ := r
  have hall : Moves p ω s _ := moves_applyAll h hl hr hout.hands hout.confines
  unfold followListener
  dsimp only
  split
  · next l' _ =>
    obtain ⟨hfresh, hwaiter, hunused⟩ := moves_fresh (h.moves hall)
    have hmade : Moves p ω s _ := hall.trans hfresh
    have hset : Moves p ω _ _ := moves_setIncoming (h.moves hmade) n (t := { l'.connection.incoming with
      waiter := some (s.applyAll n c es).kernel.futures.size }) (by
        rintro w ⟨⟩
        exact hwaiter) (by
        rintro w ⟨⟩
        exact hunused.calls)
    exact .waiting (hmade.trans hset) hwaiter.knows ⟨nofun, rfl, rfl⟩
  · exact .ends hall _

lemma turns_beginListening (h : Tidy p s) (n : Nat) :
    Turns p ω (Plain p) s (s.beginListening n) := by
  unfold beginListening
  split
  · next l hl =>
    exact turns_followListener h hl
      (Connection.within_beginListening (h.answers hl) _ _)
      (Connection.outward_beginListening _ _ _)
  · exact .ends .refl _

lemma turns_resumeListening (h : Tidy p s) (n : Nat) (input : Outcome Value Failure) :
    Turns p ω (Plain p) s (s.resumeListening n input) := by
  unfold resumeListening
  split
  · next l hl =>
    exact turns_followListener h hl
      (Connection.within_resumeListening (h.answers hl) _ _ input)
      (Connection.outward_resumeListening _ _ _ _)
  · exact .ends .refl _

/-! ## Requests of clients -/

/-- The key of the session that a request may still close. -/
def Asking.key? : Asking → Option Text
  | .opening r _ _ | .calling r _ _ | .timed r _ _ => some r.key
  | .closing _ _ => none

/-- A request goes on with what is known, and it waits for no startup. -/
structure Asking.Fits (p : Plan) (s : Supervisor) (a : Asking) : Prop where
  refs : ∀ x ∈ a.refs, s.kernel.Knows p x
  awaits : (Routine.asking a).awaits? = none

lemma turns_pursue (h : Tidy p s) (fuel : Nat) {key : Text} {next : Client.Next} {log : List LogLine}
    (hnext : next.Serves key) (hallows : Allows p ω s key) :
    Turns p ω (Asking.Fits p) s (s.pursue fuel (next, log)) := by
  induction fuel generalizing s next log with
  | zero => exact .ends .refl _
  | succ fuel ih =>
    have hlog : Moves p ω s (s.report log) := moves_report log
    have h₁ := h.moves hlog
    have hallows₁ := hallows.moves hlog
    unfold pursue
    dsimp only
    refine .after hlog ?_
    split
    · exact .ends .refl _
    · exact .ends .refl _
    · exact hnext.elim
    · next r session method args =>
      have hserves : ∀ reply, (r.onReply session reply).1.Serves key := fun reply =>
        hnext ▸ (r.closes_onReply session reply).serves
      have hcall := turns_beginCall (ω := ω) h₁ session.handle method args
      refine hcall.andThen h₁ (fun hst => ⟨hst, rfl⟩) fun o h => ?_
      split
      · exact ih h (hserves _) (hallows₁.moves hcall.moves)
      · exact .ends .refl _
    · next r session method args timeout =>
      have hserves : ∀ reply, (r.onReply session reply).1.Serves key := fun reply =>
        hnext ▸ (r.closes_onReply session reply).serves
      obtain ⟨hmoves, hwaits⟩ : Moves p ω (s.report log) _ ∧ _ :=
        moves_beginWait h₁ timeout.toFloat (r := .call session.handle method args)
          ⟨rfl, rfl, rfl, rfl, rfl⟩
      refine .after hmoves ?_
      split
      · next d future heq =>
        obtain ⟨hfuture, htask⟩ := hwaits d future heq
        exact .waiting .refl hfuture ⟨by simpa [Asking.refs] using htask, rfl⟩
      · split
        · exact ih (h₁.moves hmoves) (hserves _) (hallows₁.moves hmoves)
        · exact .ends .refl _
    · next r key' =>
      obtain rfl : key' = key := hnext
      refine (turns_beginClosing h₁ hallows₁).andThen h₁ (fun hc => ⟨hc, rfl⟩) fun o h => ?_
      split
      · exact .ends .refl _
      · exact .ends .refl _

/-- Going on with a request that did not wait for a startup. -/
lemma turns_resumeAsking (h : Tidy p s) (caller : Id) {a : Asking} (ha : a.Fits p s)
    (hallows : ∀ key, a.key? = some key → Allows p ω s key) (input : Outcome Value Failure) :
    Turns p ω (Asking.Fits p) s (s.resumeAsking caller a input) := by
  unfold resumeAsking
  cases a with
  | opening r key u => exact absurd ha.awaits (Option.some_ne_none _)
  | calling r session state =>
    have hcall := turns_resumeCall (ω := ω) h session.handle ha.refs input
    refine hcall.andThen h (fun hst => ⟨hst, rfl⟩) fun o h => ?_
    split
    · exact turns_pursue h _ (r.closes_onReply _ _).serves ((hallows r.key rfl).moves hcall.moves)
    · exact .ends .refl _
  | timed r session d =>
    obtain ⟨hmoves, hwaits⟩ : Moves p ω s _ ∧ _ :=
      moves_resumeWait h (ha.refs d.task (by simp [Asking.refs])) input
    refine .after hmoves ?_
    dsimp only
    split
    · next d' future heq =>
      obtain ⟨hfuture, htask⟩ := hwaits d' future heq
      exact .waiting .refl hfuture ⟨by simpa [Asking.refs] using htask, rfl⟩
    · split
      · exact turns_pursue (h.moves hmoves) _ (r.closes_onReply _ _).serves
          ((hallows r.key rfl).moves hmoves)
      · exact .ends .refl _
  | closing rows c =>
    refine (turns_resumeClosing h ha.refs input).andThen h (fun hc => ⟨hc, rfl⟩) fun o h => ?_
    split
    · exact .ends .refl _
    · exact .ends .refl _

/-- What a request does once it was told what came of its startup. -/
def onOpened (r : Client.Request) (fuel : Nat) (s : Supervisor) (o : Outcome Value Failure) :
    Supervisor × Course Asking :=
  match s.sessionResult o with
  | some session => s.pursue fuel (r.onSession session)
  | none => (s, .ends .cancelled)

lemma turns_onOpened (h : Tidy p s) (r : Client.Request) (hallows : Allows p ω s r.key) (fuel : Nat)
    (o : Outcome Value Failure) : Turns p ω (Asking.Fits p) s (onOpened r fuel s o) := by
  unfold onOpened
  split
  · exact turns_pursue h _ (r.serves_onSession _) hallows
  · exact .ends .refl _

lemma pursue_session (r : Client.Request) (project : Project) (fuel : Nat) (log : List LogLine) :
    s.pursue (fuel + 1) (.needs r (.session project), log) =
      Progress.andThen ((s.report log).beginAcquiring project) (fun x => .opening r x.1 x.2)
        (onOpened r fuel) := rfl

lemma resumeAsking_opening (caller : Id) (r : Client.Request) (key : Text) (u : Id)
    (input : Outcome Value Failure) :
    s.resumeAsking caller (.opening r key u) input =
      Progress.andThen (s.resumeAcquiring caller key u input) (fun x => .opening r x.1 x.2)
        (onOpened r needs) := rfl

lemma turns_resumeAcquiring (caller : Id) (key : Text) (u : Id) (input : Outcome Value Failure) :
    Turns p ω (fun _ _ => False) s (s.resumeAcquiring caller key u input) := by
  unfold resumeAcquiring
  split
  · split
    · exact .ends .refl _
    · exact .ends .refl _
  · exact .ends .refl _

/-- Going on with a request that waited for a startup. -/
lemma turns_resumeOpening (h : Tidy p s) (caller : Id) (r : Client.Request)
    (hallows : Allows p ω s r.key) (key : Text) (u : Id) (input : Outcome Value Failure) :
    Turns p ω (Asking.Fits p) s (s.resumeAsking caller (.opening r key u) input) := by
  have hacquired := turns_resumeAcquiring (p := p) (ω := ω) (s := s) caller key u input
  rw [resumeAsking_opening]
  exact hacquired.andThen h False.elim fun o h =>
    turns_onOpened h r (hallows.moves hacquired.moves) _ o

end Supervisor

end SuggestBridge
