import SuggestBridge.Proofs.Peer.Listening
import SuggestBridge.Proofs.Peer.Rejection
import SuggestBridge.Proofs.Supervisor.Calls
import SuggestBridge.Proofs.Task.Frames

/-!
# Replies to the calls of a supervisor

Whoever calls over a session waits until the listener of its connection has treated a reply with the
number of the call.  In one turn the listener treats all payloads that have arrived in full by then;
each call that waits ends by the first of them that is a verdict on its number, and nothing becomes of
the calls over other connections (`Scene.Sound.heeds`).

A number may be used up while nobody waits for the reply any more (`Past`).  It stays so whatever happens,
and a reply that arrives with this number settles nothing (`Past.ignores`).
-/

namespace SuggestBridge

open SuggestBridge.Task

namespace Peer

variable {κ : Type} {p q : Peer κ} {isDone : Task.Id → Bool} {uid : Nat}

/-- An operation that sends nothing and leaves the peer open concerns nobody but those who make calls. -/
lemma Outward.inner {es : List (Effect κ)} (h : Outward p q es) (hframes : frames es = [])
    (hopen : q.closed = false) : ∀ e ∈ es, e.IsInner := by
  intro e he
  cases e with
  | settle | log => trivial
  | send frame =>
    have hframe : frame ∈ frames es := List.mem_filterMap.2 ⟨_, he, rfl⟩
    exact absurd (hframes ▸ hframe) List.not_mem_nil
  | callback k =>
    have hcalled : k ∈ called es := List.mem_filterMap.2 ⟨_, he, rfl⟩
    exact absurd (h.early hopen ▸ hcalled) List.not_mem_nil
  | closeConnection =>
    obtain ⟨before, after, rfl⟩ := List.append_of_mem he
    cases hopen.symm.trans (h.silent before after rfl).1

/-- A reply with the number of a call that has been settled, or of none that waits, settles nothing and
ends no other call. -/
lemma dispatch_settled (hdone : ∀ c ∈ p.pending, c.uid = uid → isDone c.future = true) {payload : Text}
    (h : RepliesTo uid payload) (now : Float) (fault : Option Fault) :
    ∃ es, p.dispatch isDone now fault payload = (p.forget uid, es, .proceed) ∧ settlements es = [] := by
  obtain ⟨kind, value, more, hread, hcall, hmethods⟩ := h
  have hmessage : message payload = .reply kind (.int uid) value := by
    simp only [message, hread, parts?, if_neg (not_or.2 ⟨hcall, hmethods⟩)]
  cases hfind : p.pending.find? (·.uid == uid) with
  | none =>
    have hno : ∀ c ∈ p.pending, c.uid ≠ uid := fun c hc heq =>
      List.find?_eq_none.1 hfind c hc (by simp [heq])
    obtain ⟨line, hline⟩ := dispatch_unknown hmessage (fun c hc heq => hno c hc (by
      cases (uid?_eq_some.1 heq); rfl)) isDone now fault
    refine ⟨[.log line], hline.trans ?_, rfl⟩
    rw [forget, List.filter_eq_self.2 fun c hc => by simp [hno c hc]]
  | some call =>
    have hcall := List.mem_of_find?_eq_some hfind
    have huid : call.uid = uid := by simpa using List.find?_some hfind
    refine ⟨[], ?_, rfl⟩
    have hlook : ((uid? (.int uid)).bind fun n => p.pending.find? (·.uid == n)) = some call := hfind
    rw [dispatch_eq, hmessage]
    simp only [reply, hlook, hdone call hcall huid, huid, if_true]

end Peer

namespace Connection

open Peer (Handled firstVerdict)

variable {κ : Type} {c d : Connection κ} {isDone : Task.Id → Bool} {es : List (Peer.Effect κ)}
  {why : Pause} {payloads : List Text}

/-- A listener has treated payloads and waits for more: all that have arrived in full, or none as no bytes
have arrived at all. -/
structure Treated (c d : Connection κ) (isDone : Task.Id → Bool) (payloads : List Text)
    (es : List (Peer.Effect κ)) : Prop where
  handled : Handled c.peer d.peer isDone (firstVerdict · payloads) es
  read : ∃ bytes, c.incoming.buffer = bytes ++ d.incoming.buffer ∧
    (Frame.drain (c.peer.buffer ++ bytes) = ⟨.ok payloads, d.peer.buffer⟩ ∨
      bytes = [] ∧ payloads = [] ∧ d.peer = c.peer)

lemma Listened.treated {bytes : Bytes} {done : List Text} {rejection : Option Failure}
    (h : Listened c d isDone bytes done rejection es why) (hopen : d.peer.closed = false) :
    why = .blocked ∧ Treated c d isDone done es := by
  cases why with
  | ended cause => cases hopen.symm.trans (h.ended cause rfl).1
  | blocked =>
    obtain ⟨rfl, -, -, hdrain⟩ := h.blocked rfl
    refine ⟨rfl, ?_, bytes, h.read, .inl hdrain⟩
    have hhandled := h.handled
    rwa [verdictOn_none] at hhandled

/-- A listener that goes on and leaves the peer open has treated all that has arrived. -/
lemma treated_resumeListening {ν : Type} {now : Float} {input : Task.Outcome ν Failure}
    (hc : c.peer.Distinct) (h : c.resumeListening isDone now input = (d, es, why))
    (hopen : d.peer.closed = false) : why = .blocked ∧ ∃ payloads, Treated c d isDone payloads es := by
  have hout := outward_resumeListening c isDone now input
  obtain ⟨bytes, done, rejection, hlistened, -⟩ := listened_resumeListening hc
    (fun hclosed => by rw [h] at hout; cases hopen.symm.trans (hout.final hclosed)) isDone now input
  rw [h] at hlistened
  obtain ⟨hwhy, htreated⟩ := hlistened.treated hopen
  exact ⟨hwhy, _, htreated⟩

/-- So has one that begins. -/
lemma treated_beginListening {now : Float} (hc : c.peer.Distinct)
    (h : c.beginListening isDone now = (d, es, why)) (hopen : d.peer.closed = false) :
    why = .blocked ∧ ∃ payloads, Treated c d isDone payloads es := by
  rw [beginListening] at h
  cases hready : c.incoming.readiness with
  | failed e =>
    rw [hready] at h
    cases h
    cases hopen.symm.trans (Peer.closed_close _ _ _)
  | blocked =>
    rw [hready] at h
    cases h
    exact ⟨rfl, [], .of_no_verdict rfl rfl (fun _ => rfl) rfl, [], rfl, .inr ⟨rfl, rfl, rfl⟩⟩
  | readable =>
    rw [hready] at h
    exact @treated_resumeListening _ _ _ _ _ _ Unit now (.value ()) hc h hopen

end Connection

namespace Supervisor

open Peer (firstVerdict outcomesOf settlements RepliesTo)

variable {p p' : Plan} {s s' m : Supervisor} {k : Machine} {turn : Option Id} {t f g : Id}
variable {c c' d : Scene} {keys : List Text} {n link uid : Nat} {input : Outcome Value Failure}

/-! ## Numbers that are used up -/

/-- Nobody waits for the reply to a call with this number any more: none has it, or that call has been
settled. -/
structure Past (s : Supervisor) (link uid : Nat) : Prop where
  used : uid < (s.peerOf link).nextUid
  settled : ∀ c ∈ (s.peerOf link).pending, c.uid = uid → s.kernel.isDone c.future = true

/-- Later calls have other numbers. -/
lemma Past.onward (h : s.Past link uid) (hon : Onward p p' turn s s') : s'.Past link uid where
  used := Nat.lt_of_lt_of_le h.used (hon.ages.peers link).nextUid
  settled c hc huid := by
    rcases (hon.ages.peers link).pending c hc with hold | ⟨hle, -⟩
    · exact hon.isDone (h.settled c hold huid)
    · exact absurd (huid ▸ hle) (Nat.not_le.2 h.used)

lemma Scene.Sound.past (h : c.Sound p) (hpast : c.supervisor.Past link uid) (hrun : Run c keys d) :
    d.supervisor.Past link uid := by
  induction hrun with
  | refl => exact hpast
  | tail hrun hstep ih =>
    obtain ⟨p₁, hsound, -⟩ := h.run hrun
    obtain ⟨p₂, turn, hstepped, -⟩ := hsound.happens hstep
    exact ih.onward hstepped.onward

/-- Whatever payloads are treated at the same time before it, a reply with this number settles nothing, and
no other call ends. -/
def Ignores (s : Supervisor) (link uid : Nat) : Prop :=
  ∀ now fault before q es,
    (s.peerOf link).dispatchAll s.kernel.isDone now fault before = (q, es, .proceed) →
    ∀ payload, RepliesTo uid payload →
      ∃ fs, q.dispatch s.kernel.isDone now fault payload = (q.forget uid, fs, .proceed) ∧
        settlements fs = []

lemma Past.ignores (h : s.Past link uid) (htidy : Tidy p s) : s.Ignores link uid := by
  intro now fault before q es hbefore payload hreply
  obtain ⟨done, rest, -, -, hhandled, -⟩ := Peer.handled_dispatchAll (htidy.ordered_peerOf link).distinct
    s.kernel.isDone now fault before
  rw [hbefore] at hhandled
  exact Peer.dispatch_settled (fun c hc => h.settled c (hhandled.mem_pending.1 hc).1) hreply now fault

/-! ## What effects do -/

/-- What a call ends with that has a verdict. -/
def verdictOutcome (r : Except Failure Sexp) : Outcome Value Failure := .ofExcept (r.map .reply)

/-- Effects that concern callers only change no connection. -/
lemma links_effects {es : List (Peer.Effect Nat)} (h : ∀ e ∈ es, e.IsInner) (n : Nat) (s : Supervisor) :
    (es.foldl (apply n) s).links = s.links := by
  induction es generalizing s with
  | nil => rfl
  | cons e es ih =>
    obtain ⟨he, hes⟩ := List.forall_mem_cons.1 h
    refine (ih hes _).trans ?_
    cases e with
    | settle | log => rfl
    | _ => exact he.elim

/-- They settle futures, and that is all. -/
lemma outcome_effects {es : List (Peer.Effect Nat)} (h : ∀ e ∈ es, e.IsInner) (n : Nat) (s : Supervisor)
    (hlt : ∀ f r, (f, r) ∈ settlements es → f < s.kernel.futures.size) (x : Id) :
    (es.foldl (apply n) s).kernel.outcome? x =
      (s.kernel.outcome? x).or (((outcomesOf es).lookup x).map (·.map .reply)) := by
  induction es generalizing s with
  | nil => exact (Option.or_none).symm
  | cons e es ih =>
    obtain ⟨he, hes⟩ := List.forall_mem_cons.1 h
    cases e with
    | settle f r =>
      have hone := Kernel.outcome?_settle_or (hlt f r (List.mem_cons_self ..))
        (Outcome.ofExcept (r.map Value.reply)) x
      have hrest := ih hes (apply n s (.settle f r)) fun f' r' hmem =>
        Nat.lt_of_lt_of_le (hlt f' r' (List.mem_cons_of_mem _ hmem)) (Nat.le_of_eq Kernel.size_settle.symm)
      refine hrest.trans ?_
      rw [show (apply n s (.settle f r)).kernel.outcome? x = _ from hone, Option.or_assoc]
      congr 1
      simp only [outcomesOf, settlements, List.filterMap_cons, List.map_cons, List.lookup_cons,
        List.lookup_nil]
      cases x == f with
      | false => rw [Option.none_or]
      | true => cases r <;> rfl
    | log line => exact ih hes (apply n s (.log line)) fun f r hmem => hlt f r hmem
    | _ => exact he.elim

/-! ## A turn of a listener -/

/-- In a turn of the task `t`, which listens on the connection `n`, payloads have been treated: all that
had arrived in full, or none as no bytes had arrived at all. -/
structure Heeded (t : Id) (n : Nat) (s s' : Supervisor) (payloads : List Text) : Prop where
  read : ∃ l l' bytes, s.links[n]? = some l ∧ s'.links[n]? = some l' ∧
    l.connection.incoming.buffer = bytes ++ l'.connection.incoming.buffer ∧
    (Frame.drain ((s.peerOf n).buffer ++ bytes) = ⟨.ok payloads, (s'.peerOf n).buffer⟩ ∨
      bytes = [] ∧ payloads = [] ∧ s'.peerOf n = s.peerOf n)
  /-- The calls over the connection wait on that have no verdict. -/
  pending : (s'.peerOf n).pending = (s.peerOf n).pending.filter fun c => (firstVerdict c.uid payloads).isNone
  /-- Each call that waits ends by the first verdict on its own number, if there is one. -/
  ends : ∀ {c}, c ∈ (s.peerOf n).pending → s'.kernel.outcome? c.future =
    (s.kernel.outcome? c.future).or ((firstVerdict c.uid payloads).map verdictOutcome)
  others : ∀ {i}, i ≠ n → s'.peerOf i = s.peerOf i
  /-- Nothing becomes of whatever is not the future of such a call. -/
  keeps : ∀ {x}, x < s.kernel.futures.size → x ≠ t → (∀ c ∈ (s.peerOf n).pending, c.future ≠ x) →
    s'.kernel.outcome? x = s.kernel.outcome? x

/-- A listener that has treated payloads waits for more. -/
lemma heeded_followListener (h : Tidy p s) {l : Link} (hl : s.links[n]? = some l) {c : Connection Nat}
    {es : List (Peer.Effect Nat)} {payloads : List Text}
    (htreated : l.connection.Treated c s.kernel.isDone payloads es) (hinner : ∀ e ∈ es, e.IsInner) :
    ∃ s₁ g, s.followListener n (c, es, .blocked) = (s₁, .waits (.listen n) g) ∧
      Heeded t n s s₁ payloads ∧ s₁.kernel.Leaf g ∧ s.kernel.futures.size ≤ g := by
  have hself : s.peerOf n = l.connection.peer := peerOf_eq hl
  have hdistinct : (s.peerOf n).Distinct := (h.ordered_peerOf n).distinct
  have hhandled := htreated.handled
  have hread := htreated.read
  rw [← hself] at hhandled hread
  generalize hchanged : s.updateLink n (fun l => { l with connection := c }) = s₀
  have hkernel : s₀.kernel = s.kernel := hchanged ▸ rfl
  have hl₀ : s₀.links[n]? = some { l with connection := c } := by
    rw [← hchanged, updateLink, Array.getElem?_modify, if_pos rfl, hl, Option.map_some]
  have hlinks := links_effects hinner n s₀
  have hsettled : ∀ x, (es.foldl (apply n) s₀).kernel.outcome? x =
      (s.kernel.outcome? x).or (((outcomesOf es).lookup x).map (·.map .reply)) := fun x => by
    rw [outcome_effects hinner n s₀ (fun f r hmem => ?_) x, hkernel]
    obtain ⟨e, he, rfl, -⟩ := (hhandled.settled f r).1 hmem
    exact hkernel ▸ h.lt_of_pending he
  have hwide : s₀.kernel.Widens (es.foldl (apply n) s₀).kernel :=
    (Unheard.foldl (Unheard.apply n) es).widens
  have hl₂ : (es.foldl (apply n) s₀).links[n]? = some { l with connection := c } := hlinks ▸ hl₀
  have hfollow : s.followListener n (c, es, .blocked) =
      ({ es.foldl (apply n) s₀ with kernel := (es.foldl (apply n) s₀).kernel.fresh.1 }.updateLink n fun l' =>
        { l' with connection := { l'.connection with
          incoming := { c.incoming with waiter := some (es.foldl (apply n) s₀).kernel.fresh.2 } } },
        .waits (.listen n) (es.foldl (apply n) s₀).kernel.fresh.2) := by
    simp only [followListener, applyAll, hchanged, hl₂]
    rfl
  generalize es.foldl (apply n) s₀ = s₂ at hlinks hsettled hwide hl₂ hfollow
  refine ⟨_, _, hfollow, ?_, Kernel.leaf_fresh _, hkernel ▸ hwide.size⟩
  generalize hparked : updateLink _ n _ = s₁
  have hlinks₁ : ∀ i : Nat, s₁.links[i]? = if n = i then some { l with connection := { c with
      incoming := { c.incoming with waiter := some s₂.kernel.fresh.2 } } } else s.links[i]? := fun i => by
    rw [← hparked, updateLink, Array.getElem?_modify]
    dsimp only
    rw [hlinks]
    split
    · next hi => rw [← hi, hl₀]; rfl
    · next hi => rw [← hchanged, updateLink, Array.getElem?_modify, if_neg hi]
  have hpeer : s₁.peerOf n = c.peer := peerOf_eq ((hlinks₁ n).trans (if_pos rfl))
  have houtcome : ∀ x, s₁.kernel.outcome? x =
      (s.kernel.outcome? x).or (((outcomesOf es).lookup x).map (·.map .reply)) := fun x => by
    rw [← hsettled x, ← hparked]
    exact Kernel.outcome?_add rfl
  refine
    { read := ?_
      pending := by rw [hpeer, hhandled.pending]
      ends := fun {e} he => ?_
      others := fun {i} hi => ?_
      keeps := fun {x} _ _ hx => ?_ }
  · obtain ⟨bytes, hbytes, hdrain⟩ := hread
    rw [← hpeer] at hdrain
    exact ⟨l, _, bytes, hl, (hlinks₁ n).trans (if_pos rfl), hbytes, hdrain⟩
  · rw [houtcome]
    cases hopen : s.kernel.outcome? e.future with
    | some o => rfl
    | none =>
      rw [hhandled.lookup hdistinct he (Kernel.isDone_eq_false_iff.2 hopen)]
      cases firstVerdict e.uid payloads with
      | none => rfl
      | some r => cases r <;> rfl
  · rw [peerOf, peerOf, hlinks₁, if_neg (Ne.symm hi)]
  · rw [houtcome]
    cases hlookup : (outcomesOf es).lookup x with
    | none => exact Option.or_none
    | some o =>
      obtain ⟨r, hmem, -⟩ := Peer.mem_settlements_of_lookup hlookup
      obtain ⟨e, he, hfuture, -⟩ := (hhandled.settled x r).1 hmem
      exact absurd hfuture (hx e he)

lemma peerOf_follow (s : Supervisor) (t : Id) (course : Course Routine) (i : Nat) :
    (s.follow t course).peerOf i = s.peerOf i := by
  cases course <;> rfl

/-- However a listener goes on, its peer is what has become of it while it listened. -/
lemma peerOf_followListener {l : Link} (hl : s.links[n]? = some l)
    (r : Connection Nat × List (Peer.Effect Nat) × Connection.Pause) :
    (s.followListener n r).1.peerOf n = r.1.peer := by
  obtain ⟨c, es, why⟩ := r
  have hself : (s.updateLink n fun l => { l with connection := c }).peerOf n = c.peer := by
    rw [peerOf_updateLink, hl, Option.elim, if_pos rfl]
  have happlied : (s.applyAll n c es).peerOf n = c.peer :=
    ((Unheard.foldl (Unheard.apply n) es).peers n).trans hself
  unfold followListener
  dsimp only
  split
  · next l' _ =>
    rw [peerOf_updateLink]
    generalize hlinks : links _ = links
    change (s.applyAll n c es).links = links at hlinks
    subst hlinks
    rw [← happlied, peerOf]
    cases (s.applyAll n c es).links[n]? with
    | none => rfl
    | some l => rw [Option.elim, Option.elim, if_pos rfl]
  · exact happlied

/-- The turn of a listener, from its very beginning, that leaves the peer open. -/
lemma Sound.heeded (h : Sound p (some t) s) {l : Link} (hl : s.links[n]? = some l)
    {r : Connection Nat × List (Peer.Effect Nat) × Connection.Pause}
    (hout : l.connection.peer.Outward r.1.peer r.2.1) (hframes : Peer.frames r.2.1 = [])
    (htreated : r.1.peer.closed = false → r.2.2 = .blocked ∧
      ∃ payloads, l.connection.Treated r.1 s.kernel.isDone payloads r.2.1)
    (hopen : (((s.followListener n r).1.follow t (s.followListener n r).2).peerOf n).closed = false) :
    ∃ payloads, Heeded t n s ((s.followListener n r).1.follow t (s.followListener n r).2) payloads := by
  rw [peerOf_follow, peerOf_followListener hl] at hopen
  obtain ⟨c, es, why⟩ := r
  obtain ⟨rfl, payloads, htreated⟩ := htreated hopen
  obtain ⟨s₁, g, hfollow, hheeded, hleaf, hnew⟩ :=
    heeded_followListener (t := t) h.toTidy hl htreated (hout.inner hframes hopen)
  rw [show s.followListener n (c, es, .blocked) = _ from hfollow]
  have hpause : Kernel.Untouched (fun x => x < s.kernel.futures.size ∧ x ≠ t) (fun _ => True) s₁.kernel
      (s₁.kernel.suspend t (.listen n) g) :=
    .pause _ (fun ht => ht.2 rfl) hleaf fun hg => absurd hg.1 (Nat.not_lt.2 hnew)
  refine ⟨payloads, hheeded.read, hheeded.pending, fun {e} he => ?_, hheeded.others, fun {x} hx ht hno => ?_⟩
  · have htask : e.future ≠ t := fun heq => by
      obtain ⟨a, ha, -⟩ := h.runs t rfl
      cases (h.toTidy.loose_of_pending he).2.1.symm.trans (heq ▸ ha)
    exact (hpause.outcome ⟨h.toTidy.lt_of_pending he, htask⟩).trans (hheeded.ends he)
  · exact (hpause.outcome ⟨hx, ht⟩).trans (hheeded.keeps hx ht hno)

/-- What is known at the beginning of a turn is so at the beginning of the step. -/
lemma Heeded.of_roused {k : Machine} {payloads : List Text}
    (h : Heeded t n { s with kernel := k } s' payloads) (hroused : Kernel.Roused s.kernel k t) :
    Heeded t n s s' payloads where
  read := h.read
  pending := h.pending
  ends hc := (h.ends hc).trans (by rw [hroused.outcome])
  others := h.others
  keeps hx ht hno := (h.keeps (Nat.lt_of_lt_of_le hx hroused.widens.size) ht hno).trans (hroused.outcome _)

/-- Whoever listens on a connection, and leaves it open, has treated in its turn all payloads that have
arrived. -/
theorem Scene.Sound.heeds (h : c.Sound p) (hturn : GoesOn t (.listen n) m input c c')
    (hlink : n < c.supervisor.links.size) (hopen : (c'.supervisor.peerOf n).closed = false) :
    ∃ payloads, Heeded t n c.supervisor c'.supervisor payloads := by
  obtain ⟨l, hl⟩ : ∃ l, c.supervisor.links[n]? = some l := ⟨_, Array.getElem?_eq_getElem hlink⟩
  have hmem := Array.mem_of_getElem? hl
  have hrefuses := (h.sound.links l hmem).refuses
  have hdistinct := (h.sound.apart.ordered l hmem).distinct
  cases hturn with
  | @«begins» s s' calls limit k hnext hstep =>
    have hdue := h.sound.due hnext rfl
    generalize hlistened : l.connection.beginListening k.isDone k.now = r at *
    have hs' : s' = ((followListener { s with kernel := k } n r).1.follow t
        (followListener { s with kernel := k } n r).2) := by
      subst hlistened
      rw [step?, hnext] at hstep
      cases hstep
      simp only [Supervisor.begin, beginListening, hl]
    rw [hs'] at hopen ⊢
    obtain ⟨payloads, hheeded⟩ := hdue.sound.heeded hl
      (hlistened ▸ Connection.outward_beginListening _ _ _)
      (hlistened ▸ Connection.frames_beginListening hrefuses _ _)
      (Connection.treated_beginListening hdistinct hlistened) hopen
    exact ⟨payloads, hheeded.of_roused hdue.roused⟩
  | @resumes s s' calls limit k hnext hstep =>
    have hdue := h.sound.due hnext rfl
    generalize hlistened : l.connection.resumeListening k.isDone k.now input = r at *
    have hs' : s' = ((followListener { s with kernel := k } n r).1.follow t
        (followListener { s with kernel := k } n r).2) := by
      subst hlistened
      rw [step?, hnext] at hstep
      cases hstep
      simp only [Supervisor.resume, proceed, resumeListening, hl]
    rw [hs'] at hopen ⊢
    obtain ⟨payloads, hheeded⟩ := hdue.sound.heeded hl
      (hlistened ▸ Connection.outward_resumeListening _ _ _ _)
      (hlistened ▸ Connection.frames_resumeListening hrefuses _ _ _)
      (Connection.treated_resumeListening hdistinct hlistened) hopen
    exact ⟨payloads, hheeded.of_roused hdue.roused⟩
  | entered hrequest => cases hrequest

/-! ## What callers are told -/

/-- A task that was not made in this very turn has stood where it goes on. -/
lemma GoesOn.stood (hturn : GoesOn t r m input c c') (hs : c.Sound p) (hr : r.isRequest = false) :
    ∃ a, c.supervisor.kernel.activity? t = some a ∧ a.body = some r := by
  cases hturn with
  | «begins» hnext => exact (hs.sound.due hnext rfl).stood
  | resumes hnext => exact (hs.sound.due hnext rfl).stood
  | entered hrequest => simp [hr] at hrequest

/-- A call that waited returns its verdict. -/
lemma resumeCall_verdict (h : Tidy p s) (hon : On s.opened link n) (v : Except Failure Sexp) :
    ∃ s', s.resumeCall n (.awaiting uid f) (verdictOutcome v) = (s', .ends (verdictOutcome v)) := by
  obtain ⟨y, hy, -⟩ := hon
  have hl : s.linkOf? n = s.links[y.link]? := by rw [linkOf?, hy, Option.bind_some]
  rw [Array.getElem?_eq_getElem (h.opened hy).1] at hl
  simp only [resumeCall, hy, hl]
  cases v <;> exact ⟨_, rfl⟩

/-- Whoever waits for the reply to its call is asked to cancel, or it is told what its future was settled
with; a verdict is what the call returns. -/
theorem Scene.Sound.returns (h : c.Sound p) (hall : c.supervisor.Attentive)
    (hturn : GoesOn u r m input c c') (hcall : r.call? = some (n, .awaiting uid f)) :
    (input = .cancelled ∨ c.supervisor.kernel.outcome? f = some input) ∧
      ∀ v, input = verdictOutcome v →
        ∃ s', m.resumeCall n (.awaiting uid f) input = (s', .ends input) := by
  have hhelps : r.helps = false := by cases r <;> first | rfl | cases hcall
  have hrequest : r.isRequest = false := by cases r <;> first | rfl | cases hcall
  obtain ⟨hgiven, -⟩ := h.goesOn hturn hhelps
  have hopened : m.opened = c.supervisor.opened := by rw [hgiven.same]
  obtain ⟨a, ha, hbody⟩ := hturn.stood h hrequest
  obtain ⟨link, uid', f', hst, hwaits, hon, -⟩ := (hall ha hbody).call hcall
  cases hst
  rw [← hopened] at hon
  refine ⟨?_, fun v hv => hv ▸ resumeCall_verdict hgiven.sound.toTidy hon v⟩
  cases hturn with
  | @«begins» s s' calls limit k hnext =>
    have hnext' : Kernel.Next p Routine.Quiet s.kernel k (.begin u r) :=
      Kernel.next_of_next? h.sound.follows h.sound.waking hnext
    cases hnext' with
    | «begin» ha' _ hidle =>
      cases ha.symm.trans ha'
      cases hidle.symm.trans hwaits
  | @resumes s s' calls limit k hnext =>
    have hnext' : Kernel.Next p Routine.Quiet s.kernel k (.resume u r input) :=
      Kernel.next_of_next? h.sound.follows h.sound.waking hnext
    cases hnext' with
    | @resume _ g a' _ o ha' _ hwaited houtcome =>
      cases ha.symm.trans ha'
      cases hwaited.symm.trans hwaits
      cases a.mustCancel with
      | true => exact .inl rfl
      | false => exact .inr houtcome
  | entered hentered => cases hrequest.symm.trans hentered

end Supervisor

end SuggestBridge
