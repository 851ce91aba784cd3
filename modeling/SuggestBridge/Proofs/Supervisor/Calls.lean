import SuggestBridge.Proofs.Supervisor.Tracking

/-!
# Calls under way

Any number of tasks may call over one session.  Each of them waits for a future of its own, and the peer of
the connection lists this future under the number of the call.  No other call, over whatever connection,
has the same future, and no later call over the connection has the same number (`Attends`).  A request that
waits for its answer with a time limit has a task that does nothing but call (`CallsOver`).

Both hold of all tasks at any time (`Attentive`).  A task that waits is in `Standing`, and it stays so while
other tasks have their turns: whatever they do, calls end, and others begin with new numbers and through
futures that nobody waits for (`Ages`).  So it is enough to look at the end of each turn, where the only
place at which a call can begin to wait is `beginCall`.
-/

namespace SuggestBridge

open SuggestBridge.Task

namespace Connection

variable {κ : Type} {c : Connection κ}

/-- How a call begins over a connection where nothing holds up what is written. -/
lemma beginCall_of_clear (h : c.Clear) (isDone : Task.Id → Bool) (now : Float)
    (future drained : Task.Id) (method : Text) (args : List Sexp) :
    c.beginCall isDone now future drained method args =
        (c, [], .ends (.failure (.closed Peer.closedMessage))) ∨
      (∃ m, c.beginCall isDone now future drained method args =
        ({ c with peer := numbered c.peer }, [], .ends (.failure (.unencodable m)))) ∨
      ∃ frame, c.beginCall isDone now future drained method args =
        ({ c with peer := listed c.peer method future now }, [.send frame],
          .waits (.awaiting c.peer.nextUid future) future) := by
  obtain ⟨hwrite, hdrain, hfree⟩ := h
  rw [beginCall]
  cases hclosed : c.peer.closed with
  | true =>
    rw [issue_of_closed c.peer now future method args hclosed]
    exact .inl rfl
  | false =>
    refine .inr ?_
    cases hframe : Peer.frameOf (Peer.callMessage c.peer.nextUid method args) with
    | error e =>
      simp only [Peer.issue, hclosed, hframe, Bool.false_eq_true, if_false, numbered]
      exact .inl ⟨_, rfl⟩
    | ok frame =>
      simp only [Peer.issue, hclosed, hframe, Bool.false_eq_true, if_false, hwrite, hdrain, hfree,
        listed, numbered]
      exact .inr ⟨frame, rfl⟩

end Connection

namespace Supervisor

variable {p p' : Plan} {s s' s'' m : Supervisor} {k : Machine} {turn : Option Id} {t u f : Id}
variable {c c' d : Scene} {keys : List Text} {n link uid : Nat} {r : Routine} {x : Option Id}
variable {input : Outcome Value Failure}

/-! ## Who calls -/

/-- The session over which the request of a client calls itself, and where that call stands. -/
def Asking.call? : Asking → Option (Nat × Connection.CallState)
  | .calling _ session state => some (session.handle, state)
  | _ => none

/-- The session over which the request of a client has another task call, and the wait for its end. -/
def Asking.timed? : Asking → Option (Nat × Deadline)
  | .timed _ session w => some (session.handle, w)
  | _ => none

namespace Routine

/-- The session over which a routine calls, and where the call stands. -/
def call? : Routine → Option (Nat × Connection.CallState)
  | .calling n state => some (n, state)
  | .answering a | .asking a => a.call?
  | _ => none

/-- The session over which a routine has another task call, and the wait for its end. -/
def timed? : Routine → Option (Nat × Deadline)
  | .answering a | .asking a => a.timed?
  | _ => none

/-- The session of a routine that does nothing but call. -/
def callsOver? : Routine → Option Nat
  | .call n _ _ | .calling n _ => some n
  | _ => none

/-- A routine that does not call, nor has another one do so. -/
structure Aloof (r : Routine) : Prop where
  call : r.call? = none
  timed : r.timed? = none
  callsOver : r.callsOver? = none

end Routine

/-! ## What no call is concerned with -/

lemma widens_notify (k : Machine) (s : Stream Failure) (o : Outcome Value Failure) :
    k.Widens (Stream.notify k s o).1 := by
  rw [Stream.notify]
  split
  · exact .settle _ o
  · exact .of_activity rfl (fun _ => id) fun _ => rfl

lemma widens_feed (data : Bytes) (k : Machine) (s : Stream Failure) : k.Widens (s.feed k data).1 := by
  rw [Stream.feed]
  split
  · exact .of_activity rfl (fun _ => id) fun _ => rfl
  · exact widens_notify k { s with buffer := s.buffer ++ data } _

lemma widens_finish (k : Machine) (s : Stream Failure) : k.Widens (s.finish k).1 :=
  widens_notify k { s with ended := true } _

lemma widens_settleAll (k : Machine) (ws : List Id) (o : Outcome Value Failure) :
    k.Widens (ws.foldl (fun k w => k.settle w o) k) := by
  induction ws generalizing k with
  | nil => exact .of_activity rfl (fun _ => id) fun _ => rfl
  | cons w ws ih => exact (Kernel.Widens.settle w o).trans (ih _)

/-- Nothing has become of the sessions and of the peers. -/
structure Unheard (s s' : Supervisor) : Prop where
  opened : s'.opened = s.opened
  peers : ∀ n, s'.peerOf n = s.peerOf n
  widens : s.kernel.Widens s'.kernel

namespace Unheard

lemma of_kernel (hopened : s'.opened = s.opened) (hlinks : s'.links = s.links)
    (hwide : s.kernel.Widens s'.kernel) : Unheard s s' :=
  ⟨hopened, fun n => by rw [peerOf, peerOf, hlinks], hwide⟩

lemma of_eq (hopened : s'.opened = s.opened) (hlinks : s'.links = s.links)
    (hkernel : s'.kernel = s.kernel) : Unheard s s' :=
  .of_kernel hopened hlinks (hkernel ▸ .of_activity rfl (fun _ => id) fun _ => rfl)

lemma refl (s : Supervisor) : Unheard s s := .of_eq rfl rfl rfl

lemma trans (h : Unheard s s') (h' : Unheard s' s'') : Unheard s s'' :=
  ⟨h'.opened.trans h.opened, fun n => (h'.peers n).trans (h.peers n), h.widens.trans h'.widens⟩

lemma foldl {α : Type} {f : Supervisor → α → Supervisor} (hf : ∀ s y, Unheard s (f s y)) (ys : List α) :
    Unheard s (ys.foldl f s) := by
  induction ys generalizing s with
  | nil => exact .refl s
  | cons y ys ih => exact (hf s y).trans ih

/-- A connection changes, but not its peer. -/
lemma updateLink (s : Supervisor) (n : Nat) {f : Link → Link}
    (hf : ∀ l, (f l).connection.peer = l.connection.peer) : Unheard s (s.updateLink n f) := by
  refine { Unheard.refl s with peers := fun m => ?_ }
  rw [peerOf_updateLink, peerOf]
  cases s.links[m]? with
  | none => rfl
  | some l =>
    simp only [Option.elim]
    split
    · exact hf l
    · rfl

section Streams

variable {f : Machine → Stream Failure → Machine × Stream Failure}
  (hf : ∀ (k : Machine) (t : Stream Failure), k.Widens (f k t).1)
include hf

lemma onOutput (s : Supervisor) (pid : Nat) (o : Daemon.Output) : Unheard s (s.onOutput pid o f) := by
  rw [Supervisor.onOutput]
  split
  · exact .refl s
  · exact .of_kernel rfl rfl (hf _ _)

lemma onIncoming (s : Supervisor) (n : Nat) : Unheard s (s.onIncoming n f) := by
  rw [Supervisor.onIncoming]
  split
  · exact .refl s
  · next l _ =>
    have hkernel : Unheard s { s with kernel := (f s.kernel l.connection.incoming).1 } :=
      .of_kernel rfl rfl (hf _ _)
    exact hkernel.trans (.updateLink _ n fun _ => rfl)

end Streams

lemma receive (s : Supervisor) (n : Nat) (data : Bytes) : Unheard s (s.receive n data) := by
  rw [Supervisor.receive]
  split
  · split
    · exact .onIncoming (widens_feed data) s n
    · exact .refl s
  · exact .refl s

lemma receiveMessage (s : Supervisor) (n : Nat) (message : Sexp) :
    Unheard s (s.receiveMessage n message) := by
  rw [Supervisor.receiveMessage]
  split
  · exact .receive s n _
  · exact .refl s

lemma hangUp (s : Supervisor) (n : Nat) : Unheard s (s.hangUp n) := by
  rw [Supervisor.hangUp]
  split
  · split
    · have hmark : Unheard s (s.updateLink n fun l => { l with isOpen := false }) :=
        .updateLink s n fun _ => rfl
      exact hmark.trans (.onIncoming widens_finish _ n)
    · exact .refl s
  · exact .refl s

lemma exit (s : Supervisor) (pid : Nat) (code : Int) : Unheard s (s.exit pid code) := by
  rw [Supervisor.exit]
  split
  · exact .refl s
  · next q _ =>
    split
    · exact .refl s
    · have hsettled : Unheard s
          { s.updateProcess pid fun q =>
              { q with exitCode := some code, reaped := true, exitWaiters := [] } with
            kernel := q.exitWaiters.foldl (fun k w => k.settle w (.value .unit)) s.kernel } :=
        .of_kernel rfl rfl (widens_settleAll _ q.exitWaiters (.value .unit))
      have hended := hsettled.trans
        ((onOutput widens_finish _ pid .stdout).trans (onOutput widens_finish _ pid .stderr))
      dsimp only
      split
      · exact hended.trans (.hangUp _ _)
      · exact hended

lemma serve (s : Supervisor) (n : Nat) (q : Daemon.Process) (payload : Text) :
    Unheard s (s.serve n q payload) := by
  rw [Supervisor.serve]
  split
  · exact .refl s
  · dsimp only
    generalize hnoted : s.note _ = s₁
    have hnote : Unheard s s₁ := hnoted ▸ .of_eq rfl rfl rfl
    refine hnote.trans ?_
    split
    · exact .receiveMessage _ n _
    · exact .of_kernel rfl rfl (.of_activity rfl (fun _ => id) fun _ => rfl)
    · exact .exit _ _ _
    · exact .hangUp _ n
    · exact .receive _ n _
    · exact .refl _

/-- Whatever a daemon does when it is sent something, it does not change what calls wait. -/
lemma transmit (s : Supervisor) (n : Nat) (frame : Bytes) : Unheard s (s.transmit n frame) := by
  rw [Supervisor.transmit]
  split
  · exact .refl s
  · split
    · exact .foldl (fun s => serve s n _) _
    · exact .refl s

lemma report (s : Supervisor) (lines : List LogLine) : Unheard s (s.report lines) := .of_eq rfl rfl rfl

lemma kill (s : Supervisor) (pid : Nat) : Unheard s (s.kill pid).1 := by
  have hnote : ∀ event, Unheard s (s.note event) := fun _ => .of_eq rfl rfl rfl
  rw [Supervisor.kill]
  split
  · exact .refl s
  · split
    · exact .refl s
    · dsimp only
      split
      · exact (hnote _).trans (.exit _ _ _)
      · exact hnote _
      · split
        · exact hnote _
        · exact (hnote _).trans (.of_kernel rfl rfl (.of_activity rfl (fun _ => id) fun _ => rfl))

/-- The end of a session does not change what calls wait. -/
lemma onPeerClosed (s : Supervisor) (n : Nat) : Unheard s (s.onPeerClosed n) := by
  rw [Supervisor.onPeerClosed]
  split
  · exact .refl s
  · next x _ =>
    have hevict : Unheard s (s.evict n) := by
      rw [Supervisor.evict]
      split
      · exact .refl s
      · split
        · split
          · exact .of_eq rfl rfl rfl
          · exact .refl s
        · exact .refl s
    dsimp only
    split
    · exact hevict
    · generalize hreport : (s.evict n).report _ = s₁
      have hlost : Unheard s s₁ := hevict.trans (hreport ▸ .report _ _)
      have hkill : Unheard s (s₁.kill x.pid).1 := hlost.trans (.kill s₁ x.pid)
      generalize s₁.kill x.pid = killed at hkill ⊢
      obtain ⟨s₂, fault⟩ := killed
      cases fault with
      | none => exact hkill
      | some fault => exact hkill.trans (.report s₂ _)

/-- What a peer has happen does not change what calls wait. -/
lemma apply (n : Nat) (s : Supervisor) (e : Peer.Effect Nat) : Unheard s (apply n s e) := by
  cases e with
  | send frame => exact .transmit s n frame
  | settle f r => exact .of_kernel rfl rfl (.settle f _)
  | log line => exact .report s _
  | closeConnection => exact .updateLink s n fun _ => rfl
  | callback m => exact .onPeerClosed s m

end Unheard

/-! ## The futures of calls -/

/-- The call with the number `uid` over a connection has the future `f` for itself, as long as it is
listed. -/
structure Attends (s : Supervisor) (link uid : Nat) (f : Id) : Prop where
  leaf : s.kernel.Leaf f
  used : uid < (s.peerOf link).nextUid
  own : ∀ {m c}, c ∈ (s.peerOf m).pending → (c.future = f ↔ m = link ∧ c.uid = uid)

lemma Attends.unheard (h : s.Attends link uid f) (hu : Unheard s s') : s'.Attends link uid f where
  leaf := hu.widens.leaf h.leaf
  used := by rw [hu.peers]; exact h.used
  own {m c} hc := by
    rw [hu.peers] at hc
    exact h.own hc

/-- New calls have new numbers, and nobody gets the future of one who waits. -/
lemma Attends.onward (h : s.Attends link uid f) (hon : Onward p p' turn s s') {a : Activity Routine}
    (ht : turn ≠ some t) (ha : s.kernel.activity? t = some a) (hwaits : a.waitingFor = some f) :
    s'.Attends link uid f where
  leaf := hon.widens.leaf h.leaf
  used := Nat.lt_of_lt_of_le h.used (hon.ages.peers link).nextUid
  own {m c} hc := by
    rcases (hon.ages.peers m).pending c hc with hold | ⟨hle, hnew⟩
    · exact h.own hold
    · refine ⟨fun heq => absurd (heq ▸ hwaits) (hnew ht ha), ?_⟩
      rintro ⟨rfl, rfl⟩
      exact absurd h.used (Nat.not_lt.2 hle)

lemma Tidy.ordered_peerOf (h : Tidy p s) (n : Nat) : (s.peerOf n).Ordered := by
  rw [peerOf]
  cases hl : s.links[n]? with
  | none => exact ⟨⟨List.nodup_nil, List.nodup_nil⟩, fun _ hc => absurd hc List.not_mem_nil⟩
  | some l => exact h.apart.ordered l (Array.mem_of_getElem? hl)

lemma Tidy.loose_of_pending (h : Tidy p s) {e : PendingCall} (he : e ∈ (s.peerOf n).pending) :
    s.kernel.Loose p e.future := by
  rw [peerOf] at he
  cases hl : s.links[n]? with
  | none =>
    rw [hl] at he
    exact absurd he List.not_mem_nil
  | some l =>
    rw [hl] at he
    exact (h.links l (Array.mem_of_getElem? hl)).awaits e he

lemma Tidy.lt_of_pending (h : Tidy p s) {e : PendingCall} (he : e ∈ (s.peerOf n).pending) :
    e.future < s.kernel.futures.size := (h.loose_of_pending he).1

/-- A call that begins to wait waits for a future of its own. -/
lemma attends_beginCall (h : Tidy p s) {method : Text} {args : List Sexp}
    {st : Connection.CallState} {g : Id} (hcall : s.beginCall n method args = (s', .waits st g)) :
    ∃ link uid, st = .awaiting uid g ∧ On s'.opened link n ∧ s'.Attends link uid g := by
  unfold beginCall at hcall
  split at hcall
  swap
  · cases hcall
  next y l hy hlink =>
    have hl := links_of_linkOf? hy hlink
    have hmem := Array.mem_of_getElem? hl
    dsimp only at hcall
    rcases Connection.beginCall_of_clear (h.links l hmem).clear
      (s.kernel.fresh.1.fresh.1.isDone) s.kernel.fresh.1.fresh.1.now s.kernel.fresh.2
      s.kernel.fresh.1.fresh.2 method args with heq | ⟨m, heq⟩ | ⟨frame, heq⟩
    · rw [heq] at hcall
      cases hcall
    · rw [heq] at hcall
      cases hcall
    · rw [heq] at hcall
      dsimp only [followCall] at hcall
      obtain ⟨hs', hprogress⟩ := Prod.mk.inj hcall
      cases hprogress
      generalize hpeer : Connection.listed l.connection.peer method s.kernel.fresh.2 _ = peer at hs'
      -- what is sent is of no concern to calls
      have hsent : Unheard ({ s with kernel := s.kernel.fresh.1.fresh.1 }.updateLink y.link fun l' =>
          { l' with connection := { l.connection with peer } }) s' :=
        hs' ▸ .transmit _ y.link frame
      refine ⟨y.link, l.connection.peer.nextUid, rfl, ⟨y, hsent.opened ▸ hy, rfl⟩, .unheard ?_ hsent⟩
      have hpeers : ∀ m, (updateLink { s with kernel := s.kernel.fresh.1.fresh.1 } y.link fun l' =>
          { l' with connection := { l.connection with peer } }).peerOf m =
            if y.link = m then peer else s.peerOf m := fun m => by
        rw [peerOf_updateLink]
        split
        · next hm => rw [← hm, show s.links[y.link]? = some l from hl, Option.elim]
        · rfl
      have hself := peerOf_eq hl
      have hwide : s.kernel.fresh.1.Widens s.kernel.fresh.1.fresh.1 := .fresh _
      refine ⟨hwide.leaf (Kernel.leaf_fresh _), ?_, fun {m e} he => ?_⟩
      · rw [hpeers, if_pos rfl, ← hpeer]
        exact Nat.lt_succ_self _
      · have hold : ∀ {m e}, e ∈ (s.peerOf m).pending → e.future ≠ s.kernel.fresh.2 :=
          fun he => Nat.ne_of_lt (h.lt_of_pending he)
        rw [hpeers] at he
        split at he
        · next hm =>
          subst hm
          rw [← hpeer] at he
          rcases List.mem_append.1 he with he | he
          · rw [← hself] at he
            refine ⟨fun heq => absurd heq (hold he), fun huid => ?_⟩
            have hlt := (h.ordered_peerOf y.link).used e he
            rw [hself] at hlt
            exact absurd hlt (Nat.not_lt.2 (Nat.le_of_eq huid.2.symm))
          · rw [List.mem_singleton.1 he]
            exact ⟨fun _ => ⟨rfl, rfl⟩, fun _ => rfl⟩
        · next hm => exact ⟨fun heq => absurd heq (hold he), fun huid => absurd huid.1.symm hm⟩

/-! ## Where callers stand -/

/-- A task does nothing but call over a session, or it has ended. -/
def CallsOver (s : Supervisor) (n : Nat) (u : Id) : Prop :=
  Stays (fun _ _ r => r.callsOver? = some n) (fun _ => True) {} s u

lemma CallsOver.of_kept (h : s.CallsOver n u)
    (hout : ∀ {o}, s.kernel.outcome? u = some o → s'.kernel.outcome? u = some o)
    (hkept : ∀ {a r}, s.kernel.activity? u = some a → a.body = some r → r.callsOver? = some n →
      ∃ b, s'.kernel.activity? u = some b ∧ b.body = a.body) : s'.CallsOver n u := by
  rcases h with ⟨a, r, ha, hbody, hr⟩ | ⟨o, ho, -⟩
  · obtain ⟨b, hb, hbody'⟩ := hkept ha hbody hr
    exact .inl ⟨b, r, hb, hbody'.trans hbody, hr⟩
  · exact .inr ⟨o, hout ho, trivial⟩

lemma CallsOver.bears {quiet : Routine → Prop} (h : s.CallsOver n u)
    (hbears : Kernel.Bears quiet s.kernel s'.kernel) : s'.CallsOver n u :=
  h.of_kept hbears.outcome fun ha _ _ => by
    obtain ⟨b, hb, hbody, -⟩ := hbears.kept ha
    exact ⟨b, hb, hbody⟩

/-- A task stands at `r` and waits for `x`, in order as far as calls go. -/
structure Standing (s : Supervisor) (r : Routine) (x : Option Id) : Prop where
  idle : ∀ {n method args}, r = .call n method args → x = none
  call : ∀ {n st}, r.call? = some (n, st) → ∃ link uid f, st = .awaiting uid f ∧ x = some f ∧
    On s.opened link n ∧ s.Attends link uid f
  timed : ∀ {n w}, r.timed? = some (n, w) → s.CallsOver n w.task

/-- All tasks that wait are in order as far as calls go. -/
def Attentive (s : Supervisor) : Prop :=
  ∀ {t a r}, s.kernel.activity? t = some a → a.body = some r → s.Standing r a.waitingFor

lemma Routine.Aloof.standing (h : r.Aloof) : s.Standing r x where
  idle hr := by
    subst hr
    cases h.callsOver
  call hcall := by cases h.call.symm.trans hcall
  timed htimed := by cases h.timed.symm.trans htimed

/-- A routine that is about to begin. -/
lemma standing_of_begins (h : r.begins = true) : s.Standing r none where
  idle _ := rfl
  call hcall := by
    have hnone : r.call? = none := by cases r <;> first | rfl | cases h
    cases hnone.symm.trans hcall
  timed htimed := by
    have hnone : r.timed? = none := by cases r <;> first | rfl | cases h
    cases hnone.symm.trans htimed

lemma Keeps.on (h : Keeps s s') (hon : On s.opened link n) : On s'.opened link n := by
  obtain ⟨y, hy, hlink⟩ := hon
  obtain ⟨z, hz, -, -, hlink'⟩ := h.opened hy
  exact ⟨z, hz, hlink'.trans hlink⟩

/-- A task that waits stays in order while others have their turns. -/
lemma Standing.onward {a : Activity Routine} (h : s.Standing r a.waitingFor)
    (hon : Onward p p' turn s s') (ht : turn ≠ some t) (ha : s.kernel.activity? t = some a)
    (hcalls : ∀ {n u}, s.CallsOver n u → s'.CallsOver n u) : s'.Standing r a.waitingFor where
  idle := h.idle
  call hcall := by
    obtain ⟨link, uid, f, hst, hx, hon', hattends⟩ := h.call hcall
    exact ⟨link, uid, f, hst, hx, hon.keeps.on hon', hattends.onward hon ht ha hx⟩
  timed htimed := hcalls (h.timed htimed)

/-! ## The end of a turn -/

/-- Wherever a turn, or a part of one, comes to wait, the task is in order. -/
structure Places {σ : Type} (wrap : σ → Routine) (part : Supervisor × Course σ) : Prop where
  waits : ∀ {y g}, part.2 = .waits y g → part.1.Standing (wrap y) (some g)

namespace Places

variable {σ τ : Type} {wrap : σ → Routine} {part : Supervisor × Course σ}

lemma ends (s : Supervisor) (o : Outcome Value Failure) : Places wrap (s, .ends o) := ⟨nofun⟩

lemma waiting {y : σ} {g : Id} (h : s.Standing (wrap y) (some g)) : Places wrap (s, .waits y g) := by
  refine ⟨?_⟩
  rintro _ _ ⟨⟩
  exact h

lemma andThen {wrap : σ → τ} {wrap' : τ → Routine}
    {next : Supervisor → Outcome Value Failure → Supervisor × Course τ}
    (h : Places (fun y => wrap' (wrap y)) part)
    (hnext : ∀ {o}, part.2 = .ends o → Places wrap' (next part.1 o)) :
    Places wrap' (Progress.andThen part wrap next) := by
  obtain ⟨s₁, course⟩ := part
  cases course with
  | waits y g => exact .waiting (h.waits rfl)
  | ends o => exact hnext rfl

lemma within (h : Places wrap part) : Places id (within wrap part) := .andThen h fun _ => .ends _ _

/-- A part that neither calls nor has another task call. -/
lemma aloof (h : ∀ y, (wrap y).Aloof) : Places wrap part := ⟨fun _ => (h _).standing⟩

lemma leave (result : Outcome Value Failure) (r : Supervisor × Course Shutdown) :
    Places id (leave result r) :=
  .andThen (.aloof fun _ => ⟨rfl, rfl, rfl⟩) fun _ => by
    split <;> exact .ends _ _

lemma pauseSweeper (s : Supervisor) : Places id s.pauseSweeper :=
  .waiting (Routine.Aloof.standing ⟨rfl, rfl, rfl⟩)

lemma afterSweep (r : Supervisor × Course Sweep) : Places id (afterSweep r) :=
  .andThen (.aloof fun _ => ⟨rfl, rfl, rfl⟩) fun _ => by
    split
    · exact .pauseSweeper _
    · exact .pauseSweeper _
    · exact .ends _ _

/-- A part that goes on to work for a daemon. -/
lemma of_steady {r : Supervisor × Course Routine} (h : Steady true r) : Places id r := by
  refine ⟨fun {r' g} hw => Routine.Aloof.standing ?_⟩
  obtain ⟨hhelps, -⟩ := h.waits hw
  cases r' <;> first | exact ⟨rfl, rfl, rfl⟩ | cases hhelps

/-- It makes no difference what the request of a client is part of. -/
lemma afterAsking {r : Supervisor × Course Asking} (h : Places .answering r) :
    Places id (afterAsking r) := by
  refine .andThen ⟨fun hw => ?_⟩ fun _ => .leave _ _
  have hstanding := h.waits hw
  exact
    { idle := fun hr => by cases hr
      call := fun hcall => hstanding.call hcall
      timed := fun htimed => hstanding.timed htimed }

end Places

/-- A call that begins to wait is in order, whoever makes it. -/
lemma standing_beginCall (h : Tidy p s) {method : Text} {args : List Sexp}
    {st : Connection.CallState} {g : Id} (hcall : s.beginCall n method args = (s', .waits st g))
    (hr : r.call? = some (n, st)) (htimed : r.timed? = none)
    (hidle : ∀ n' method' args', r ≠ .call n' method' args') : s'.Standing r (some g) where
  idle heq := absurd heq (hidle _ _ _)
  call hcall' := by
    cases hr.symm.trans hcall'
    obtain ⟨link, uid, hst, hon, hattends⟩ := attends_beginCall h hcall
    exact ⟨link, uid, g, hst, rfl, hon, hattends⟩
  timed htimed' := by cases htimed.symm.trans htimed'

/-- A call that waited for its reply has ended, however it goes on. -/
lemma resumeCall_ends {st : Connection.CallState} (hst : ∃ uid f, st = .awaiting uid f) {s : Supervisor}
    {st' : Connection.CallState} {g : Id} : (s.resumeCall n st input).2 ≠ .waits st' g := by
  obtain ⟨uid, f, rfl⟩ := hst
  unfold resumeCall
  split
  · intro h
    cases input <;> cases h
  · intro h
    cases h

/-- What a request needs next is carried out until it waits, and then it is in order. -/
lemma places_pursue (h : Tidy p s) (fuel : Nat) {key : Text} {next : Client.Next} {log : List LogLine}
    (hnext : next.Serves key) : Places .answering (s.pursue fuel (next, log)) := by
  induction fuel generalizing s next log with
  | zero => exact .ends s _
  | succ fuel ih =>
    have hlog : Moves p .all s (s.report log) := moves_report log
    have h₁ := h.moves hlog
    unfold pursue
    dsimp only
    split
    · exact .ends _ _
    · exact .ends _ _
    · exact hnext.elim
    · next r session method args =>
      have hserves : ∀ reply, (r.onReply session reply).1.Serves key := fun reply =>
        hnext ▸ (r.closes_onReply session reply).serves
      have hmoves := (turns_beginCall (ω := .all) h₁ session.handle method args).moves
      refine .andThen ⟨fun hw => ?_⟩ fun _ => ?_
      · exact standing_beginCall h₁ (Prod.ext rfl hw) rfl rfl fun _ _ _ hr => by cases hr
      · split
        · exact ih (h₁.moves hmoves) (hserves _)
        · exact .ends _ _
    · next r session method args timeout =>
      have hserves : ∀ reply, (r.onReply session reply).1.Serves key := fun reply =>
        hnext ▸ (r.closes_onReply session reply).serves
      obtain ⟨hmoves, -⟩ : Moves p .all (s.report log) _ ∧ _ :=
        moves_beginWait h₁ timeout.toFloat (r := .call session.handle method args)
          ⟨rfl, rfl, rfl, rfl, rfl⟩
      split
      · next d future heq =>
        obtain ⟨a, ha, hbody⟩ := Kernel.body_begin (Prod.ext rfl heq)
        refine .waiting
          { idle := fun hr => by cases hr
            call := fun hcall => by cases hcall
            timed := fun htimed => ?_ }
        cases htimed
        exact .inl ⟨a, _, ha, hbody, rfl⟩
      · split
        · exact ih (h₁.moves hmoves) (hserves _)
        · exact .ends _ _
    · refine .andThen (.aloof fun _ => ⟨rfl, rfl, rfl⟩) fun _ => ?_
      split <;> exact .ends _ _

lemma places_onOpened (h : Tidy p s) (r : Client.Request) (fuel : Nat) (o : Outcome Value Failure) :
    Places .answering (onOpened r fuel s o) := by
  unfold onOpened
  split
  · exact places_pursue h fuel (r.serves_onSession _)
  · exact .ends s _

lemma places_beginAsking (h : Tidy p s) (c : Client) (q : Query) :
    Places .answering (s.beginAsking c q) := by
  rw [Supervisor.beginAsking]
  rcases Client.Request.begin_eq c q with hnext | hnext
  · have hserves : Client.Next.Serves [] (.ends (.ok [])) := trivial
    rw [hnext]
    exact places_pursue h needs hserves
  · have hlog : Moves p .all s (s.report []) := moves_report []
    rw [hnext, show needs = 3 + 1 from rfl, pursue_session]
    refine .andThen (.aloof fun _ => ⟨rfl, rfl, rfl⟩) fun {o} hends => ?_
    rw [(alive_of_beginAcquiring hends).1]
    exact places_onOpened (h.moves hlog) _ 3 o

/-- A request that goes on: if it waits for a task that calls, then it does so afterwards. -/
lemma places_resumeAsking (h : Tidy p s) {a : Asking} (hrefs : ∀ y ∈ a.refs, s.kernel.Knows p y)
    (hcall : ∀ {n st}, a.call? = some (n, st) → ∃ uid f, st = .awaiting uid f)
    (htimed : ∀ {n w}, a.timed? = some (n, w) → s.CallsOver n w.task)
    (input : Outcome Value Failure) : Places .answering (s.resumeAsking t a input) := by
  cases a with
  | opening r key u =>
    obtain ⟨o, hend, -⟩ := resumeAcquiring_ends s t key u input
    rw [resumeAsking_opening, hend]
    exact places_onOpened h r _ o
  | calling r session state =>
    have hmoves := (turns_resumeCall (ω := .all) h session.handle hrefs input).moves
    rw [resumeAsking]
    refine .andThen ⟨fun hw => absurd hw (resumeCall_ends (hcall rfl))⟩ fun _ => ?_
    split
    · exact places_pursue (h.moves hmoves) _ (r.closes_onReply session _).serves
    · exact .ends _ _
  | timed r session w =>
    obtain ⟨hmoves, -⟩ : Moves p .all s _ ∧ _ :=
      moves_resumeWait h (hrefs w.task (by simp [Asking.refs])) input
    rw [resumeAsking]
    dsimp only
    split
    · next w' future hw =>
      refine .waiting
        { idle := fun hr => by cases hr
          call := fun hcall => by cases hcall
          timed := fun htimed' => ?_ }
      cases htimed'
      rw [Kernel.task_resume hw]
      exact (htimed rfl).bears (Steps.grows hmoves.steps).toBears
    · split
      · exact places_pursue (h.moves hmoves) _ (r.closes_onReply session _).serves
      · exact .ends _ _
  | closing rows w =>
    rw [resumeAsking]
    refine .andThen (.aloof fun _ => ⟨rfl, rfl, rfl⟩) fun _ => ?_
    split <;> exact .ends _ _

/-- Whatever a task does in its turn, it is in order afterwards. -/
lemma places_proceed (h : Tidy p s) (hfits : Fits p s t r x)
    (hcall : ∀ {n st}, r.call? = some (n, st) → ∃ uid f, st = .awaiting uid f)
    (htimed : ∀ {n w}, r.timed? = some (n, w) → s.CallsOver n w.task)
    (input : Outcome Value Failure) : Places id (s.proceed t r input) := by
  cases r with
  | readLine pid => exact .of_steady (steady_readLine h pid input)
  | reap pid => exact .of_steady (steady_reap h pid input)
  | drain key pid output => exact .of_steady (steady_drain h key pid output input)
  | watch n => exact .of_steady (steady_watch h n input)
  | listen n => exact .of_steady (steady_resumeListening h n input)
  | call n method args =>
    refine .within ⟨fun hw => ?_⟩
    exact standing_beginCall h (Prod.ext rfl hw) rfl rfl fun _ _ _ hr => by cases hr
  | calling n state => exact .within ⟨fun hw => absurd hw (resumeCall_ends (hcall rfl))⟩
  | sweeper => exact .pauseSweeper s
  | sweeperPausing timer =>
    cases input with
    | value v => exact .afterSweep _
    | failure e => exact .ends _ _
    | cancelled => exact .ends _ _
  | sweeperSweeping state => exact .afterSweep _
  | ask c q => exact .within (places_beginAsking h c q)
  | answering a => exact .within (places_resumeAsking h hfits.refs hcall htimed input)
  | errand c q => exact .afterAsking (places_beginAsking (h.moves (moves_start (ω := .all) h)) c q)
  | asking a => exact .afterAsking (places_resumeAsking h hfits.refs hcall htimed input)
  | leaving result state => exact .leave _ _
  | _ => exact .within (.aloof fun _ => ⟨rfl, rfl, rfl⟩)

/-- Whoever has not ended after its turn waits. -/
lemma waits_of_follow {course : Course Routine} {a : Activity Routine}
    (ha : (s.follow t course).kernel.activity? t = some a)
    (hopen : (s.follow t course).kernel.outcome? t = none) :
    ∃ r g, course = .waits r g ∧ a.body = some r ∧ a.waitingFor = some g := by
  cases course with
  | waits r g =>
    refine ⟨r, g, rfl, ?_⟩
    cases hb : s.kernel.activity? t with
    | none =>
      have hbears : Kernel.Bears (fun _ => False) (s.kernel.waitFor t r g) (s.kernel.suspend t r g) :=
        Kernel.bears_suspend _ t r g
      rcases hbears.begun ha with ⟨c, hc⟩ | ⟨-, -, _, -, hnone⟩
      · rw [Kernel.activity?_waitFor, hb] at hc
        cases hc
      · exact hnone.elim
    | some b =>
      obtain ⟨c, hc, hbody, hwaiting⟩ := Kernel.exists_activity?_suspend hb r g
      cases hc.symm.trans ha
      exact ⟨hbody, hwaiting⟩
  | ends o =>
    have hsettle : ∀ o, (s.kernel.settle t o).activity? t = some a →
        (s.kernel.settle t o).outcome? t ≠ none := fun o ha hopen => by
      by_cases hlive : s.kernel.IsOpen t
      · cases (Kernel.activity?_settle_self hlive).symm.trans ha
      · rw [Kernel.settle_of_not_isOpen hlive] at ha hopen
        exact hlive ⟨Kernel.lt_size_of_activity? ha, hopen⟩
    rw [follow, Kernel.finish_eq] at ha hopen
    cases o with
    | value v => exact absurd hopen (hsettle _ ha)
    | failure e => exact absurd hopen (hsettle _ ha)
    | cancelled => exact absurd hopen (hsettle _ ha)

/-- A task that does nothing but call goes on to do so until it has ended. -/
lemma Stepped.callsOver (h : Stepped p p' turn keys s s') (hs : Sound p none s)
    (hturn : ∀ {t a}, turn = some t → s.kernel.activity? t = some a → HasTurn p s s' t a)
    (hu : s.CallsOver n u) : s'.CallsOver n u := by
  have hhelps : ∀ {r : Routine}, r.callsOver? = some n → r.helps = false := fun {r} hr => by
    cases r <;> first | rfl | cases hr
  have hstays : Stays (fun _ _ r => r.callsOver? = some n) (fun _ => True) p s u := hu
  refine h.stays hs hturn hstays hhelps trivial id fun {r m input} hr hgiven hafter => ?_
  have hstarts : r.starts? = none := by cases r <;> first | rfl | cases hr
  obtain ⟨p₁, hsound⟩ := (hgiven.rests hstarts).sound
  rw [hafter, resume_eq]
  refine hsound.stays_follow (fun {r' g} hw => ?_) (fun _ => trivial) trivial
  have hplace : ∀ {part : Supervisor × Course Connection.CallState},
      (within (.calling n) part).2 = .waits r' g → r'.callsOver? = some n := by
    rintro ⟨s₁, course⟩ hw
    cases course with
    | waits st g => cases hw; rfl
    | ends o => cases hw
  cases r with
  | call | calling =>
    cases hr
    exact hplace hw
  | _ => cases hr

/-- The running task waits from now on. -/
lemma Standing.suspend {g : Id} (h : s.Standing r (some g))
    (hrun : ∀ {a}, s.kernel.activity? t = some a → a.body = none) (b : Routine) (y : Id) :
    Standing { s with kernel := s.kernel.suspend t b y } r (some g) := by
  have hbears : Kernel.Bears (fun _ => True) (s.kernel.waitFor t b y) (s.kernel.suspend t b y) :=
    Kernel.bears_suspend _ t b y
  have hwide : s.kernel.Widens (s.kernel.suspend t b y) := .suspend _ t b y
  refine ⟨h.idle, fun hcall => ?_, fun htimed => ?_⟩
  · obtain ⟨link, uid, f, hst, hx, hon, hattends⟩ := h.call hcall
    exact ⟨link, uid, f, hst, hx, hon, hattends.unheard (.of_kernel rfl rfl hwide)⟩
  · have hwaits : CallsOver { s with kernel := s.kernel.waitFor t b y } _ _ :=
      (h.timed htimed).of_kept (fun ho => Kernel.outcome?_waitFor.trans ho) fun ha hbody _ => by
        refine ⟨_, (Kernel.activity?_waitFor_of_ne ?_).trans ha, rfl⟩
        rintro rfl
        cases (hrun ha).symm.trans hbody
    exact hwaits.bears hbears

lemma Routine.aloof_of_helps (h : r.helps = true) : r.Aloof := by
  cases r <;> first | exact ⟨rfl, rfl, rfl⟩ | cases h

/-- Whoever works for a daemon goes on to do so. -/
lemma HasTurn.helps {a b : Activity Routine} {R : Routine} (h : HasTurn p s s' t a)
    (hbody : a.body = some R) (hR : R.helps = true) (hb : s'.kernel.activity? t = some b)
    (hopen : s'.kernel.outcome? t = none) (hr : b.body = some r) : r.helps = true := by
  have hsteady : ∀ {part : Supervisor × Course Routine}, s' = part.1.follow t part.2 →
      Steady true part → r.helps = true := fun {part} hafter hpart => by
    subst hafter
    obtain ⟨r', g, hw, hr', -⟩ := waits_of_follow hb hopen
    cases hr.symm.trans hr'
    exact (hpart.waits hw).1
  have hproceed : ∀ {k : Machine} (input : Outcome Value Failure), Tidy p { s with kernel := k } →
      Steady true (proceed { s with kernel := k } t R input) := fun {k} input htidy => by
    have hstarts : R.starts? = none := by cases R <;> first | rfl | cases hR
    exact hR ▸ steady_proceed htidy t R hstarts input
  cases h with
  | stillborn _ _ hends hafter =>
    subst hafter
    cases hends.self.2.2.symm.trans hb
  | «begins» hbody' _ _ hdue hafter =>
    cases hbody.symm.trans hbody'
    cases R with
    | listen n => exact hsteady hafter (steady_beginListening hdue.sound.toTidy n)
    | readLine | reap | drain | watch =>
      exact hsteady hafter (hproceed (.value .unit) hdue.sound.toTidy)
    | _ => cases hR
  | resumes hbody' _ _ hdue hafter =>
    cases hbody.symm.trans hbody'
    exact hsteady hafter (hproceed _ hdue.sound.toTidy)

/-- A task that has had its turn is in order if it was so before. -/
lemma Given.standing {R : Routine} (h : Given p s t R m input)
    (hcall : ∀ {n st}, R.call? = some (n, st) → ∃ uid f, st = .awaiting uid f)
    (htimed : ∀ {n w}, R.timed? = some (n, w) → m.CallsOver n w.task) {a : Activity Routine}
    (hopen : (m.resume t R input).kernel.outcome? t = none)
    (ha : (m.resume t R input).kernel.activity? t = some a) (hr : a.body = some r) :
    (m.resume t R input).Standing r a.waitingFor := by
  obtain ⟨y, hfits⟩ := h.fits
  have hplaces : Places id (m.proceed t R input) :=
    places_proceed h.sound.toTidy hfits hcall htimed input
  have hrests := h.rests
  rw [resume_eq] at hopen ha ⊢
  obtain ⟨r', g, hw, hr', hwaiting⟩ := waits_of_follow ha hopen
  cases hr.symm.trans hr'
  have hplace := hplaces.waits hw
  rw [hwaiting, hw]
  by_cases hstarts : R.starts? = none
  · obtain ⟨p₁, hsound⟩ := (hrests hstarts).sound
    refine hplace.suspend (fun hb => ?_) r g
    obtain ⟨b, hb', hbody⟩ := hsound.runs t rfl
    cases hb.symm.trans hb'
    exact hbody
  · have hstartup : ∀ {project : Project} {part : Supervisor × Course Startup},
        (within (.startingUp project) part).2 = .waits r g → r.Aloof := by
      rintro project ⟨s₁, course⟩ hw
      cases course with
      | waits state g => cases hw; exact ⟨rfl, rfl, rfl⟩
      | ends o => cases hw
    cases R with
    | startup | startingUp => exact (hstartup hw).standing
    | _ => exact absurd rfl hstarts

/-- Whatever happens, all tasks stay in order. -/
theorem Stepped.attentive (h : Stepped p p' turn keys s s') (hs : Sound p none s)
    (htakes : Takes p s s' turn) (hall : s.Attentive) : s'.Attentive := by
  have hcalls : ∀ {n u}, s.CallsOver n u → s'.CallsOver n u := fun hu =>
    h.callsOver hs htakes.hasTurn hu
  intro u b r hb hr
  have hopen := h.sound.waking.unsettled hb
  by_cases hu : turn = some u
  swap
  · rcases h.onward.begun hu hb with ⟨a, ha⟩ | ⟨r', hr', hbegins, hidle⟩
    · obtain ⟨c, hc, hbody, hwaiting, -⟩ := h.onward.kept hu ha
      cases hb.symm.trans hc
      exact hwaiting ▸ (hall ha (hbody.symm.trans hr)).onward h.onward hu ha hcalls
    · cases hr.symm.trans hr'
      exact hidle ▸ standing_of_begins hbegins
  subst hu
  cases htakes with
  | @entered R hrequest hafter =>
    have hscene : Scene.Sound p ⟨s, []⟩ := ⟨hs, fun _ ht => absurd ht List.not_mem_nil⟩
    have hbegins := (Routine.isRequest.quiet hrequest).begins
    have hhelps : R.helps = false := by cases R <;> first | rfl | cases hrequest
    obtain ⟨hgiven, hafter'⟩ := hscene.goesOn (.entered hrequest rfl rfl rfl) hhelps
    rw [hafter.trans hafter'] at hb hopen ⊢
    refine hgiven.standing (fun hcall => ?_) (standing_of_begins hbegins).timed hopen hb hr
    obtain ⟨-, uid, f, hst, -⟩ := (standing_of_begins hbegins : s.Standing R none).call hcall
    exact ⟨uid, f, hst⟩
  | @task _ a ha hturn =>
    obtain ⟨R, hbody⟩ : ∃ R, a.body = some R := by
      cases hturn with
      | stillborn _ _ hends hafter =>
        subst hafter
        cases hends.self.2.2.symm.trans hb
      | «begins» hbody => exact ⟨_, hbody⟩
      | resumes hbody => exact ⟨_, hbody⟩
    have hstanding := hall ha hbody
    cases hhelps : R.helps with
    | true => exact (Routine.aloof_of_helps (hturn.helps hbody hhelps hb hopen hr)).standing
    | false =>
      rcases hturn.given hs ha hbody hhelps with ⟨-, k, hends, rfl⟩ | ⟨m, input, hgiven, hafter⟩
      · cases hends.self.2.2.symm.trans hb
      · subst hafter
        refine hgiven.standing (fun hcall => ?_) (fun htimed => ?_) hopen hb hr
        · obtain ⟨-, uid, f, hst, -⟩ := hstanding.call hcall
          exact ⟨uid, f, hst⟩
        · refine (hstanding.timed htimed).of_kept (fun ho => (hgiven.outcome _).trans ho)
            fun {b' r'} hb' hr' hover => ?_
          refine ⟨b', (hgiven.others fun heq => ?_).trans hb', rfl⟩
          -- nobody has itself call
          cases ha.symm.trans (heq ▸ hb')
          cases hbody.symm.trans hr'
          cases R <;> first | (cases hover; done) | cases htimed

/-- In every scene of a run all tasks are in order. -/
theorem Scene.Sound.attentive (h : c.Sound p) (hall : c.supervisor.Attentive) (hrun : Run c keys d) :
    ∃ p', d.Sound p' ∧ d.supervisor.Attentive := by
  induction hrun with
  | refl => exact ⟨p, h, hall⟩
  | tail _ hstep ih =>
    obtain ⟨p₁, hsound, hall₁⟩ := ih
    obtain ⟨p₂, turn, hstepped, hsound₂, htakes⟩ := hsound.takes hstep
    exact ⟨p₂, hsound₂, hstepped.attentive hsound.sound htakes hall₁⟩

end Supervisor

end SuggestBridge
