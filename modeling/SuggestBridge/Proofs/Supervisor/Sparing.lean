import SuggestBridge.Proofs.Supervisor.Run
import SuggestBridge.Proofs.Task.Frames

/-!
# What is left alone

A `Ward` is a startup in a slot, with its process, its session and its connection.  `Spares` says that
a ward is left alone, and every operation on other processes, sessions and connections does so.  What
has to be known of them is little: a process and a session must not be those of the ward.  A connection
of the ward may run to somebody else's process, whose end is the end of the bytes that come over it; even
that leaves the peer of the connection as it is.  That no future is kept in two places, that the
calls of two connections are different ones, and that a startup is asked to cancel by nobody but whoever
empties its slot is part of the supervisor being in order (`Secure`).
-/

namespace SuggestBridge.Supervisor

open SuggestBridge.Task

/-- A startup in the slot of a key, with all that belongs to it. -/
structure Ward where
  key : Text
  startup : Id
  /-- The startup, and the calls that wait over its connection. -/
  futures : Id → Prop
  process : Nat → Prop
  session : Nat → Prop
  link : Nat → Prop
  /-- The connections that run to no other process than one of the ward. -/
  line : Nat → Prop
  lines : ∀ {n}, line n → link n

/-- That a process of the ward is to exit. -/
def Ward.barred (w : Ward) : Hook → Prop
  | .exit pid _ => w.process pid
  | _ => False

/-- The end of a process closes a connection. -/
def Serves (s : Supervisor) (pid n : Nat) : Prop :=
  ∃ q, s.process? pid = some q ∧ q.connection = some n

variable {p : Plan} {w : Ward} {running : Option Id} {s s' s'' : Supervisor} {k : Machine}
  {n m pid : Nat} {x : Id}

/-- A ward is left alone. -/
structure Spares (w : Ward) (s s' : Supervisor) : Prop where
  slots : s'.slots = s.slots
  kernel : Kernel.Untouched w.futures w.barred s.kernel s'.kernel
  running : ∀ {pid}, w.process pid → s'.isRunning pid = s.isRunning pid
  sessions : ∀ {n}, w.session n → s'.opened[n]? = s.opened[n]?
  /-- The calls that wait for their replies are the same, and a peer that is open stays so. -/
  peers : ∀ {n}, w.link n → s'.peerOf n = s.peerOf n
  lines : ∀ {n}, w.line n → s'.links[n]? = s.links[n]?
  serves : ∀ {pid n}, w.line n → s'.Serves pid n → s.Serves pid n

namespace Spares

lemma refl (w : Ward) (s : Supervisor) : Spares w s s where
  slots := rfl
  kernel := .refl s.kernel
  running _ := rfl
  sessions _ := rfl
  peers _ := rfl
  lines _ := rfl
  serves _ := id

lemma trans (h : Spares w s s') (h' : Spares w s' s'') : Spares w s s'' where
  slots := h'.slots.trans h.slots
  kernel := h.kernel.trans h'.kernel
  running hpid := (h'.running hpid).trans (h.running hpid)
  sessions hn := (h'.sessions hn).trans (h.sessions hn)
  peers hn := (h'.peers hn).trans (h.peers hn)
  lines hn := (h'.lines hn).trans (h.lines hn)
  serves hn hserves := h.serves hn (h'.serves hn hserves)

lemma of_kernel (h : Kernel.Untouched w.futures w.barred s.kernel k) :
    Spares w s { s with kernel := k } := { Spares.refl w s with kernel := h }

lemma report (lines : List LogLine) : Spares w s (s.report lines) := { Spares.refl w s with }

lemma track (h : Spares w s s') (hlt : ∀ x, w.futures x → x < s'.kernel.futures.size) (r : Routine) :
    Spares w s (s'.track r) := { h with kernel := h.kernel.trans (.spawn hlt r) }

lemma updateProcess {f : Daemon.Process → Daemon.Process} (hsame : ∀ q, (f q).pid = q.pid)
    (hrun : w.process pid → ∀ q, (f q).isRunning = q.isRunning)
    (hconnection : ∀ q n, w.line n → (f q).connection = some n → q.connection = some n) :
    Spares w s (s.updateProcess pid f) where
  slots := rfl
  kernel := .refl s.kernel
  running {pid'} hpid := by
    rw [isRunning, isRunning, process?_updateProcess hsame]
    cases hq : s.process? pid' with
    | none => rfl
    | some q =>
      have hqpid := pid_of_process? hq
      rw [Option.map_some]
      dsimp only
      split
      · next heq =>
        have heq : q.pid = pid := by simpa using heq
        exact hrun (heq ▸ hqpid ▸ hpid) q
      · rfl
  sessions _ := rfl
  peers _ := rfl
  lines _ := rfl
  serves {pid' n} hn := by
    rintro ⟨q', hq', hserves⟩
    rw [process?_updateProcess hsame] at hq'
    obtain ⟨q, hq, rfl⟩ := Option.map_eq_some_iff.1 hq'
    refine ⟨q, hq, ?_⟩
    split at hserves
    · exact hconnection q n hn hserves
    · exact hserves

lemma updateLink (f : Link → Link)
    (hpeer : w.link n → ∀ l, (f l).connection.peer = l.connection.peer) (hn : ¬w.line n) :
    Spares w s (s.updateLink n f) :=
  { Spares.refl w s with
    peers := fun {m} hm => by
      rw [peerOf_updateLink]
      split
      · next heq =>
        subst heq
        cases hl : s.links[n]? with
        | none => rw [peerOf, hl]; rfl
        | some l => exact (hpeer hm l).trans (peerOf_eq hl).symm
      · rfl
    lines := fun {m} hm => by
      rw [Supervisor.updateLink, Array.getElem?_modify, if_neg (by rintro rfl; exact hn hm)] }

/-- A connection of somebody else is changed. -/
lemma updateOther (f : Link → Link) (hn : ¬w.link n) : Spares w s (s.updateLink n f) :=
  .updateLink f (fun hlink => absurd hlink hn) fun hline => hn (w.lines hline)

end Spares

/-- A supervisor in order with a ward.  Its futures are startups, or calls wait through them over its
connections. -/
structure Secure (p : Plan) (w : Ward) (running : Option Id) (s : Supervisor) : Prop where
  sound : Sound p running s
  slot : s.slots.get? w.key = some w.startup
  startup : w.futures w.startup
  futures : ∀ {x}, w.futures x →
    p.mark? x ≠ none ∨ ∃ n l, w.link n ∧ s.links[n]? = some l ∧ l.Calls x
  processes : ∀ {pid}, w.process pid → pid < firstPid + s.attempts
  sessions : ∀ {n}, w.session n → n < s.opened.size
  links : ∀ {n}, w.link n → n < s.links.size

namespace Secure

lemma tidy (h : Secure p w running s) : Tidy p s := h.sound.toTidy

/-- What belongs to the ward has been made. -/
lemma lt (h : Secure p w running s) (hx : w.futures x) : x < s.kernel.futures.size := by
  rcases h.futures hx with hmark | ⟨n, l, -, hl, c, hc, rfl⟩
  · exact h.tidy.follows.marks hmark
  · exact ((h.tidy.links l (Array.mem_of_getElem? hl)).awaits c hc).1

/-- A future that is neither a startup nor that of a call of the ward is not part of the ward. -/
lemma free (h : Secure p w running s) (hmark : p.mark? x = none)
    (hcalls : ∀ n l, w.link n → s.links[n]? = some l → ¬l.Calls x) : ¬w.futures x := fun hx => by
  rcases h.futures hx with hne | ⟨n, l, hn, hl, hcall⟩
  · exact hne hmark
  · exact hcalls n l hn hl hcall

lemma free_of_uncalled (h : Secure p w running s) (hx : s.kernel.Loose p x)
    (hcalls : Uncalled s.links x) : ¬w.futures x :=
  h.free hx.2.2.2 fun _ l _ hl => hcalls l (Array.mem_of_getElem? hl)

/-- The calls of two connections are different ones. -/
lemma free_of_calls (h : Secure p w running s) (hn : ¬w.link n) {l : Link}
    (hl : s.links[n]? = some l) (hx : l.Calls x) : ¬w.futures x := by
  obtain ⟨c, hc, rfl⟩ := hx
  have hloose := (h.tidy.links l (Array.mem_of_getElem? hl)).awaits c hc
  refine h.free hloose.2.2.2 fun m l' hm hl' hcall => ?_
  cases h.tidy.apart.calls hl' hl hcall ⟨c, hc, rfl⟩
  exact hn hm

lemma spares {running' : Option Id} (h : Secure p w running s) (hspares : Spares w s s')
    (hsound : Sound p running' s') (hkeeps : Keeps s s') (hattempts : s.attempts ≤ s'.attempts) :
    Secure p w running' s' where
  sound := hsound
  startup := h.startup
  slot := (congrArg (·.get? w.key) hspares.slots).trans h.slot
  futures hx := by
    refine (h.futures hx).imp id ?_
    rintro ⟨n, l, hn, hl, hcall⟩
    have hl' := Array.getElem?_eq_getElem
      (Nat.lt_of_lt_of_le (Array.getElem?_eq_some_iff.1 hl).1 hkeeps.links)
    have hpeer := (peerOf_eq hl').symm.trans ((hspares.peers hn).trans (peerOf_eq hl))
    exact ⟨n, _, hn, hl', by rwa [Link.Calls, hpeer]⟩
  processes hpid := Nat.lt_of_lt_of_le (h.processes hpid) (Nat.add_le_add_left hattempts _)
  sessions hn := by
    obtain ⟨y, hy, -⟩ := hkeeps.opened (Array.getElem?_eq_getElem (h.sessions hn))
    exact (Array.getElem?_eq_some_iff.1 hy).1
  links hn := Nat.lt_of_lt_of_le (h.links hn) hkeeps.links

end Secure

/-- Moves that leave a ward alone. -/
structure Sparing (p : Plan) (w : Ward) (s s' : Supervisor) : Prop where
  moves : Moves p .all s s'
  spares : Spares w s s'

namespace Sparing

lemma refl : Sparing p w s s := ⟨.refl, .refl w s⟩

lemma trans (h : Sparing p w s s') (h' : Sparing p w s' s'') : Sparing p w s s'' :=
  ⟨h.moves.trans h'.moves, h.spares.trans h'.spares⟩

lemma secure (h : Sparing p w s s') (hs : Secure p w running s) : Secure p w running s' :=
  hs.spares h.spares (hs.sound.moves h.moves) (Moves.keeps h.moves)
    (Nat.le_of_eq (Moves.attempts h.moves).symm)

/-- Operations one after the other. -/
lemma andThen (h : Sparing p w s s') (hs : Secure p w running s)
    (h' : Secure p w running s' → Sparing p w s' s'') : Sparing p w s s'' := h.trans (h' (h.secure hs))

end Sparing

/-! ## Streams and the kernel -/

lemma sparing_kernel (hacts : Kernel.Acts p Routine.Quiet s.kernel k)
    (h : Kernel.Untouched w.futures w.barred s.kernel k) : Sparing p w s { s with kernel := k } :=
  ⟨moves_kernel hacts, .of_kernel h⟩

lemma sparing_report (lines : List LogLine) : Sparing p w s (s.report lines) :=
  ⟨moves_report lines, .report lines⟩

lemma sparing_note (event : Text) : Sparing p w s (s.note event) :=
  ⟨moves_note event, { Spares.refl w s with }⟩

lemma sparing_track (h : Secure p w running s) {r : Routine} (hr : r.Quiet) :
    Sparing p w s (s.track r) :=
  ⟨moves_track h.tidy hr, (Spares.refl w s).track (fun _ => h.lt) r⟩

/-- What is done to a stream settles nothing but the future of who waits for it. -/
def StreamMild (f : Machine → Stream Failure → Machine × Stream Failure) : Prop :=
  ∀ kept barred k t, (∀ x, t.waiter = some x → ¬kept x) →
    Kernel.Untouched kept barred k (f k t).1

section Streams

variable {kept : Id → Prop} {barred : Hook → Prop} {t : Stream Failure}

lemma untouched_notify (ht : ∀ x, t.waiter = some x → ¬kept x) (o : Outcome Value Failure) :
    Kernel.Untouched kept barred k (Stream.notify k t o).1 := by
  rw [Stream.notify]
  split
  · next x hx => exact .settle o (ht x hx)
  · exact .refl k

lemma streamMild_feed (data : Bytes) : StreamMild fun k t => t.feed k data := by
  intro kept barred k t ht
  unfold Stream.feed
  dsimp only
  split
  · exact .refl k
  · exact untouched_notify (t := { t with buffer := t.buffer ++ data }) ht _

lemma streamMild_finish : StreamMild fun k t => t.finish k := fun _ _ _ t ht =>
  untouched_notify (t := { t with ended := true }) ht _

end Streams

lemma sparing_onOutput (h : Secure p w running s) (pid : Nat) (o : Daemon.Output)
    {f : Machine → Stream Failure → Machine × Stream Failure} (hf : StreamActs p f)
    (hmild : StreamMild f) : Sparing p w s (s.onOutput pid o f) := by
  refine ⟨moves_onOutput h.tidy pid o hf, ?_⟩
  rw [onOutput]
  split
  · exact .refl w s
  · next q hq =>
    have hmem := mem_of_process? hq
    have hkernel : Kernel.Untouched w.futures w.barred s.kernel (f s.kernel (q.output o)).1 :=
      hmild _ _ _ _ fun x hx => h.free_of_uncalled ((h.tidy.processes q hmem).output o x hx)
        (h.tidy.apart.awaited q hmem x (.inl ⟨o, hx⟩))
    have hset : Spares w { s with kernel := (f s.kernel (q.output o)).1 }
        (updateProcess { s with kernel := (f s.kernel (q.output o)).1 } pid
          fun q' => q'.setOutput o (f s.kernel (q.output o)).2) :=
      .updateProcess (fun q => setOutput_pid q o _) (fun _ q => by cases o <;> rfl)
        fun q n _ hn => by cases o <;> exact hn
    exact (Spares.of_kernel hkernel).trans hset

lemma sparing_onIncoming (h : Secure p w running s) (hn : ¬w.line n)
    {f : Machine → Stream Failure → Machine × Stream Failure} (hf : StreamActs p f)
    (hmild : StreamMild f) : Sparing p w s (s.onIncoming n f) := by
  refine ⟨moves_onIncoming h.tidy n hf, ?_⟩
  rw [onIncoming]
  split
  · exact .refl w s
  · next l hl =>
    have hmem := Array.mem_of_getElem? hl
    have hkernel : Kernel.Untouched w.futures w.barred s.kernel (f s.kernel l.connection.incoming).1 :=
      hmild _ _ _ _ fun x hx => h.free_of_uncalled ((h.tidy.links l hmem).incoming x hx)
        (h.tidy.apart.heard l hmem x hx)
    exact (Spares.of_kernel hkernel).trans (.updateLink _ (fun _ _ => rfl) hn)

/-! ## Connections and processes -/

lemma sparing_receive (h : Secure p w running s) (hn : ¬w.line n) (data : Bytes) :
    Sparing p w s (s.receive n data) := by
  rw [receive]
  split
  · split
    · exact sparing_onIncoming h hn (streamActs_feed data) (streamMild_feed data)
    · exact .refl
  · exact .refl

lemma sparing_receiveMessage (h : Secure p w running s) (hn : ¬w.line n) (message : Sexp) :
    Sparing p w s (s.receiveMessage n message) := by
  rw [receiveMessage]
  split
  · exact sparing_receive h hn _
  · exact .refl

lemma sparing_updateLink (h : Secure p w running s) (hn : ¬w.line n) {f : Link → Link}
    (hf : ∀ l, (f l).connection.peer = l.connection.peer ∧
      (f l).connection.incoming = l.connection.incoming ∧
      (f l).connection.listener = l.connection.listener ∧
      (f l).connection.refusalFault = l.connection.refusalFault ∧
      (l.connection.Clear → (f l).connection.Clear) ∧ (f l).pid = l.pid) :
    Sparing p w s (s.updateLink n f) :=
  ⟨moves_updateLink h.tidy n hf, .updateLink f (fun _ l => (hf l).1) hn⟩

lemma sparing_hangUp (h : Secure p w running s) (hn : ¬w.line n) : Sparing p w s (s.hangUp n) := by
  rw [hangUp]
  split
  · split
    · have hclosed : Sparing p w s (s.updateLink n fun l => { l with isOpen := false }) :=
        sparing_updateLink h hn fun _ => ⟨rfl, rfl, rfl, rfl, id, rfl⟩
      exact hclosed.andThen h fun h => sparing_onIncoming h hn streamActs_finish streamMild_finish
    · exact .refl
  · exact .refl

/-- A process of somebody else, whose end closes none of the connections that run to the ward. -/
structure Strange (w : Ward) (s : Supervisor) (pid : Nat) : Prop where
  process : ¬w.process pid
  serves : ∀ {n}, w.line n → ¬s.Serves pid n

lemma Strange.spares (h : Strange w s pid) (hspares : Spares w s s') : Strange w s' pid :=
  ⟨h.process, fun hn hserves => h.serves hn (hspares.serves hn hserves)⟩

lemma sparing_exit (h : Secure p w running s) (hpid : Strange w s pid) (code : Int) :
    Sparing p w s (s.exit pid code) := by
  rw [exit]
  split
  · exact .refl
  · next q hq =>
    split
    · exact .refl
    · have hmem := mem_of_process? hq
      have hloose := h.tidy.processes q hmem
      have hgone : Sparing p w s (s.updateProcess pid fun q =>
          { q with exitCode := some code, reaped := true, exitWaiters := [] }) :=
        ⟨moves_gone h.tidy pid code, .updateProcess (fun _ => rfl) (fun hw => absurd hw hpid.process)
          fun _ _ _ => id⟩
      have htold := hgone.trans (sparing_kernel
        (acts_settleAll q.exitWaiters (.value .unit) hloose.exitWaiters)
        (.settleAll fun x hx => h.free_of_uncalled (hloose.exitWaiters x hx)
          (h.tidy.apart.awaited q hmem x (.inr hx))))
      have hout := htold.andThen h fun h =>
        sparing_onOutput h pid .stdout streamActs_finish streamMild_finish
      have herr := hout.andThen h fun h =>
        sparing_onOutput h pid .stderr streamActs_finish streamMild_finish
      dsimp only
      split
      · next n hn => exact herr.andThen h fun h => sparing_hangUp h fun hw => hpid.serves hw ⟨q, hq, hn⟩
      · exact herr

lemma sparing_kill (h : Secure p w running s) (hpid : Strange w s pid) :
    Sparing p w s (s.kill pid).1 := by
  rw [kill]
  split
  · exact .refl
  · split
    · exact .refl
    · have hnote : Sparing p w s (s.note ("kill " ++ Text.ofNat pid)) := sparing_note _
      dsimp only
      split
      · exact hnote.andThen h fun h => sparing_exit h (hpid.spares hnote.spares) 0
      · exact hnote
      · split
        · exact hnote
        · exact hnote.trans (sparing_kernel (.single (.soon trivial)) (.soon hpid.process))

lemma sparing_act (h : Secure p w running s) (hpid : Strange w s pid) :
    Sparing p w s (s.act pid) := by
  rw [act]
  split
  · exact .refl
  · split
    · exact .refl
    · next q _ _ =>
      have herr : Sparing p w s _ := sparing_onOutput h pid .stderr
        (streamActs_feed q.script.stderr) (streamMild_feed q.script.stderr)
      have hfinish : ∀ {s}, Secure p w running s →
          Sparing p w s (s.onOutput pid .stdout fun k t => t.finish k) := fun h =>
        sparing_onOutput h pid .stdout streamActs_finish streamMild_finish
      dsimp only
      split
      · exact herr
      · exact herr.andThen h hfinish
      · exact herr.andThen h fun h => sparing_exit h (hpid.spares herr.spares) _
      · have hline := fun data => herr.andThen h fun h =>
          sparing_onOutput h pid .stdout (streamActs_feed data) (streamMild_feed data)
        split
        · exact hline _
        · exact (hline _).andThen h hfinish

/-! ## Sessions -/

/-- A session of somebody else that has lost its slot to the ward. -/
structure Foreign (w : Ward) (s : Supervisor) (m : Nat) : Prop where
  session : ∃ x, s.opened[m]? = some x ∧ x.key = w.key ∧ Strange w s x.pid
  slot : s.sessionOf? w.startup ≠ some m

lemma Foreign.spares (h : Foreign w s m) (hw : w.futures w.startup) (hkeeps : Keeps s s')
    (hspares : Spares w s s') : Foreign w s' m where
  session := by
    obtain ⟨x, hx, hkey, hpid⟩ := h.session
    obtain ⟨y, hy, hkey', hpid', -⟩ := hkeeps.opened hx
    exact ⟨y, hy, hkey'.trans hkey, hpid'.symm ▸ hpid.spares hspares⟩
  slot hm := by
    refine h.slot ?_
    rw [sessionOf?_eq_some_iff] at hm ⊢
    rwa [hspares.kernel.outcome hw] at hm

/-- Nothing is in the slot for a session that has lost it. -/
lemma evict_of_foreign (hslot : s.slots.get? w.key = some w.startup) (hm : Foreign w s m) :
    s.evict m = s := by
  obtain ⟨x, hx, hkey, -⟩ := hm.session
  rw [evict, hx]
  dsimp only
  rw [hkey, hslot]
  exact if_neg hm.slot

lemma sparing_onPeerClosed (h : Secure p w running s) (hm : Foreign w s m) :
    Sparing p w s (s.onPeerClosed m) := by
  obtain ⟨x, hx, -, hpid⟩ := hm.session
  rw [onPeerClosed, hx]
  dsimp only
  rw [evict_of_foreign h.slot hm]
  split
  · exact .refl
  · have hreport : Sparing p w s (s.report
        [Log.info ("EPC connection to nimsuggest for " ++ x.key ++ " lost")]) := sparing_report _
    have hkill := hreport.andThen h fun h => sparing_kill h (hpid.spares hreport.spares)
    split
    · next s₁ heq =>
      rw [heq] at hkill
      exact hkill
    · next s₁ f heq =>
      rw [heq] at hkill
      exact hkill.trans (sparing_report _)

/-! ## What a peer makes happen -/

lemma sparing_apply (h : Secure p w running s) (hn : ¬w.link n) (e : Peer.Effect Nat)
    (hloose : ∀ f r, e = .settle f r → s.kernel.Loose p f)
    (hfree : ∀ f r, e = .settle f r → ¬w.futures f) (hsend : ∀ frame, e ≠ .send frame)
    (hcall : ∀ m, e = .callback m → Foreign w s m) : Sparing p w s (apply n s e) := by
  cases e with
  | send frame => exact absurd rfl (hsend frame)
  | settle f r =>
    exact sparing_kernel (.single (.settle _ (hloose f r rfl))) (.settle _ (hfree f r rfl))
  | log line => exact sparing_report _
  | closeConnection =>
    exact sparing_updateLink h (fun hline => hn (w.lines hline)) fun _ => ⟨rfl, rfl, rfl, rfl, id, rfl⟩
  | callback m => exact sparing_onPeerClosed h (hcall m rfl)

lemma sparing_effects (h : Secure p w running s) (hn : ¬w.link n) {es : List (Peer.Effect Nat)}
    (hloose : Peer.Settles (s.kernel.Loose p) es) (hfree : Peer.Settles (fun x => ¬w.futures x) es)
    (hsend : ∀ frame, .send frame ∉ es) (hcall : ∀ m, .callback m ∈ es → Foreign w s m) :
    Sparing p w s (es.foldl (apply n) s) := by
  induction es generalizing s with
  | nil => exact .refl
  | cons e es ih =>
    have hmem : e ∈ e :: es := List.mem_cons_self
    have hone : Sparing p w s (apply n s e) := sparing_apply h hn e
      (fun f r heq => hloose f r (heq ▸ hmem)) (fun f r heq => hfree f r (heq ▸ hmem))
      (fun frame heq => hsend frame (heq ▸ hmem)) fun m heq => hcall m (heq ▸ hmem)
    refine hone.andThen h fun h' => ih h' (fun f r hf => ?_) (fun f r hf => ?_) (fun frame hf => ?_)
      fun m hm => ?_
    · exact (Moves.widens hone.moves).loose (.refl p _) (hloose f r (List.mem_cons_of_mem _ hf))
    · exact hfree f r (List.mem_cons_of_mem _ hf)
    · exact hsend frame (List.mem_cons_of_mem _ hf)
    · exact (hcall m (List.mem_cons_of_mem _ hm)).spares h.startup (Moves.keeps hone.moves) hone.spares

/-- The peer of a connection changes, and its effects happen. -/
lemma sparing_applyAll (h : Secure p w running s) (hn : ¬w.link n) {l : Link}
    (hl : s.links[n]? = some l) {c : Connection Nat} {es : List (Peer.Effect Nat)}
    (hc : l.connection.Within (s.Answers p l) c es)
    (hhands : l.connection.peer.Hands c.peer es) (hconfines : l.connection.peer.Confines c.peer es)
    (hframes : Peer.frames es = []) (hcall : ∀ m, On s.opened n m → Foreign w s m) :
    Sparing p w s (s.applyAll n c es) := by
  refine ⟨moves_applyAll h.tidy hl hc hhands hconfines, ?_⟩
  have hown : ∀ m, m ∈ c.peer.callbacks ∨ .callback m ∈ es → On s.opened n m := fun m hm =>
    h.tidy.apart.told hl (hconfines m hm)
  have hmove : Move p .all s (s.updateLink n fun l => { l with connection := c }) :=
    h.tidy.move_connection hl hc fun m hm => hown m (.inl hm)
  have hset : Spares w s (s.updateLink n fun l => { l with connection := c }) := .updateOther _ hn
  have hsecure := h.spares hset (h.sound.move hmove) hmove.keeps (Nat.le_refl _)
  have hfree : ∀ f r, .settle f r ∈ es → ¬w.futures f := fun f r hmem => by
    obtain ⟨hloose, hcalls | hunused⟩ := hc.settles f r hmem
    · exact h.free_of_calls hn hl hcalls
    · exact h.free_of_uncalled hloose hunused.calls
  refine hset.trans (sparing_effects hsecure hn (fun f r hmem => (hc.settles f r hmem).1) hfree
    (fun frame hmem => ?_) fun m hm => ?_).spares
  · have hframe : frame ∈ Peer.frames es := List.mem_filterMap.2 ⟨_, hmem, rfl⟩
    exact absurd (hframes ▸ hframe) List.not_mem_nil
  · exact (hcall m (hown m (.inr hm))).spares h.startup hmove.keeps hset

/-- Whoever listens, or is waited for by a startup, may be asked to cancel. -/
lemma Secure.aside (h : Secure p w running s) {t : Id} (ht : s.Helper t) :
    Kernel.Aside w.futures s.kernel t where
  free {a} ha := by
    refine h.free (h.sound.knows_helper ht).2.2 fun n l _ hl ⟨c, hc, heq⟩ => ?_
    have hloose := (h.tidy.links l (Array.mem_of_getElem? hl)).awaits c hc
    rw [heq] at hloose
    exact absurd (ha.symm.trans hloose.2.1) nofun
  task := (h.sound.helpers ht).task
  waits {a g} ha hg := by
    have hrunning : running ≠ some t := fun hrun =>
      absurd ((h.sound.waking.idle ha hrun).symm.trans hg) nofun
    obtain ⟨r, hr⟩ := h.sound.waking.body ha hrunning
    have hstill := h.sound.still ha hr ((h.sound.helpers ht).kind ha hr) hg
    exact ⟨hstill.leaf, h.free (h.tidy.follows.waiting ha hg).2.1 fun _ l _ hl =>
      hstill.uncalled l (Array.mem_of_getElem? hl)⟩

lemma sparing_stopPeer (h : Secure p w running s) (hn : ¬w.link n)
    (hcall : ∀ m, On s.opened n m → Foreign w s m) : Sparing p w s (s.stopPeer n) := by
  rw [stopPeer]
  split
  · exact .refl
  · next l hl =>
    split
    · exact .refl
    · have hmem := Array.mem_of_getElem? hl
      have hloose := h.tidy.links l hmem
      have hstop : ∀ {k : Machine}, Kernel.Acts p Routine.Quiet s.kernel k →
          Kernel.Untouched w.futures w.barred s.kernel k →
          Sparing p w s (Supervisor.applyAll { s with kernel := k } n
            (l.connection.withPeer (l.connection.peer.close k.isDone none)).1
            (l.connection.withPeer (l.connection.peer.close k.isDone none)).2) := by
        intro k hacts huntouched
        have hkernel : Sparing p w s { s with kernel := k } := sparing_kernel hacts huntouched
        have hsecure := hkernel.secure h
        have hclose := (hsecure.tidy.answers hl).close k.isDone none
        have hout := Peer.outward_close l.connection.peer k.isDone none
        exact hkernel.trans (sparing_applyAll hsecure hn hl
          (.withPeer hclose (Peer.shrinks_close _ _ _)) hout.hands hout.confines
          (Peer.effects_close _ _ _).1 fun m hm =>
            (hcall m hm).spares h.startup (Moves.keeps hkernel.moves) hkernel.spares)
      refine hstop ?_ ?_
      · split
        · next t ht => exact .single (.cancel (hloose.listener t ht).2)
        · exact .refl
      · split
        · next t ht => exact .cancel (h.aside (.listener hmem ht))
        · exact .refl s.kernel

end SuggestBridge.Supervisor
