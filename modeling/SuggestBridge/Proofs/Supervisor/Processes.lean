import SuggestBridge.Proofs.Peer.Outward
import SuggestBridge.Proofs.Supervisor.Moves

/-!
# Processes and connections move on

Every operation on processes and connections is a sequence of moves.  Each lemma is named after the
operation that it takes apart.
-/

namespace SuggestBridge.Supervisor

open SuggestBridge.Task

variable {p : Plan} {ω : Warrant} {s s' : Supervisor} {k k' : Machine}

/-! ## Sequences of moves -/

lemma Move.grows (h : Move p ω s s') : Kernel.Grows Routine.Quiet s.kernel s'.kernel := by
  cases h with
  | kernel hacts => exact Kernel.Acts.grows hacts
  | close _ _ => exact .cancel _ _
  | _ => exact .refl _

lemma Steps.grows (h : Steps p ω s s') : Kernel.Grows Routine.Quiet s.kernel s'.kernel := by
  induction h with
  | refl => exact .refl _
  | tail _ hmove ih => exact ih.trans hmove.grows

namespace Moves

lemma widens (h : Moves p ω s s') : s.kernel.Widens s'.kernel := (Steps.grows h.steps).toWidens

lemma knows (h : Moves p ω s s') {x : Id} (hx : s.kernel.Knows p x) : s'.kernel.Knows p x :=
  hx.widens (widens h)

/-- Operations one after the other. -/
lemma andThen {s'' : Supervisor} (h : Moves p ω s s') (htidy : Tidy p s)
    (h' : Tidy p s' → Moves p ω s' s'') : Moves p ω s s'' := h.trans (h' (htidy.moves h))

end Moves

/-- Tasks are begun, and no session is opened. -/
lemma Unowned.of_grows {pid : Nat} (h : s.Unowned pid)
    (hgrows : Kernel.Grows Routine.Quiet s.kernel s'.kernel) (hopened : s'.opened = s.opened) :
    s'.Unowned pid where
  startups {t b r} hb hr := by
    rcases hgrows.begun hb with ⟨a, ha⟩ | ⟨-, -, r', hr', hquiet⟩
    · obtain ⟨c, hc, hbody, -⟩ := hgrows.kept ha
      cases hb.symm.trans hc
      exact h.startups ha (hbody.symm.trans hr)
    · cases hr.symm.trans hr'
      simp [hquiet.child]
  sessions hx := h.sessions (hopened ▸ hx)

/-- Tasks are begun. -/
lemma Helps.of_grows {quiet : Routine → Prop} {t : Id} (h : s.Helps t)
    (ht : t < s.kernel.futures.size) (hgrows : Kernel.Grows quiet s.kernel s'.kernel) :
    s'.Helps t where
  task := by
    rcases h.task with hdone | ⟨a, ha⟩
    · obtain ⟨o, ho⟩ := Kernel.isDone_eq_true_iff.1 hdone
      exact .inl (Kernel.isDone_eq_true_iff.2 ⟨o, hgrows.outcome ho⟩)
    · obtain ⟨b, hb, -⟩ := hgrows.kept ha
      exact .inr ⟨b, hb⟩
  kind {b r} hb hr := by
    rcases hgrows.begun hb with ⟨a, ha⟩ | ⟨hle, -⟩
    · obtain ⟨c, hc, hbody, -⟩ := hgrows.kept ha
      cases hb.symm.trans hc
      exact h.kind ha (hbody.symm.trans hr)
    · exact absurd ht (Nat.not_lt.2 hle)

lemma moves_report (lines : List LogLine) : Moves p ω s (s.report lines) :=
  .single (.record (s.log ++ lines) s.events) { Harmless.refl s with }

lemma moves_note (event : Text) : Moves p ω s (s.note event) :=
  .single (.record s.log (s.events ++ [event])) (.of_record s.log [event])

lemma moves_kernel (h : Kernel.Acts p Routine.Quiet s.kernel k) : Moves p ω s { s with kernel := k } :=
  .single (.kernel h) (.of_kernel (Kernel.Acts.grows h).outcome)

/-- A task that starts no daemon begins in the background. -/
lemma moves_track (h : Tidy p s) {r : Routine} (hr : r.Quiet) : Moves p ω s (s.track r) := by
  have hspawn : Moves p ω s { s with kernel := (s.kernel.spawn r).1 } := moves_kernel (.single (.spawn hr))
  exact hspawn.trans (.single (.background h.follows.knows_spawn) { Harmless.refl _ with })

/-! ## Futures that nobody uses -/

/-- A future that is still to be made. -/
lemma Tidy.unused (h : Tidy p s) {w : Id} (hw : s.kernel.futures.size ≤ w) : s.Unused w where
  calls := by
    rintro l hl ⟨c, hc, rfl⟩
    exact absurd ((h.links l hl).awaits c hc).1 (Nat.not_lt.2 hw)
  processes := by
    rintro q hq (⟨o, ho⟩ | hmem)
    · exact absurd ((h.processes q hq).output o w ho).1 (Nat.not_lt.2 hw)
    · exact absurd ((h.processes q hq).exitWaiters w hmem).1 (Nat.not_lt.2 hw)
  links l hl hwaiter := absurd ((h.links l hl).incoming w hwaiter).1 (Nat.not_lt.2 hw)
  tasks ha hwaiting := absurd (h.follows.waiting ha hwaiting).1 (Nat.not_lt.2 hw)

/-- A future is made. -/
lemma Unused.fresh {w : Id} (h : s.Unused w) : Unused { s with kernel := s.kernel.fresh.1 } w :=
  { h with tasks := fun ha => h.tasks ((Kernel.activity?_add_plain rfl).symm.trans ha) }

/-- A connection changes, but neither its peer nor its listener. -/
lemma Tidy.linkStep (h : Tidy p s) {n : Nat} {l l' : Link} (hl : s.links[n]? = some l)
    (hpid : l'.pid = l.pid) (hlistener : l'.connection.listener = l.connection.listener)
    (hpeer : l'.connection.peer = l.connection.peer)
    (hheard : ∀ w, l'.connection.incoming.waiter = some w → Uncalled s.links w) :
    LinkStep s n l l' where
  pid := hpid
  listener := hlistener
  told _ hm := h.apart.told hl (hpeer ▸ hm)
  ages := hpeer ▸ .refl _
  heard {w} hw := ⟨hheard w hw, fun ⟨c, hc, heq⟩ =>
    hheard w hw l (Array.mem_of_getElem? hl) ⟨c, hpeer ▸ hc, heq⟩⟩

/-! ## Streams -/

section Streams

variable {t : Stream Failure}

/-- What is done to a stream concerns nobody but who waits for it. -/
def StreamActs (p : Plan) (f : Machine → Stream Failure → Machine × Stream Failure) : Prop :=
  ∀ k t, StreamLoose k p t →
    Kernel.Acts p Routine.Quiet k (f k t).1 ∧ StreamLoose (f k t).1 p (f k t).2 ∧
      ∀ w, (f k t).2.waiter = some w → t.waiter = some w

lemma streamActs_notify (ht : StreamLoose k p t) (o : Outcome Value Failure) :
    Kernel.Acts p Routine.Quiet k (Stream.notify k t o).1 ∧
      StreamLoose (Stream.notify k t o).1 p (Stream.notify k t o).2 ∧
        ∀ w, (Stream.notify k t o).2.waiter = some w → t.waiter = some w := by
  rw [Stream.notify]
  split
  · next w hw => exact ⟨.single (.settle o (ht w hw)), nofun, nofun⟩
  · exact ⟨.refl, ht, fun _ => id⟩

lemma streamActs_feed (data : Bytes) : StreamActs p fun k t => t.feed k data := by
  intro k t ht
  unfold Stream.feed
  dsimp only
  split
  · exact ⟨.refl, ht, fun _ => id⟩
  · exact streamActs_notify (t := { t with buffer := t.buffer ++ data }) ht _

lemma streamActs_finish : StreamActs p fun k t => t.finish k :=
  fun _ t ht => streamActs_notify (t := { t with ended := true }) ht _

end Streams

lemma setOutput_pid (q : Daemon.Process) (o : Daemon.Output) (t : Stream Failure) :
    (q.setOutput o t).pid = q.pid := by cases o <;> rfl

/-- A process with another output stream. -/
lemma ProcessLoose.setOutput {q : Daemon.Process} (hq : ProcessLoose k p q) (o : Daemon.Output)
    {t : Stream Failure} (ht : StreamLoose k p t) : ProcessLoose k p (q.setOutput o t) where
  output o' := by
    cases o <;> cases o'
    · exact ht
    · exact hq.output .stderr
    · exact hq.output .stdout
    · exact ht
  exitWaiters := by
    cases o <;> exact hq.exitWaiters
  ended := by
    cases o <;> exact hq.ended

lemma mem_of_process? {pid : Nat} {q : Daemon.Process} (h : s.process? pid = some q) :
    q ∈ s.processes := List.mem_of_find?_eq_some h

/-- The process of a number has that number. -/
lemma pid_of_process? {pid : Nat} {q : Daemon.Process} (h : s.process? pid = some q) :
    q.pid = pid := by simpa using List.find?_some h

/-- The next daemon has a process of its own. -/
lemma Tidy.pid_lt (h : Tidy p s) {pid : Nat} (hpid : (s.process? pid).isSome = true) :
    pid < firstPid + s.attempts := by
  obtain ⟨q, hq⟩ := Option.isSome_iff_exists.1 hpid
  exact pid_of_process? hq ▸ h.numbered q (mem_of_process? hq)

/-- Who waits for a process with another output stream waits for the stream, or has waited. -/
lemma Holds.of_setOutput {q : Daemon.Process} {o : Daemon.Output} {t : Stream Failure} {w : Id}
    (h : Holds (q.setOutput o t) w) : t.waiter = some w ∨ Holds q w := by
  rcases h with ⟨o', ho'⟩ | hmem
  · cases o <;> cases o'
    · exact .inl ho'
    · exact .inr (.inl ⟨.stderr, ho'⟩)
    · exact .inr (.inl ⟨.stdout, ho'⟩)
    · exact .inl ho'
  · cases o <;> exact .inr (.inr hmem)

/-- One output stream of a process is replaced. -/
lemma moves_setOutput (h : Tidy p s) (pid : Nat) (o : Daemon.Output) {t : Stream Failure}
    (ht : StreamLoose s.kernel p t) (hcalls : ∀ w, t.waiter = some w → Uncalled s.links w) :
    Moves p ω s (s.updateProcess pid fun q => q.setOutput o t) :=
  .single
    (.process pid _ (fun q hq _ => (h.processes q hq).setOutput o ht) (fun q => setOutput_pid q o t)
      (fun _ _ hn => .inl (by cases o <;> exact hn))
      fun q hq _ w hw => hw.of_setOutput.elim (hcalls w) (h.apart.awaited q hq w))
    (.of_process pid (fun q => setOutput_pid q o t) fun _ hexit => by cases o <;> exact hexit)

lemma moves_onOutput (h : Tidy p s) (pid : Nat) (o : Daemon.Output)
    {f : Machine → Stream Failure → Machine × Stream Failure} (hf : StreamActs p f) :
    Moves p ω s (s.onOutput pid o f) := by
  rw [onOutput]
  split
  · exact .refl
  · next q hq =>
    have hmem := mem_of_process? hq
    obtain ⟨hacts, hloose, hsame⟩ := hf s.kernel (q.output o) ((h.processes q hmem).output o)
    exact (moves_kernel hacts).andThen h fun h' => moves_setOutput h' pid o hloose fun w hw =>
      h.apart.awaited q hmem w (.inl ⟨o, hsame w hw⟩)

/-! ## Connections -/

/-- The stream of bytes that arrive over a connection is replaced. -/
lemma moves_setIncoming (h : Tidy p s) (n : Nat) {t : Stream Failure}
    (ht : StreamLoose s.kernel p t) (hcalls : ∀ w, t.waiter = some w → Uncalled s.links w) :
    Moves p ω s (s.updateLink n fun l =>
      { l with connection := { l.connection with incoming := t } }) := by
  refine .single (.link n _ (fun l hl => ?_) fun l hl => h.linkStep hl rfl rfl rfl hcalls)
    (.of_link n fun _ => rfl)
  have hloose := h.links l (Array.mem_of_getElem? hl)
  exact { hloose with incoming := ht }

lemma moves_onIncoming (h : Tidy p s) (n : Nat)
    {f : Machine → Stream Failure → Machine × Stream Failure} (hf : StreamActs p f) :
    Moves p ω s (s.onIncoming n f) := by
  rw [onIncoming]
  split
  · exact .refl
  · next l hl =>
    have hmem := Array.mem_of_getElem? hl
    obtain ⟨hacts, hloose, hsame⟩ := hf s.kernel l.connection.incoming (h.links l hmem).incoming
    exact (moves_kernel hacts).andThen h fun h' => moves_setIncoming h' n hloose fun w hw =>
      h.apart.heard l hmem w (hsame w hw)

lemma moves_receive (h : Tidy p s) (n : Nat) (data : Bytes) : Moves p ω s (s.receive n data) := by
  rw [receive]
  split
  · split
    · exact moves_onIncoming h n (streamActs_feed data)
    · exact .refl
  · exact .refl

lemma moves_receiveMessage (h : Tidy p s) (n : Nat) (message : Sexp) :
    Moves p ω s (s.receiveMessage n message) := by
  rw [receiveMessage]
  split
  · exact moves_receive h n _
  · exact .refl

/-- A change of a connection that leaves its futures alone. -/
lemma moves_updateLink (h : Tidy p s) (n : Nat) {f : Link → Link}
    (hf : ∀ l, (f l).connection.peer = l.connection.peer ∧
      (f l).connection.incoming = l.connection.incoming ∧
      (f l).connection.listener = l.connection.listener ∧
      (f l).connection.refusalFault = l.connection.refusalFault ∧
      (l.connection.Clear → (f l).connection.Clear) ∧ (f l).pid = l.pid) :
    Moves p ω s (s.updateLink n f) := by
  refine .single (.link n f (fun l hl => ?_) fun l hl => ?_) (.of_link n fun l => (hf l).1)
  · have hloose := h.links l (Array.mem_of_getElem? hl)
    obtain ⟨hpeer, hincoming, hlistener, hrefusal, hclear, -⟩ := hf l
    exact ⟨hpeer ▸ hloose.awaits, hincoming ▸ hloose.incoming, hlistener ▸ hloose.listener,
      hrefusal ▸ hloose.refuses, hclear hloose.clear⟩
  · obtain ⟨hpeer, hincoming, hlistener, -, -, hpid⟩ := hf l
    exact h.linkStep hl hpid hlistener hpeer fun w hw =>
      h.apart.heard l (Array.mem_of_getElem? hl) w (hincoming ▸ hw)

lemma moves_hangUp (h : Tidy p s) (n : Nat) : Moves p ω s (s.hangUp n) := by
  rw [hangUp]
  split
  · split
    · have hclosed : Moves p ω s (s.updateLink n fun l => { l with isOpen := false }) :=
        moves_updateLink h n fun _ => ⟨rfl, rfl, rfl, rfl, id, rfl⟩
      exact hclosed.andThen h fun h => moves_onIncoming h n streamActs_finish
    · exact .refl
  · exact .refl

/-! ## The end of a process -/

/-- Those that wait for the end of a process are told one after the other. -/
lemma acts_settleAll (waiters : List Id) (o : Outcome Value Failure)
    (h : ∀ w ∈ waiters, k.Loose p w) :
    Kernel.Acts p Routine.Quiet k (waiters.foldl (fun k w => k.settle w o) k) := by
  induction waiters generalizing k with
  | nil => exact .refl
  | cons w waiters ih =>
    obtain ⟨hw, hrest⟩ := List.forall_mem_cons.1 h
    have hact : Kernel.Act p Routine.Quiet k (k.settle w o) := .settle o hw
    exact .head hact (ih fun v hv => hact.grows.toWidens.loose (.refl p _) (hrest v hv))

/-- A process has an exit code, and nobody waits for its end any more. -/
lemma moves_gone (h : Tidy p s) (pid : Nat) (code : Int) : Moves p ω s (s.updateProcess pid fun q =>
    { q with exitCode := some code, reaped := true, exitWaiters := [] }) :=
  .single
    (.process pid _ (fun q hq _ => ⟨(h.processes q hq).output, by simp, fun _ => nofun⟩)
      (fun _ => rfl) (fun _ _ => .inl) fun q hq _ w hw =>
        h.apart.awaited q hq w (hw.imp_right fun hmem => absurd hmem List.not_mem_nil))
    (.of_process pid (fun _ => rfl) fun _ _ => nofun)

lemma moves_exit (h : Tidy p s) (pid : Nat) (code : Int) : Moves p ω s (s.exit pid code) := by
  rw [exit]
  split
  · exact .refl
  · next q hq =>
    split
    · exact .refl
    · have hloose := h.processes q (mem_of_process? hq)
      have hgone : Moves p ω s _ := moves_gone h pid code
      have htold := hgone.andThen h fun _ =>
        moves_kernel (acts_settleAll q.exitWaiters (.value .unit) hloose.exitWaiters)
      have hout := htold.andThen h fun h => moves_onOutput h pid .stdout streamActs_finish
      have herr := hout.andThen h fun h => moves_onOutput h pid .stderr streamActs_finish
      dsimp only
      split
      · exact herr.andThen h fun h => moves_hangUp h _
      · exact herr

lemma moves_kill (h : Tidy p s) (pid : Nat) : Moves p ω s (s.kill pid).1 := by
  rw [kill]
  split
  · exact .refl
  · split
    · exact .refl
    · have hnote : Moves p ω s (s.note ("kill " ++ Text.ofNat pid)) := moves_note _
      dsimp only
      split
      · exact hnote.andThen h fun h => moves_exit h pid 0
      · exact hnote
      · split
        · exact hnote
        · exact hnote.trans (moves_kernel (.single (.soon trivial)))

/-- Whoever is to be killed has exited already, or it is noted that somebody has tried. -/
lemma over_kill (h : Tidy p s) {pid : Nat} (hpid : (s.process? pid).isSome = true) :
    (s.kill pid).1.Over pid := by
  obtain ⟨q, hq⟩ := Option.isSome_iff_exists.1 hpid
  rw [kill, hq]
  dsimp only
  split
  · next hrun =>
    refine over_of_not_isRunning hpid ?_
    rw [isRunning, hq]
    simpa using hrun
  · have hnoted : (s.note ("kill " ++ Text.ofNat pid)).Over pid :=
      .inr (List.mem_append_right _ (List.mem_singleton.2 rfl))
    have hnote : Moves p .all s (s.note ("kill " ++ Text.ofNat pid)) := moves_note _
    have hexit : Moves p .all _ _ := moves_exit (h.moves hnote) pid 0
    split
    · exact hexit.ended hnoted
    · exact hnoted
    · split
      · exact hnoted
      · exact hnoted

lemma moves_act (h : Tidy p s) (pid : Nat) : Moves p ω s (s.act pid) := by
  rw [act]
  split
  · exact .refl
  · split
    · exact .refl
    · next q _ _ =>
      have herr : Moves p ω s _ := moves_onOutput h pid .stderr (streamActs_feed q.script.stderr)
      dsimp only
      split
      · exact herr
      · exact herr.andThen h fun h => moves_onOutput h pid .stdout streamActs_finish
      · exact herr.andThen h fun h => moves_exit h pid _
      · have hline := fun data => herr.andThen h fun h =>
          moves_onOutput h pid .stdout (streamActs_feed data)
        split
        · exact hline _
        · exact (hline _).andThen h fun h => moves_onOutput h pid .stdout streamActs_finish

/-! ## What a daemon does -/

lemma moves_serve (h : Tidy p s) (n : Nat) (q : Daemon.Process) (payload : Text) :
    Moves p ω s (s.serve n q payload) := by
  rw [serve]
  split
  · exact .refl
  · dsimp only
    split
    · exact (moves_note _).andThen h fun h => moves_receiveMessage h n _
    · exact (moves_note _).trans (moves_kernel (.single (.after _ trivial)))
    · exact (moves_note _).andThen h fun h => moves_exit h q.pid _
    · exact (moves_note _).andThen h fun h => moves_hangUp h n
    · exact (moves_note _).andThen h fun h => moves_receive h n _
    · exact moves_note _

lemma moves_foldl {α : Type} (f : Supervisor → α → Supervisor)
    (hf : ∀ {s}, Tidy p s → ∀ a, Moves p ω s (f s a)) (as : List α) (h : Tidy p s) :
    Moves p ω s (as.foldl f s) := by
  induction as generalizing s with
  | nil => exact .refl
  | cons a as ih => exact (hf h a).andThen h fun h => ih h

lemma moves_transmit (h : Tidy p s) (n : Nat) (frame : Bytes) : Moves p ω s (s.transmit n frame) := by
  rw [transmit]
  split
  · exact .refl
  · split
    · exact moves_foldl _ (fun h t => moves_serve h n _ t) _ h
    · exact .refl

/-! ## The end of a session -/

/-- What is done, and nothing but what is done, has a value. -/
lemma isDone_of_sessionOf? {u : Id} {n : Nat} (h : s.sessionOf? u = some n) :
    s.kernel.isDone u = true := by
  rw [sessionOf?] at h
  split at h
  · next v hv => rw [Kernel.isDone, hv]; rfl
  · cases h

lemma evict_eq (s : Supervisor) (n : Nat) : ∃ slots, s.evict n = { s with slots } := by
  rw [evict]
  split
  · exact ⟨_, rfl⟩
  · split
    · split <;> exact ⟨_, rfl⟩
    · exact ⟨_, rfl⟩

lemma steps_evict (n : Nat) : Steps p ω s (s.evict n) := by
  rw [evict]
  split
  · exact .refl
  · split
    · next u hslot =>
      split
      · next hsession => exact .single (.vacate hslot (isDone_of_sessionOf? hsession))
      · exact .refl
    · exact .refl

/-- A session loses its slot. -/
lemma Guarded.evict {owns : Nat → Id → Prop} {ending told : Nat → Prop}
    (h : s.Guarded owns ending told) (n : Nat) :
    (s.evict n).Guarded owns (fun m => ending m ∨ m = n) told := by
  have hsame : s.Guarded owns (fun m => ending m ∨ m = n) told := h.mono (fun _ => .inl) fun _ => id
  rw [Supervisor.evict]
  split
  · exact hsame
  · split
    · next u hslot =>
      split
      · next hsession => exact h.vacate hslot hsession
      · exact hsame
    · exact hsame

/-- Moves that leave every session looked after but one, which is being ended. -/
structure GivesUp (p : Plan) (ω : Warrant) (n : Nat) (s s' : Supervisor) : Prop where
  steps : Steps p ω s s'
  ended : ∀ {pid}, s.Over pid → s'.Over pid
  guarded : ∀ {owns ending told}, s.Guarded owns ending told →
    s'.Guarded owns (fun m => ending m ∨ m = n) told

namespace GivesUp

variable {n : Nat}

/-- What comes after. -/
lemma andThen {s'' : Supervisor} (h : GivesUp p ω n s s') (h' : Moves p ω s' s'') :
    GivesUp p ω n s s'' :=
  ⟨h.steps.trans h'.steps, h'.ended ∘ h.ended, h'.guarded ∘ h.guarded⟩

/-- Once the session is over, no session needs to be looked after that was so before. -/
lemma moves (h : GivesUp p ω n s s') (hover : ∀ x, s'.opened[n]? = some x → s'.Over x.pid) :
    Moves p ω s s' :=
  ⟨h.steps, h.ended, fun hg =>
    ((h.guarded hg).mono (fun _ => id) fun _ => .inl).discharge fun x hx => .inl (hover x hx)⟩

lemma evict (n : Nat) : GivesUp p ω n s (s.evict n) := by
  have hguarded := fun {owns ending told} (hg : s.Guarded owns ending told) => hg.evict n
  obtain ⟨slots, heq⟩ := evict_eq s n
  refine ⟨steps_evict n, ?_, hguarded⟩
  rw [heq]
  exact id

end GivesUp

/-- The slot of a session that is over is emptied. -/
lemma moves_evict {n : Nat} (hover : ∀ x, s.opened[n]? = some x → s.Over x.pid) :
    Moves p ω s (s.evict n) := by
  have hgives : GivesUp p ω n s (s.evict n) := .evict n
  obtain ⟨slots, heq⟩ := evict_eq s n
  rw [heq] at hgives ⊢
  exact hgives.moves hover

/-! ## What a peer makes happen -/

/-- Moves by which some sessions are told that the peer of their connection has closed. -/
structure Tells (p : Plan) (ω : Warrant) (tells : Nat → Prop) (s s' : Supervisor) : Prop where
  steps : Steps p ω s s'
  ended : ∀ {pid}, s.Over pid → s'.Over pid
  guarded : ∀ {owns ending told}, s.Guarded owns ending (fun n => told n ∨ tells n) →
    s'.Guarded owns ending told

namespace Tells

variable {tells tells' tells'' : Nat → Prop} {s'' : Supervisor}

lemma moves (h : Tells p ω tells s s') : Moves p ω s s' :=
  ⟨h.steps, h.ended, fun hg => h.guarded (hg.mono (fun _ => id) fun _ => .inl)⟩

/-- Where nobody is told. -/
lemma of_moves (h : Moves p ω s s') (hnobody : ∀ n, ¬tells n) : Tells p ω tells s s' :=
  ⟨h.steps, h.ended, fun hg => h.guarded (hg.mono (fun _ => id) fun n hn => hn.resolve_right (hnobody n))⟩

lemma trans (h : Tells p ω tells s s') (h' : Tells p ω tells' s' s'')
    (hall : ∀ n, tells'' n → tells n ∨ tells' n) : Tells p ω tells'' s s'' where
  steps := h.steps.trans h'.steps
  ended := h'.ended ∘ h.ended
  guarded hg := by
    refine h'.guarded (h.guarded (hg.mono (fun _ => id) fun n hn => ?_))
    rcases hn with hn | hn
    · exact .inl (.inl hn)
    · exact (hall n hn).symm.imp_left .inr

/-- What comes after. -/
lemma andThen (h : Tells p ω tells s s') (h' : Moves p ω s' s'') : Tells p ω tells s s'' :=
  ⟨h.steps.trans h'.steps, h'.ended ∘ h.ended, h'.guarded ∘ h.guarded⟩

/-- A session is opened and told from then on. -/
lemma «open» {x : Session} (hmove : Move p ω s { s with opened := s.opened.push x })
    (h : Tells p ω (· = s.opened.size) { s with opened := s.opened.push x } s')
    (hx : x.closing = false) : Moves p ω s s' :=
  ⟨.head hmove h.steps, h.ended, fun hg => h.guarded (hg.opened hx)⟩

end Tells

/-- The end of the daemon is seen to: it has exited, somebody tries to kill it, or somebody is about
to. -/
lemma tells_onPeerClosed (h : Tidy p s) (n : Nat) : Tells p ω (· = n) s (s.onPeerClosed n) := by
  rw [onPeerClosed]
  split
  · next hnone =>
    refine ⟨.refl, id, fun hg => (hg.mono (fun _ => .inl) fun _ => id).discharge fun x hx => ?_⟩
    cases hnone.symm.trans hx
  · next x hx =>
    have hguarded := fun {owns ending told} (hg : s.Guarded owns ending told) => hg.evict n
    have hsteps : Steps p ω s (s.evict n) := steps_evict n
    obtain ⟨slots, heq⟩ := evict_eq s n
    rw [heq] at hguarded hsteps ⊢
    have htidy := h.steps hsteps
    have hpid := (h.opened hx).2
    dsimp only
    split
    · next hsettled =>
      refine ⟨hsteps, id, fun {owns ending told} hg => (hguarded hg).discharge fun y hy => ?_⟩
      cases hx.symm.trans hy
      rcases Bool.or_eq_true_iff.1 hsettled with hclosing | hgone
      · exact (hg.sessions hx).imp id fun hrest => hrest.resolve_right fun hopen => by
          simp [hclosing] at hopen
      · exact .inl (over_of_not_isRunning hpid (by simpa using hgone))
    · have hreport : Moves p ω { s with slots } _ := moves_report
        [Log.info ("EPC connection to nimsuggest for " ++ x.key ++ " lost")]
      have hkill := hreport.andThen htidy fun h => moves_kill h x.pid
      have hover := over_kill (htidy.moves hreport) hpid
      have hdone : ∀ {s'}, Moves p ω { s with slots } s' → s'.Over x.pid → Tells p ω (· = n) s s' :=
        fun hmoves hover => by
          refine ⟨hsteps.trans hmoves.steps, hmoves.ended, fun hg => ?_⟩
          refine (hmoves.guarded (hguarded hg)).discharge fun y hy => ?_
          obtain ⟨z, hz, -, hpid, -⟩ := (Moves.keeps hmoves).opened hx
          cases hy.symm.trans hz
          exact .inl (hpid ▸ hover)
      split
      · next s₁ heq =>
        rw [heq] at hkill hover
        exact hdone hkill hover
      · next s₁ f heq =>
        rw [heq] at hkill hover
        have hlog : Moves p ω s₁ (s₁.report [Log.error "EPC close callback failed"]) := moves_report _
        exact hdone (hkill.trans hlog) (hlog.ended hover)

lemma tells_apply (h : Tidy p s) (n : Nat) (e : Peer.Effect Nat)
    (he : ∀ f r, e = .settle f r → s.kernel.Loose p f) :
    Tells p ω (fun m => .callback m = e) s (apply n s e) := by
  cases e with
  | send frame => exact .of_moves (moves_transmit h n frame) nofun
  | settle f r => exact .of_moves (moves_kernel (.single (.settle _ (he f r rfl)))) nofun
  | log line => exact .of_moves (moves_report _) nofun
  | closeConnection => exact .of_moves (moves_updateLink h n fun _ =>
      ⟨rfl, rfl, rfl, rfl, id, rfl⟩) nofun
  | callback m =>
    have htells := tells_onPeerClosed (ω := ω) h m
    exact ⟨htells.steps, htells.ended, fun hg => htells.guarded (hg.mono (fun _ => id) fun j hj =>
      hj.imp_right fun heq => by cases heq; rfl)⟩

/-- Effects happen one after the other. -/
lemma tells_effects (h : Tidy p s) (n : Nat) {es : List (Peer.Effect Nat)}
    (hes : Peer.Settles (s.kernel.Loose p) es) :
    Tells p ω (fun m => .callback m ∈ es) s (es.foldl (apply n) s) := by
  induction es generalizing s with
  | nil => exact .of_moves .refl nofun
  | cons e es ih =>
    have hone : Tells p ω _ s _ := tells_apply h n e fun f r heq => hes f r (heq ▸ List.mem_cons_self)
    have hrest := ih (h.moves hone.moves) fun f r hmem =>
      (Moves.widens hone.moves).loose (.refl p _) (hes f r (List.mem_cons_of_mem _ hmem))
    exact hone.trans hrest fun m hm => List.mem_cons.1 hm

/-- The future of a call over a connection, or one that nobody uses yet. -/
def Answers (p : Plan) (s : Supervisor) (l : Link) (w : Id) : Prop :=
  s.kernel.Loose p w ∧ (l.Calls w ∨ s.Unused w)

lemma Tidy.answers (h : Tidy p s) {n : Nat} {l : Link} (hl : s.links[n]? = some l) :
    l.connection.peer.Awaits (s.Answers p l) := fun c hc =>
  ⟨(h.links l (Array.mem_of_getElem? hl)).awaits c hc, .inl ⟨c, hc, rfl⟩⟩

/-- What a peer does is a change of its connection. -/
lemma Tidy.linkStep_of_within (h : Tidy p s) {n : Nat} {l : Link} (hl : s.links[n]? = some l)
    {c : Connection Nat} {es : List (Peer.Effect Nat)}
    (hc : l.connection.Within (s.Answers p l) c es)
    (hown : ∀ m ∈ c.peer.callbacks, On s.opened n m) :
    LinkStep s n l { l with connection := c } where
  pid := rfl
  listener := hc.listener
  told := hown
  ages := hc.ages.mono fun {f} hf hnew => hf.2.resolve_left fun ⟨d, hd, heq⟩ => hnew d hd heq
  heard {w} hw := by
    have hheard := h.apart.heard l (Array.mem_of_getElem? hl) w (hc.waiter ▸ hw)
    refine ⟨hheard, ?_⟩
    rintro ⟨d, hd, rfl⟩
    rcases (hc.awaits d hd).2 with hcall | hunused
    · exact hheard l (Array.mem_of_getElem? hl) hcall
    · exact hunused.links l (Array.mem_of_getElem? hl) (hc.waiter ▸ hw)

lemma Tidy.move_connection (h : Tidy p s) {n : Nat} {l : Link} (hl : s.links[n]? = some l)
    {c : Connection Nat} {es : List (Peer.Effect Nat)}
    (hc : l.connection.Within (s.Answers p l) c es)
    (hown : ∀ m ∈ c.peer.callbacks, On s.opened n m) :
    Move p ω s (s.updateLink n fun l => { l with connection := c }) := by
  have hloose := h.links l (Array.mem_of_getElem? hl)
  refine .link n _ (fun l' hl' => ?_) fun l' hl' => ?_
  · cases hl.symm.trans hl'
    exact ⟨fun d hd => (hc.awaits d hd).1, fun w hw => hloose.incoming w (hc.waiter ▸ hw),
      fun t ht => hloose.listener t (hc.listener ▸ ht), hc.refusalFault ▸ hloose.refuses,
      hc.clear hloose.clear⟩
  · cases hl.symm.trans hl'
    exact h.linkStep_of_within hl hc hown

/-- The peer of a connection changes, and its effects happen.  Sessions that are to be told are called
back, or they are registered with the peer. -/
lemma tells_applyAll (h : Tidy p s) {n : Nat} {l : Link} (hl : s.links[n]? = some l)
    {c : Connection Nat} {es : List (Peer.Effect Nat)}
    (hc : l.connection.Within (s.Answers p l) c es)
    (hhands : l.connection.peer.Hands c.peer es) (hown : ∀ m ∈ c.peer.callbacks, On s.opened n m)
    {tells : Nat → Prop}
    (htells : ∀ m, tells m → .callback m ∈ es ∨ c.peer.closed = false ∧ m ∈ c.peer.callbacks)
    (hplace : ∀ m x, tells m → s.opened[m]? = some x → x.link = n) :
    Tells p ω tells s (s.applyAll n c es) := by
  have hmove : Move p ω s _ := h.move_connection hl hc hown
  have hset : Steps p ω s _ := .single hmove
  have heffects : Tells p ω _ _ _ :=
    tells_effects (h.move hmove) n fun f r hmem => (hc.settles f r hmem).1
  refine ⟨hset.trans heffects.steps, heffects.ended, fun {owns ending told} hg => heffects.guarded ?_⟩
  refine ⟨fun {m x} hx => ?_, hg.slots⟩
  refine (hg.sessions hx).imp id (Or.imp_right (And.imp_right fun htold => ?_))
  have hregistered : c.peer.closed = false ∧ m ∈ c.peer.callbacks →
      (s.updateLink n fun l => { l with connection := c }).Registered n m := fun hm => by
    refine ⟨{ l with connection := c }, ?_, hm⟩
    rw [updateLink, Array.getElem?_modify, if_pos rfl, hl]
    rfl
  rcases htold with (htold | hm) | ⟨l', hl', hopen, hm⟩
  · exact .inl (.inl htold)
  · rw [hplace m x hm hx]
    exact (htells m hm).imp .inr hregistered
  · by_cases hlink : x.link = n
    · rw [hlink] at hl' ⊢
      cases hl.symm.trans hl'
      exact (hhands hopen m hm).imp .inr hregistered
    · refine .inr ⟨l', ?_, hopen, hm⟩
      rw [updateLink, Array.getElem?_modify, if_neg (Ne.symm hlink), hl']

lemma moves_applyAll (h : Tidy p s) {n : Nat} {l : Link} (hl : s.links[n]? = some l)
    {c : Connection Nat} {es : List (Peer.Effect Nat)}
    (hc : l.connection.Within (s.Answers p l) c es)
    (hhands : l.connection.peer.Hands c.peer es) (hconfines : l.connection.peer.Confines c.peer es) :
    Moves p ω s (s.applyAll n c es) := by
  have htells : Tells p ω (fun _ => False) s (s.applyAll n c es) :=
    tells_applyAll h hl hc hhands (fun m hm => h.apart.told hl (hconfines m (.inl hm))) nofun nofun
  exact htells.moves

lemma moves_stopPeer (h : Tidy p s) (n : Nat) : Moves p ω s (s.stopPeer n) := by
  rw [stopPeer]
  split
  · exact .refl
  · next l hl =>
    split
    · exact .refl
    · have hloose := h.links l (Array.mem_of_getElem? hl)
      have hstop : ∀ {k : Machine}, Kernel.Acts p Routine.Quiet s.kernel k →
          Moves p ω s (Supervisor.applyAll { s with kernel := k } n
            (l.connection.withPeer (l.connection.peer.close k.isDone none)).1
            (l.connection.withPeer (l.connection.peer.close k.isDone none)).2) := by
        intro k hacts
        have hmove : Moves p ω s { s with kernel := k } := moves_kernel hacts
        have htidy := h.moves hmove
        have hclose := (htidy.answers hl).close k.isDone none
        have hout := Peer.outward_close l.connection.peer k.isDone none
        exact hmove.trans (moves_applyAll htidy hl (.withPeer hclose (Peer.shrinks_close _ _ _))
          hout.hands hout.confines)
      refine hstop ?_
      split
      · next t ht => exact .single (.cancel (hloose.listener t ht).2)
      · exact .refl

/-! ## Connecting -/

lemma opened_connect (s : Supervisor) (port : Int) : (s.connect port).1.opened = s.opened := by
  rw [connect]
  split
  · rfl
  · split <;> rfl

lemma connect_ok {port : Int} {n : Nat} (h : (s.connect port).2 = .ok n) : n = s.links.size := by
  rw [connect] at h
  split at h
  · cases h
  · split at h
    · cases h
    · exact (Except.ok.inj h).symm

/-- A connection that is made is the last one. -/
lemma moves_connect (h : Tidy p s) (port : Int) :
    Moves p ω s (s.connect port).1 ∧
      ∀ n, (s.connect port).2 = .ok n → n < (s.connect port).1.links.size := by
  rw [connect]
  split
  · exact ⟨.refl, nofun⟩
  · next q hq =>
    split
    · exact ⟨.refl, nofun⟩
    · have hnote : Moves p ω s (s.note ("connect " ++ ("localhost:" ++ Text.ofInt port))) :=
        moves_note _
      generalize s.note ("connect " ++ ("localhost:" ++ Text.ofInt port)) = s₁ at hnote ⊢
      have h₁ := h.moves hnote
      have hspawn : Moves p ω s₁ { s₁ with kernel := (s₁.kernel.spawn (.listen s₁.links.size)).1 } :=
        moves_kernel (.single (.spawn ⟨rfl, rfl, rfl, rfl, rfl⟩))
      have hlink : LinkLoose (s₁.kernel.spawn (.listen s₁.links.size)).1 p
          { connection :=
              { listener := some s₁.kernel.futures.size, refusalFault := some refusalFault }
            pid := q.pid } :=
        { awaits := fun c hc => absurd hc List.not_mem_nil
          incoming := nofun
          listener := by
            rintro t ⟨⟩
            exact h₁.follows.knows_spawn
          refuses := rfl
          clear := ⟨rfl, rfl, rfl⟩ }
      have hlistens : ∀ t, some s₁.kernel.futures.size = some t → ∃ a r,
          (s₁.kernel.spawn (.listen s₁.links.size)).1.activity? t = some a ∧ a.body = some r ∧
            r.helps = true := by
        rintro t ⟨⟩
        exact ⟨_, _, Kernel.activity?_spawn.trans (if_pos rfl), rfl, rfl⟩
      have hpush : Moves p ω s _ := hnote.trans (hspawn.trans
        (.single (.connected hlink rfl rfl hlistens) (.of_connected _)))
      have hprocess := hpush.andThen h fun h => .single (.process q.pid
        (fun q => { q with connection := some s₁.links.size })
        (fun q hq _ => { h.processes q hq with }) (fun _ => rfl)
        (fun q n hn => by
          cases hn
          exact .inr ⟨_, Array.getElem?_push_size, rfl⟩)
        fun q hq _ w hw => h.apart.awaited q hq w (hw.imp_left fun ⟨o, ho⟩ => ⟨o, by cases o <;> exact ho⟩))
        (.of_process q.pid (fun _ => rfl) fun _ => id)
      refine ⟨hprocess.trans (moves_report _), ?_⟩
      rintro n ⟨⟩
      exact Nat.lt_of_lt_of_eq (Nat.lt_succ_self _) (Array.size_push _).symm

end SuggestBridge.Supervisor
