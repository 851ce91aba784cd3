import SuggestBridge.Proofs.Supervisor.Sparing

/-!
# Turns that leave a ward alone

A task that works for another startup or session leaves a ward alone in its turn: one that reads what a
process writes or waits for its end, one that watches a session, one that listens on a connection, and
the startup itself once it has begun, even when it ends well after it was asked to cancel and opens a
session over a connection to a process of the ward.
-/

namespace SuggestBridge.Supervisor

open SuggestBridge.Task

variable {p : Plan} {w : Ward} {running : Option Id} {s s' : Supervisor} {k : Machine}
  {n pid : Nat} {t : Id}

/-! ## What is new -/

namespace Spares

lemma fresh (h : Secure p w running s) : Spares w s { s with kernel := s.kernel.fresh.1 } :=
  .of_kernel (.fresh fun _ => h.lt)

lemma setOutput (pid : Nat) (o : Daemon.Output) (stream : Stream Failure) :
    Spares w s (s.updateProcess pid fun q => q.setOutput o stream) :=
  .updateProcess (fun q => setOutput_pid q o _) (fun _ q => by cases o <;> rfl)
    fun q n _ hn => by cases o <;> exact hn

/-- A connection is made. -/
lemma connected (h : ∀ n, w.link n → n < s.links.size) (l : Link) :
    Spares w s { s with links := s.links.push l } := by
  have hold : ∀ {n}, w.link n → (s.links.push l)[n]? = s.links[n]? := fun hn => by
    rw [Array.getElem?_push, if_neg (Nat.ne_of_lt (h _ hn))]
  exact { Spares.refl w s with
    peers := fun hn => by rw [peerOf, peerOf, hold hn]
    lines := fun hn => hold (w.lines hn) }

/-- A session is opened. -/
lemma opened (h : ∀ n, w.session n → n < s.opened.size) (x : Session) :
    Spares w s { s with opened := s.opened.push x } :=
  { Spares.refl w s with
    sessions := fun hn => by rw [Array.getElem?_push, if_neg (Nat.ne_of_lt (h _ hn))] }

end Spares

/-! ## Reading and waiting for processes -/

lemma spares_readLine (h : Secure p w running s) (pid : Nat) (input : Outcome Value Failure) :
    Spares w s (s.readLine pid input).1 := by
  unfold readLine
  split
  · split
    · dsimp only
      split <;> exact .setOutput pid .stdout _
    · dsimp only
      split
      · exact .setOutput pid .stdout _
      · split
        · exact .setOutput pid .stdout _
        · exact (Spares.fresh h).trans (.setOutput pid .stdout _)
  · exact .refl w s
  · exact .refl w s

lemma spares_reap (h : Secure p w running s) (pid : Nat) (input : Outcome Value Failure) :
    Spares w s (s.reap pid input).1 := by
  unfold reap
  split
  · split
    · exact .refl w s
    · exact (Spares.fresh h).trans (.updateProcess (fun _ => rfl) (fun _ _ => rfl) fun _ _ _ => id)
  · exact .refl w s
  · exact .refl w s

lemma spares_drain (h : Secure p w running s) (key : Text) (pid : Nat) (o : Daemon.Output)
    (input : Outcome Value Failure) : Spares w s (s.drain key pid o input).1 := by
  unfold drain
  split
  · next q _ =>
    have hlog : Sparing p w s _ :=
      sparing_report (chunkLines key o (q.output o).buffer.length (q.output o).buffer)
    dsimp only
    split
    · exact hlog.spares.trans (.setOutput pid o _)
    · exact hlog.spares.trans ((Spares.fresh (hlog.secure h)).trans (.setOutput pid o _))
  · exact .refl w s
  · exact .refl w s

/-! ## Watching and listening -/

/-- A connection of somebody else. -/
structure Outlying (w : Ward) (s : Supervisor) (n : Nat) : Prop where
  link : ¬w.link n
  sessions : ∀ {m}, On s.opened n m → Foreign w s m

lemma Outlying.spares (h : Outlying w s n) (hw : w.futures w.startup) (hkeeps : Keeps s s')
    (hspares : Spares w s s') (hopened : s'.opened = s.opened) : Outlying w s' n :=
  ⟨h.link, fun hm => (h.sessions (hopened ▸ hm)).spares hw hkeeps hspares⟩

lemma opened_reap (s : Supervisor) (pid : Nat) (input : Outcome Value Failure) :
    (s.reap pid input).1.opened = s.opened := by
  unfold reap
  split
  · split <;> rfl
  · rfl
  · rfl

/-- A session that has lost its slot ends without the ward being concerned. -/
lemma spares_watch (h : Secure p w running s) {x : Session} (hx : s.opened[n]? = some x)
    (hlink : Outlying w s x.link) (input : Outcome Value Failure) :
    Spares w s (s.watch n input).1 := by
  have hreap : Sparing p w s (s.reap x.pid input).1 :=
    ⟨(turns_reap h.tidy x.pid input).moves, spares_reap h x.pid input⟩
  have hopened := opened_reap s x.pid input
  rw [watch, hx]
  dsimp only
  generalize s.reap x.pid input = r at hreap hopened ⊢
  obtain ⟨s₁, course⟩ := r
  cases course with
  | waits state future => exact hreap.spares
  | ends o =>
    dsimp only [Progress.andThen] at hopened hreap ⊢
    split
    · next code z hz =>
      rw [hopened] at hz
      cases hx.symm.trans hz
      have hlog := hreap.trans (sparing_report [exitLine x.key x.closing code])
      have hsecure := hlog.secure h
      have hlink' := hlink.spares h.startup (Moves.keeps hlog.moves) hlog.spares hopened
      rw [evict_of_foreign hsecure.slot (hlink'.sessions ⟨x, (congrArg (·[n]?) hopened).trans hx, rfl⟩)]
      exact hlog.spares.trans (sparing_stopPeer hsecure hlink'.link fun _ => hlink'.sessions).spares
    · exact hreap.spares

section Listening

variable (h : Secure p w running s) (hn : Outlying w s n)
include h hn

lemma spares_followListener {l : Link} (hl : s.links[n]? = some l)
    {r : Connection Nat × List (Peer.Effect Nat) × Connection.Pause}
    (hr : l.connection.Within (s.Answers p l) r.1 r.2.1)
    (hout : l.connection.peer.Outward r.1.peer r.2.1) (hframes : Peer.frames r.2.1 = []) :
    Spares w s (s.followListener n r).1 := by
  obtain ⟨c, effects, why⟩ := r
  have hall : Sparing p w s (s.applyAll n c effects) :=
    sparing_applyAll h hn.link hl hr hout.hands hout.confines hframes fun _ => hn.sessions
  unfold followListener
  dsimp only
  split
  · exact hall.spares.trans ((Spares.fresh (hall.secure h)).trans (.updateOther _ hn.link))
  · exact hall.spares

lemma spares_beginListening : Spares w s (s.beginListening n).1 := by
  rw [beginListening]
  split
  · next l hl =>
    exact spares_followListener h hn hl (Connection.within_beginListening (h.tidy.answers hl) _ _)
      (Connection.outward_beginListening _ _ _)
      (Connection.frames_beginListening (h.tidy.links l (Array.mem_of_getElem? hl)).refuses _ _)
  · exact .refl w s

lemma spares_resumeListening (input : Outcome Value Failure) :
    Spares w s (s.resumeListening n input).1 := by
  rw [resumeListening]
  split
  · next l hl =>
    exact spares_followListener h hn hl
      (Connection.within_resumeListening (h.tidy.answers hl) _ _ input)
      (Connection.outward_resumeListening _ _ _ _)
      (Connection.frames_resumeListening (h.tidy.links l (Array.mem_of_getElem? hl)).refuses _ _ _)
  · exact .refl w s

end Listening

/-! ## Startups -/

lemma spares_abandonStartup (h : Secure p w running s) (hpid : Strange w s pid)
    (o : Outcome Value Failure) : Spares w s (s.abandonStartup pid o).1 := by
  have hkill := sparing_kill h hpid
  rw [abandonStartup]
  split
  · next s₁ f heq =>
    rw [heq] at hkill
    exact hkill.spares
  · next s₁ heq =>
    rw [heq] at hkill
    exact hkill.spares.trans (sparing_track (hkill.secure h) ⟨rfl, rfl, rfl, rfl, rfl⟩).spares

/-- A connection is made to whatever process listens on a port, even to one of the ward. -/
lemma sparing_connect (h : Secure p w running s) (port : Int) :
    Sparing p w s (s.connect port).1 := by
  refine ⟨(moves_connect h.tidy port).1, ?_⟩
  rw [connect]
  split
  · exact .refl w s
  · next q hq =>
    split
    · exact .refl w s
    · have hnote : Sparing p w s (s.note ("connect " ++ ("localhost:" ++ Text.ofInt port))) :=
        sparing_note _
      have hsecure := hnote.secure h
      generalize s.note ("connect " ++ ("localhost:" ++ Text.ofInt port)) = s₁ at hnote hsecure ⊢
      have hspawn : Spares w s₁ { s₁ with kernel := (s₁.kernel.spawn (.listen s₁.links.size)).1 } :=
        .of_kernel (.spawn (fun _ => hsecure.lt) _)
      have hpush : Spares w s _ := (hnote.spares.trans hspawn).trans
        (.connected (s := { s₁ with kernel := (s₁.kernel.spawn (.listen s₁.links.size)).1 })
          (fun _ => hsecure.links)
          { connection :=
              { listener := some s₁.kernel.futures.size, refusalFault := some refusalFault }
            pid := q.pid })
      have hheld : ∀ m, Spares w m
          (m.updateProcess q.pid fun q => { q with connection := some s₁.links.size }) := fun m =>
        .updateProcess (fun _ => rfl) (fun _ _ => rfl) fun q n hn heq => by
          cases heq
          exact absurd (hsecure.links (w.lines hn)) (Nat.lt_irrefl _)
      exact (hpush.trans (hheld _)).trans (.report _)

/-- The peer of a connection that was just made is open, and nobody is to be told of its end. -/
lemma peer_connect {port : Int} (h : (s.connect port).2 = .ok n) {l : Link}
    (hl : (s.connect port).1.links[n]? = some l) : l.connection.peer = {} := by
  obtain ⟨r, hr⟩ : ∃ r, s.connect port = r := ⟨_, rfl⟩
  rw [hr] at h hl
  rw [connect] at hr
  split at hr
  · subst hr
    cases h
  · split at hr
    · subst hr
      cases h
    · subst hr
      cases h
      cases (Array.getElem?_push_size.symm.trans hl :)
      rfl

lemma spares_openSession (h : Secure p w running s) (project : Project) (hpid : Strange w s pid)
    (port : Int) : Spares w s (s.openSession project pid port).1 := by
  have hconnect := sparing_connect h port
  have hpeer : ∀ n l, (s.connect port).2 = .ok n → (s.connect port).1.links[n]? = some l →
      l.connection.peer = {} := fun _ _ hn hl => peer_connect hn hl
  have hmade : ∀ n, (s.connect port).2 = .ok n → ∃ l, (s.connect port).1.links[n]? = some l :=
    fun n hn => ⟨_, Array.getElem?_eq_getElem ((moves_connect (ω := .all) h.tidy port).2 n hn)⟩
  have hnew : ∀ n, (s.connect port).2 = .ok n → ¬w.link n := fun n hn hw => by
    rw [connect_ok hn] at hw
    exact absurd (h.links hw) (Nat.lt_irrefl _)
  rw [openSession]
  split
  · next s₁ f heq =>
    rw [heq] at hconnect
    exact hconnect.spares.trans
      (spares_abandonStartup (hconnect.secure h) (hpid.spares hconnect.spares) _)
  · next s₁ link heq =>
    rw [heq] at hconnect hpeer hmade hnew
    have hsecure := hconnect.secure h
    refine hconnect.spares.trans ?_
    dsimp only
    generalize hx : (⟨project, project.key s₁.cwd, pid, link, port, s₁.kernel.now, false⟩ : Session) = x
    have hopen : Spares w s₁ { s₁ with opened := s₁.opened.push x } := .opened (fun _ => hsecure.sessions) x
    have hlt : ∀ f, w.futures f → f < s₁.kernel.futures.size := fun _ => hsecure.lt
    -- the new connection is open, so that nobody is told of its end at once
    obtain ⟨l, hl⟩ : ∃ l, s₁.links[link]? = some l := hmade link rfl
    have hnone : (l.connection.withPeer (l.connection.peer.addCallback s₁.opened.size)).2 = [] := by
      rw [hpeer link l rfl hl]
      rfl
    rw [hl]
    dsimp only
    rw [hnone]
    have hset := hopen.trans (.updateOther (fun l' =>
      { l' with
        connection := (l.connection.withPeer (l.connection.peer.addCallback s₁.opened.size)).1 })
      (hnew link rfl))
    have hwatch := hset.track (fun f hf => hlt f hf) (.watch s₁.opened.size)
    have hdrain := hwatch.track (fun f hf => Nat.lt_of_lt_of_eq (Nat.lt_succ_of_lt (hlt f hf))
      Kernel.size_spawn.symm) (.drain (project.key s₁.cwd) pid .stdout)
    exact hdrain.trans (.report _)

/-! ## The waits of a startup -/

/-- What the line that a daemon wrote leads to. -/
lemma spares_onLine (h : Secure p w running s) (project : Project) (hpid : Strange w s pid)
    (line : Bytes) : Spares w s (s.onLine project pid line).1 := by
  unfold onLine
  dsimp only
  split
  · have hwait : Spares w s { s with
        kernel := (Deadline.begin s.kernel s.settings.handshakeTimeout.toFloat (.reap pid)).1 } :=
      .of_kernel (.beginWait (fun _ => h.lt) _ _)
    split <;> exact hwait
  · split
    · exact spares_openSession h project hpid _
    · exact spares_abandonStartup h hpid _

lemma spares_afterAnnouncing (h : Secure p w running s) (project : Project) (hpid : Strange w s pid)
    (step : Deadline.Step Value Failure) : Spares w s (s.afterAnnouncing project pid step).1 := by
  unfold afterAnnouncing
  split
  · exact .refl w s
  · exact spares_abandonStartup h hpid _
  · exact spares_onLine h project hpid _
  · exact spares_onLine h project hpid _
  · exact spares_abandonStartup h hpid _

lemma spares_afterDeparting (h : Secure p w running s) (hpid : Strange w s pid)
    (step : Deadline.Step Value Failure) : Spares w s (s.afterDeparting pid step).1 := by
  unfold afterDeparting
  split
  · exact .refl w s
  · exact spares_abandonStartup h hpid _
  · exact spares_abandonStartup h hpid _
  · exact spares_abandonStartup h hpid _
  · exact spares_abandonStartup h hpid _

lemma spares_resumeStartup (h : Secure p w running s) (project : Project) {state : Startup}
    (hpid : Strange w s state.pid) (haside : ∀ t ∈ state.refs, Kernel.Aside w.futures s.kernel t)
    (hknows : ∀ t ∈ state.refs, s.kernel.Knows p t) (input : Outcome Value Failure) :
    Spares w s (s.resumeStartup project state input).1 := by
  have hwait : ∀ {d : Deadline}, d.task ∈ state.refs →
      Sparing p w s { s with kernel := (Deadline.resume s.kernel d input).1 } := fun hd =>
    sparing_kernel (Kernel.acts_resumeWait h.tidy.follows (hknows _ hd) input).1
      (.resumeWait (fun _ => h.lt) (haside _ hd) input)
  unfold resumeStartup
  cases state with
  | announcing pid d =>
    have hresume := hwait (d := d) (by simp [Startup.refs])
    exact hresume.spares.trans (spares_afterAnnouncing (hresume.secure h) project
      (hpid.spares hresume.spares) _)
  | departing pid d =>
    have hresume := hwait (d := d) (by simp [Startup.refs])
    exact hresume.spares.trans (spares_afterDeparting (hresume.secure h)
      (hpid.spares hresume.spares) _)

/-! ## What happens when a startup has ended -/

/-- Nothing is in any slot for a startup that has lost its slot. -/
lemma spares_onStartupEnded {key : Text} {u : Id} (hslot : s.slots.get? key ≠ some u) :
    Spares w s (s.onStartupEnded key u) := by
  have hrelease : ({ s with slots := s.slots.release key u } : Supervisor) = s := by
    rw [Slots.release, if_neg hslot]
  rw [onStartupEnded]
  split
  · exact .refl w s
  · exact .refl w s
  · rw [hrelease]
    exact .refl w s
  · rw [hrelease]
    exact .report _

/-! ## The end of a turn -/

/-- A task that works for somebody waits again, or has ended. -/
lemma Secure.follow (h : Secure p w (some t) s) (ht : ¬w.futures t)
    {r : Supervisor × Course Routine} (hr : Turns p .all (Plain p) s r) (hspares : Spares w s r.1)
    (hsteady : Steady true r) : Spares w s (r.1.follow t r.2) := by
  have hsecure : Secure p w (some t) r.1 := Sparing.secure ⟨hr.moves, hspares⟩ h
  obtain ⟨s', course⟩ := r
  refine hspares.trans ?_
  cases course with
  | waits state future =>
    obtain ⟨a, ha, -⟩ := hsecure.sound.runs t rfl
    have hstill := (hsteady.waits rfl).2 rfl
    have hfree : ¬w.futures future := hsecure.free (hr.waits rfl).1.2.2 fun _ l _ hl =>
      hstill.uncalled l (Array.mem_of_getElem? hl)
    exact .of_kernel (.suspend ha state ht hstill.leaf hfree)
  | ends o => exact .of_kernel (.finish o ht)

/-- A startup waits again, or has ended. -/
lemma Spares.follow (hspares : Spares w s s') (ht : ¬w.futures t)
    (hmust : s'.kernel.mustCancel t = false) (course : Course Routine) :
    Spares w s (s'.follow t course) := by
  refine hspares.trans ?_
  cases course with
  | waits state future => exact .of_kernel (.suspend_calm hmust state future ht)
  | ends o => exact .of_kernel (.finish o ht)

end SuggestBridge.Supervisor
