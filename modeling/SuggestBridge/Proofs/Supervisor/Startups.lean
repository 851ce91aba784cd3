import SuggestBridge.Proofs.Supervisor.Processes

/-!
# Turns, and the turns of startups

A turn of a routine is a sequence of moves, after which the routine waits for a future that the plan
says nothing about, or has ended.  `Turns` says so, together with what holds of the place where the
routine goes on.  A startup that ends well ends with a session of its project.
-/

namespace SuggestBridge.Supervisor

open SuggestBridge.Task

variable {p : Plan} {ω : Warrant} {s s' : Supervisor} {k : Machine} {σ τ : Type}

/-! ## Turns -/

/-- One turn of a routine: moves, and then a wait for a future that is known or the end. -/
structure Turns (p : Plan) (ω : Warrant) (fits : Supervisor → σ → Prop) (s : Supervisor)
    (r : Supervisor × Course σ) : Prop where
  moves : Moves p ω s r.1
  waits : ∀ {state future}, r.2 = .waits state future →
    r.1.kernel.Knows p future ∧ fits r.1 state

namespace Turns

variable {fits : Supervisor → σ → Prop} {fits' : Supervisor → τ → Prop}

lemma ends (h : Moves p ω s s') (o : Outcome Value Failure) : Turns p ω fits s (s', .ends o) := ⟨h, nofun⟩

lemma waiting (h : Moves p ω s s') {state : σ} {future : Id} (hf : s'.kernel.Knows p future)
    (hs : fits s' state) : Turns p ω fits s (s', .waits state future) := by
  refine ⟨h, ?_⟩
  rintro _ _ ⟨⟩
  exact ⟨hf, hs⟩

lemma after {r : Supervisor × Course σ} (h : Moves p ω s s') (hr : Turns p ω fits s' r) :
    Turns p ω fits s r := ⟨h.trans hr.moves, hr.waits⟩

/-- A turn goes on when a part of it has ended. -/
lemma andThen {part : Supervisor × Course σ} {wrap : σ → τ}
    {next : Supervisor → Outcome Value Failure → Supervisor × Course τ} (htidy : Tidy p s)
    (h : Turns p ω fits s part) (hwrap : ∀ {s state}, fits s state → fits' s (wrap state))
    (hnext : ∀ o, Tidy p part.1 → Turns p ω fits' part.1 (next part.1 o)) :
    Turns p ω fits' s (Progress.andThen part wrap next) := by
  obtain ⟨s', course⟩ := part
  cases course with
  | waits state future =>
    obtain ⟨hfuture, hstate⟩ := h.waits rfl
    exact .waiting h.moves hfuture (hwrap hstate)
  | ends o => exact .after h.moves (hnext o (htidy.moves h.moves))

end Turns

/-- A routine that neither starts a daemon nor waits for a startup. -/
structure Plain (p : Plan) (s : Supervisor) (r : Routine) : Prop where
  refs : ∀ x ∈ r.refs, s.kernel.Knows p x
  awaits : r.awaits? = none
  starts : r.starts? = none

/-! ## Reading and waiting for processes -/

/-- Makes a future that nothing else knows of. -/
lemma moves_fresh (h : Tidy p s) :
    Moves p ω s { s with kernel := s.kernel.fresh.1 } ∧
      s.kernel.fresh.1.Loose p s.kernel.fresh.2 ∧
        Unused { s with kernel := s.kernel.fresh.1 } s.kernel.fresh.2 :=
  ⟨moves_kernel (.single .fresh), h.follows.loose_add rfl, (h.unused (Nat.le_refl _)).fresh⟩

lemma turns_readLine (h : Tidy p s) (pid : Nat) (input : Outcome Value Failure) :
    Turns p ω (Plain p) s (s.readLine pid input) := by
  unfold readLine
  split
  · next q hq =>
    have hloose : StreamLoose s.kernel p q.stdout :=
      (h.processes q (mem_of_process? hq)).output .stdout
    have hset : ∀ {t : Task.Stream Failure}, t.waiter = q.stdout.waiter →
        Moves p ω s (s.updateProcess pid fun q => { q with stdout := t }) := fun ht =>
      moves_setOutput h pid .stdout (fun w hw => hloose w (ht ▸ hw)) fun w hw =>
        h.apart.awaited q (mem_of_process? hq) w (.inl ⟨.stdout, ht ▸ hw⟩)
    split
    · next line stream hline =>
      have hstream : stream.waiter = q.stdout.waiter := by
        rw [Task.Stream.line?] at hline
        split at hline
        · cases hline
          rfl
        · cases hline
      dsimp only
      split
      · exact .ends (hset hstream) _
      · exact .ends (hset hstream) _
    · have htaken := hset (t := { q.stdout with buffer := [] }) rfl
      dsimp only
      split
      · exact .ends htaken _
      · split
        · exact .ends htaken _
        · obtain ⟨hfresh, hwaiter, hunused⟩ : Moves p ω s _ ∧ _ := moves_fresh h
          have hstream : StreamLoose s.kernel.fresh.1 p
              { q.stdout with waiter := some s.kernel.futures.size } := by
            rintro w ⟨⟩
            exact hwaiter
          have hall := hfresh.andThen h fun h => moves_setOutput h pid .stdout hstream fun w hw => by
            cases hw
            exact hunused.calls
          exact .waiting hall hwaiter.knows ⟨nofun, rfl, rfl⟩
  · exact .ends .refl _
  · exact .ends .refl _

lemma turns_reap (h : Tidy p s) (pid : Nat) (input : Outcome Value Failure) :
    Turns p ω (Plain p) s (s.reap pid input) := by
  unfold reap
  split
  · split
    · exact .ends .refl _
    · obtain ⟨hfresh, hwaiter, hunused⟩ : Moves p ω s _ ∧ _ := moves_fresh h
      have hall := hfresh.andThen h fun h => .single (.process pid
        (fun q => { q with exitWaiters := q.exitWaiters ++ [s.kernel.futures.size] })
        (fun q hq _ => { h.processes q hq with exitWaiters := fun w hw => ?_ }) (fun _ => rfl)
        (fun _ _ => .inl) fun q hq _ w hw => ?_)
        (.of_process pid (fun _ => rfl) fun _ => id)
      · exact .waiting hall hwaiter.knows ⟨nofun, rfl, rfl⟩
      · rcases List.mem_append.1 hw with hw | hw
        · exact (h.processes q hq).exitWaiters w hw
        · exact List.mem_singleton.1 hw ▸ hwaiter
      · rcases hw with ⟨o, ho⟩ | hmem
        · exact h.apart.awaited q hq w (.inl ⟨o, by cases o <;> exact ho⟩)
        · rcases List.mem_append.1 hmem with hmem | hmem
          · exact h.apart.awaited q hq w (.inr hmem)
          · exact List.mem_singleton.1 hmem ▸ hunused.calls
  · exact .ends .refl _
  · exact .ends .refl _

/-- Whoever is told the exit code of a process is told so when the process has exited. -/
lemma over_of_reap (h : Tidy p s) {pid : Nat} (hpid : (s.process? pid).isSome = true)
    {input : Outcome Value Failure} {v : Value} (hends : (s.reap pid input).2 = .ends (.value v)) :
    (s.reap pid input).1.Over pid := by
  obtain ⟨q, hq⟩ := Option.isSome_iff_exists.1 hpid
  cases input with
  | value v' =>
    unfold reap at hends ⊢
    rw [hq] at hends ⊢
    dsimp only at hends ⊢
    by_cases hreaped : q.reaped = true
    · rw [if_pos hreaped]
      exact .inl ⟨q, hq, (h.processes q (mem_of_process? hq)).ended hreaped⟩
    · rw [if_neg hreaped] at hends
      cases hends
  | failure e => cases hends
  | cancelled => cases hends

lemma turns_drain (h : Tidy p s) (key : Text) (pid : Nat) (o : Daemon.Output)
    (input : Outcome Value Failure) : Turns p ω (Plain p) s (s.drain key pid o input) := by
  unfold drain
  split
  · next q hq =>
    have hloose : StreamLoose s.kernel p (q.output o) := (h.processes q (mem_of_process? hq)).output o
    have hlog : Moves p ω s _ := moves_report
      (chunkLines key o (q.output o).buffer.length (q.output o).buffer)
    have htaken := hlog.andThen h fun h' =>
      moves_setOutput h' pid o (t := { q.output o with buffer := [] }) hloose fun w hw =>
        h.apart.awaited q (mem_of_process? hq) w (.inl ⟨o, hw⟩)
    dsimp only
    split
    · exact .ends htaken _
    · obtain ⟨hfresh, hwaiter, hunused⟩ : Moves p ω _ _ ∧ _ := moves_fresh (h.moves hlog)
      have hstream : StreamLoose s.kernel.fresh.1 p
          { q.output o with buffer := [], waiter := some s.kernel.futures.size } := by
        rintro w ⟨⟩
        exact hwaiter
      have hmade : Moves p ω s _ := hlog.trans hfresh
      have hall := hmade.andThen h fun h => moves_setOutput h pid o hstream fun w hw => by
        cases hw
        exact hunused.calls
      exact .waiting hall hwaiter.knows ⟨nofun, rfl, rfl⟩
  · exact .ends .refl _
  · exact .ends .refl _

/-! ## Waiting with a deadline -/

/-- A routine that starts no daemon is begun and waited for. -/
lemma moves_beginWait (h : Tidy p s) (timeout : Float) {r : Routine} (hr : r.Quiet) :
    Moves p ω s { s with kernel := (Deadline.begin s.kernel timeout r).1 } ∧
      (Deadline.begin s.kernel timeout r).1.WaitsWell p (Deadline.begin s.kernel timeout r).2 := by
  obtain ⟨hacts, hwaits⟩ := Kernel.acts_beginWait h.follows timeout hr
  exact ⟨moves_kernel hacts, hwaits⟩

lemma moves_resumeWait (h : Tidy p s) {d : Deadline} (hd : s.kernel.Knows p d.task)
    (input : Outcome Value Failure) :
    Moves p ω s { s with kernel := (Deadline.resume s.kernel d input).1 } ∧
      (Deadline.resume s.kernel d input).1.WaitsWell p (Deadline.resume s.kernel d input).2 := by
  obtain ⟨hacts, hwaits⟩ := Kernel.acts_resumeWait h.follows hd input
  exact ⟨moves_kernel hacts, hwaits⟩

/-! ## Startups -/

/-- A startup goes on with a process that is there. -/
structure Startup.Fits (p : Plan) (s : Supervisor) (state : Startup) : Prop where
  refs : ∀ x ∈ state.refs, s.kernel.Knows p x
  child : (s.process? state.pid).isSome = true
  unowned : s.Unowned state.pid
  helps : ∀ x ∈ state.refs, s.Helps x

/-- A turn of a startup that has started a process, or could not.  A value that it ends with is a
session of its key with that process, and if it fails then the process is over. -/
structure StartupTurns (p : Plan) (ω : Warrant) (key : Text) (child : Option Nat) (s : Supervisor)
    (r : Supervisor × Course Startup) : Prop extends Turns p ω (Startup.Fits p) s r where
  place : ∀ {state future}, r.2 = .waits state future → child = some state.pid
  session : ∀ {v}, r.2 = .ends (.value v) →
    ∃ n x, v = .session n ∧ r.1.opened[n]? = some x ∧ x.key = key ∧ child = some x.pid
  failed : ∀ {o}, r.2 = .ends o → (∀ v, o ≠ .value v) → ∀ pid, child = some pid → r.1.Over pid

namespace StartupTurns

variable {key : Text} {child : Option Nat}

lemma after {r : Supervisor × Course Startup} (h : Moves p ω s s')
    (hr : StartupTurns p ω key child s' r) : StartupTurns p ω key child s r :=
  ⟨.after h hr.toTurns, hr.place, hr.session, hr.failed⟩

lemma fails (h : Moves p ω s s') {o : Outcome Value Failure} (ho : ∀ v, o ≠ .value v)
    (hover : ∀ pid, child = some pid → s'.Over pid) : StartupTurns p ω key child s (s', .ends o) := by
  refine ⟨.ends h o, nofun, ?_, fun _ _ => hover⟩
  rintro v ⟨⟩
  exact absurd rfl (ho v)

lemma waiting (h : Moves p ω s s') {state : Startup} {future : Id}
    (hf : s'.kernel.Knows p future) (hs : state.Fits p s') (hchild : child = some state.pid) :
    StartupTurns p ω key child s (s', .waits state future) := by
  refine ⟨.waiting h hf hs, ?_, nofun, nofun⟩
  rintro _ _ ⟨⟩
  exact hchild

end StartupTurns

variable {key : Text} {pid : Nat}

lemma turns_abandonStartup (h : Tidy p s) (hpid : (s.process? pid).isSome = true)
    {o : Outcome Value Failure} (ho : ∀ v, o ≠ .value v) :
    StartupTurns p ω key (some pid) s (s.abandonStartup pid o) := by
  have hkill : Moves p ω s _ := moves_kill h pid
  have hover := over_kill h hpid
  rw [abandonStartup]
  split
  · next s₁ f heq =>
    rw [heq] at hkill hover
    refine .fails hkill nofun ?_
    rintro _ ⟨⟩
    exact hover
  · next s₁ heq =>
    rw [heq] at hkill hover
    have htrack : Moves p ω s₁ (s₁.track (.reap pid)) :=
      moves_track (h.moves hkill) ⟨rfl, rfl, rfl, rfl, rfl⟩
    refine .fails (hkill.trans htrack) ho ?_
    rintro _ ⟨⟩
    exact htrack.ended hover

lemma turns_refuseStartup (h : Tidy p s) (hpid : (s.process? pid).isSome = true) (message : Text) :
    StartupTurns p ω key (some pid) s (s.refuseStartup pid message) :=
  turns_abandonStartup h hpid nofun

/-- What begins together with a session, which is told of the end of its connection from then on. -/
lemma tells_accompany (h : Tidy p s) {n : Nat} {x : Session} (hx : s.opened[n]? = some x)
    (key : Text) (pid : Nat) (lines : List LogLine) :
    Tells p ω (· = n) s ((((match s.links[x.link]? with
      | some l => s.applyAll x.link (l.connection.withPeer (l.connection.peer.addCallback n)).1
          (l.connection.withPeer (l.connection.peer.addCallback n)).2
      | none => s).track (.watch n)).track (.drain key pid .stdout)).report lines) := by
  obtain ⟨l, hl⟩ : ∃ l, s.links[x.link]? = some l := ⟨_, Array.getElem?_eq_getElem (h.opened hx).1⟩
  rw [hl]
  have hadd := (h.answers hl).addCallback n
  have htells : Tells p ω (· = n) s (s.applyAll x.link
      (l.connection.withPeer (l.connection.peer.addCallback n)).1
      (l.connection.withPeer (l.connection.peer.addCallback n)).2) := by
    refine tells_applyAll h hl (.withPeer hadd (Peer.shrinks_addCallback _ n))
      (Peer.hands_addCallback _ n) (fun m hm => ?_) ?_ ?_
    · rcases Peer.mem_callbacks_addCallback hm with hm | rfl
      · exact h.apart.told hl hm
      · exact ⟨x, hx, rfl⟩
    · rintro m rfl
      exact Peer.called_or_registered _ _
    · rintro m y rfl hy
      cases hx.symm.trans hy
      rfl
  have hwatch := moves_track (ω := ω) (h.moves htells.moves) (r := .watch n) ⟨rfl, rfl, rfl, rfl, rfl⟩
  have hdrain := hwatch.andThen (h.moves htells.moves) fun h =>
    moves_track h (r := .drain key pid .stdout) ⟨rfl, rfl, rfl, rfl, rfl⟩
  exact htells.andThen (hdrain.trans (moves_report lines))

lemma turns_openSession (h : Tidy p s) (project : Project)
    (hpid : (s.process? pid).isSome = true) (hfree : s.Unowned pid) (port : Int) :
    StartupTurns p ω (project.key s.cwd) (some pid) s (s.openSession project pid port) := by
  obtain ⟨hconnect, hlink⟩ : Moves p ω s _ ∧ _ := moves_connect h port
  have hkeeps := Moves.keeps hconnect
  rw [openSession]
  split
  · next s₁ f heq =>
    rw [heq] at hconnect hkeeps
    exact .after hconnect (turns_abandonStartup (h.moves hconnect) (hkeeps.process hpid) nofun)
  · next s₁ link heq =>
    rw [heq] at hconnect hlink hkeeps
    have h₁ := h.moves hconnect
    have hfree₁ : s₁.Unowned pid := by
      have hgrows := Steps.grows hconnect.steps
      have hopened := opened_connect s port
      rw [heq] at hopened
      exact hfree.of_grows hgrows hopened
    have hunused : ∀ n, ¬On s₁.opened link n := by
      have hopened := opened_connect s port
      rw [heq] at hopened
      have hsize : link = s.links.size := connect_ok (congrArg Prod.snd heq)
      rintro n ⟨y, hy, hlink⟩
      rw [hopened] at hy
      exact absurd (hlink.trans hsize) (Nat.ne_of_lt (h.opened hy).1)
    let x : Session := ⟨project, project.key s₁.cwd, pid, link, port, s₁.kernel.now, false⟩
    have hopen : Move p ω s₁ { s₁ with opened := s₁.opened.push x } :=
      .opened (hlink link rfl) (hkeeps.process hpid) hfree₁ hunused
    have htells : Tells p ω (· = s₁.opened.size) _ _ := tells_accompany (h₁.move hopen)
      Array.getElem?_push_size (project.key s₁.cwd) pid
      [Log.info ("nimsuggest for " ++ project.key s₁.cwd ++ " running (pid " ++ Text.ofNat pid ++
        ", port " ++ Text.ofInt port ++ ")")]
    have hall : Moves p ω s₁ _ := htells.open hopen rfl
    refine ⟨.ends (hconnect.trans hall) _, nofun, ?_, fun hends hno => ?_⟩
    · rintro v ⟨⟩
      obtain ⟨y, hy, hkey, hpid, -⟩ := (Moves.keeps htells.moves).opened Array.getElem?_push_size
      exact ⟨_, y, rfl, hy, hkey.trans (congrArg project.key hkeeps.cwd), congrArg some hpid.symm⟩
    · cases hends
      exact absurd rfl (hno _)

lemma turns_onLine (h : Tidy p s) (project : Project) (hpid : (s.process? pid).isSome = true)
    (hfree : s.Unowned pid) (line : Bytes) :
    StartupTurns p ω (project.key s.cwd) (some pid) s (s.onLine project pid line) := by
  unfold onLine
  dsimp only
  split
  · obtain ⟨hmoves, hwaits⟩ : Moves p ω s _ ∧ _ :=
      moves_beginWait h s.settings.handshakeTimeout.toFloat (r := .reap pid) ⟨rfl, rfl, rfl, rfl, rfl⟩
    obtain ⟨d, future, hwait⟩ :=
      Kernel.exists_waits_begin s.kernel s.settings.handshakeTimeout.toFloat (Routine.reap pid)
    obtain ⟨hfuture, htask⟩ := hwaits d future hwait
    obtain ⟨a, ha, hbody⟩ := Kernel.body_begin (Prod.ext rfl hwait)
    rw [hwait]
    refine .waiting hmoves hfuture ⟨by simpa [Startup.refs] using htask, hpid,
      hfree.of_grows (Steps.grows hmoves.steps) rfl, fun x hx => ?_⟩ rfl
    cases List.mem_singleton.1 hx
    exact .of_body ha hbody rfl
  · split
    · exact turns_openSession h project hpid hfree _
    · exact turns_refuseStartup h hpid _

lemma turns_afterAnnouncing (h : Tidy p s) (project : Project)
    (hpid : (s.process? pid).isSome = true) (hfree : s.Unowned pid)
    {step : Deadline.Step Value Failure} (hstep : s.kernel.WaitsWell p step)
    (hhelps : ∀ d f, step = .waits d f → s.Helps d.task) :
    StartupTurns p ω (project.key s.cwd) (some pid) s (s.afterAnnouncing project pid step) := by
  unfold afterAnnouncing
  split
  · next d future =>
    obtain ⟨hfuture, htask⟩ := hstep d future rfl
    exact .waiting .refl hfuture ⟨by simpa [Startup.refs] using htask, hpid, hfree,
      by simpa [Startup.refs] using hhelps d future rfl⟩ rfl
  · exact turns_refuseStartup h hpid _
  · exact turns_onLine h project hpid hfree _
  · exact turns_onLine h project hpid hfree _
  · next o _ hnot => exact turns_abandonStartup h hpid fun v hv => hnot v (hv ▸ rfl)

lemma turns_afterDeparting (h : Tidy p s) (hpid : (s.process? pid).isSome = true)
    (hfree : s.Unowned pid) {step : Deadline.Step Value Failure}
    (hstep : s.kernel.WaitsWell p step)
    (hhelps : ∀ d f, step = .waits d f → s.Helps d.task) :
    StartupTurns p ω key (some pid) s (s.afterDeparting pid step) := by
  unfold afterDeparting
  split
  · next d future =>
    obtain ⟨hfuture, htask⟩ := hstep d future rfl
    exact .waiting .refl hfuture ⟨by simpa [Startup.refs] using htask, hpid, hfree,
      by simpa [Startup.refs] using hhelps d future rfl⟩ rfl
  · exact turns_refuseStartup h hpid _
  · exact turns_refuseStartup h hpid _
  · exact turns_abandonStartup h hpid nofun
  · next o _ hnot => exact turns_abandonStartup h hpid fun v hv => hnot v (hv ▸ rfl)

lemma turns_resumeStartup (h : Tidy p s) (project : Project) {state : Startup}
    (hstate : state.Fits p s) (input : Outcome Value Failure) :
    StartupTurns p ω (project.key s.cwd) (some state.pid) s (s.resumeStartup project state input) := by
  -- the task that the startup waits for stays the same
  have hhelps : ∀ {d : Deadline}, d.task ∈ state.refs → Moves p ω s
      { s with kernel := (Deadline.resume s.kernel d input).1 } → ∀ d' f,
      (Deadline.resume s.kernel d input).2 = .waits d' f →
        Helps { s with kernel := (Deadline.resume s.kernel d input).1 } d'.task := by
    intro d hd hmoves d' f hwait
    rw [Kernel.task_resume hwait]
    exact (hstate.helps _ hd).of_grows (hstate.refs _ hd).1 (Steps.grows hmoves.steps)
  unfold resumeStartup
  cases state with
  | announcing pid d =>
    have hmem : d.task ∈ (Startup.announcing pid d).refs := by simp [Startup.refs]
    obtain ⟨hmoves, hwaits⟩ : Moves p ω s _ ∧ _ := moves_resumeWait h (hstate.refs d.task hmem) input
    exact .after hmoves (turns_afterAnnouncing (h.moves hmoves) project hstate.child
      (hstate.unowned.of_grows (Steps.grows hmoves.steps) rfl) hwaits (hhelps hmem hmoves))
  | departing pid d =>
    have hmem : d.task ∈ (Startup.departing pid d).refs := by simp [Startup.refs]
    obtain ⟨hmoves, hwaits⟩ : Moves p ω s _ ∧ _ := moves_resumeWait h (hstate.refs d.task hmem) input
    exact .after hmoves (turns_afterDeparting (h.moves hmoves) hstate.child
      (hstate.unowned.of_grows (Steps.grows hmoves.steps) rfl) hwaits (hhelps hmem hmoves))

/-! ## Starting a daemon -/

/-- A daemon is started with the process `child`, or cannot be. -/
structure Launched (p : Plan) (child : Option Nat) (s s' : Supervisor) : Prop where
  tidy : Tidy p s'
  keeps : Keeps s s'
  acts : Kernel.Acts p Routine.Quiet s.kernel s'.kernel
  harmless : Harmless s s'
  slots : s'.slots = s.slots
  attempts : s'.attempts = s.attempts + 1
  process : ∀ {pid}, (s'.process? pid).isSome = true ↔
    (s.process? pid).isSome = true ∨ child = some pid
  child : ∀ {pid}, child = some pid → pid = firstPid + s.attempts
  opened : s'.opened = s.opened
  links : s'.links = s.links

lemma launched_launch (h : Tidy p s) (command : List Text) (cwd : Text) :
    Launched p (s.launch command cwd).2.toOption s (s.launch command cwd).1 := by
  rw [launch]
  split
  · refine ⟨{ h with numbered := fun q hq => Nat.lt_succ_of_lt (h.numbered q hq) },
      { Keeps.refl s with }, .refl, { Harmless.of_record s.log [_] with }, rfl, rfl,
      by simp [Except.toOption, process?, note], by rintro _ ⟨⟩, rfl, rfl⟩
  · next script hscript =>
    have hacts : Kernel.Acts p Routine.Quiet s.kernel
        (s.kernel.after ((s.scripts[s.attempts]?.or s.scripts.getLast?).getD {}).delay
          (.hook (.act (firstPid + s.attempts)))).1 := .single (.after _ trivial)
    have hgrows := Kernel.Acts.grows hacts
    have htidy := h.of_kernel (Kernel.Acts.follows hacts h.follows) hgrows.toWidens
    refine ⟨{ htidy with
        processes := fun q hq => ?_
        opened := fun hx => ?_
        apart := h.apart.started rfl (by rintro w (⟨o, ho⟩ | hmem) <;> [(cases o <;> cases ho); cases hmem])
        numbered := fun q hq => ?_ },
      { Keeps.refl s with process := fun hp => ?_ }, hacts,
      .of_started hgrows.outcome _ _ _, rfl, rfl, ?_, ?_, rfl, rfl⟩
    · rcases List.mem_append.1 hq with hq | hq
      · exact htidy.processes q hq
      · cases List.mem_singleton.1 hq
        exact ⟨fun o w hw => (by cases o <;> cases hw), by simp, by rintro ⟨⟩⟩
    · exact ⟨(h.opened hx).1, isSome_process?_append.2 (.inl (h.opened hx).2)⟩
    · rcases List.mem_append.1 hq with hq | hq
      · exact Nat.lt_succ_of_lt (h.numbered q hq)
      · cases List.mem_singleton.1 hq
        exact Nat.lt_succ_self _
    · exact isSome_process?_append.2 (.inl hp)
    · refine isSome_process?_append.trans (or_congr Iff.rfl ?_)
      simp [Except.toOption]
    · rintro pid ⟨⟩
      rfl

/-- The first turn of a startup starts one daemon. -/
lemma turns_beginStartup (h : Tidy p s) (project : Project)
    (hfree : s.Unowned (firstPid + s.attempts)) :
    ∃ child s', Launched p child s s' ∧
      StartupTurns p ω (project.key s.cwd) child s' (s.beginStartup project) := by
  have hlog : Moves p ω s (s.report
      [Log.info ("Starting nimsuggest for " ++ project.key s.cwd),
        Log.debug ("nimsuggest command: " ++ Text.quotedList (s.settings.arguments project) ++
          " (cwd " ++ project.root.toText ++ ")")]) := moves_report _
  have hlaunched :=
    launched_launch (h.moves hlog) (s.settings.arguments project) project.root.toText
  refine ⟨_, _, { hlaunched with
    keeps := (Moves.keeps hlog).trans hlaunched.keeps
    harmless := { hlaunched.harmless with } }, ?_⟩
  unfold beginStartup
  dsimp only
  split
  · next s₁ message heq =>
    rw [heq]
    exact .fails .refl nofun nofun
  · next s₁ pid heq =>
    rw [heq] at hlaunched ⊢
    have htrack : Moves p ω s₁ _ :=
      moves_track hlaunched.tidy (r := .drain (project.key s.cwd) pid .stderr) ⟨rfl, rfl, rfl, rfl, rfl⟩
    have hkeeps := hlaunched.keeps.trans (Moves.keeps htrack)
    have hpid := (Moves.keeps htrack).process (hlaunched.process.2 (.inr rfl))
    have htidy := hlaunched.tidy.moves htrack
    have hfree₂ : (s₁.track (.drain (project.key s.cwd) pid .stderr)).Unowned pid := by
      have hnumber : pid = firstPid + s.attempts := hlaunched.child rfl
      have hgrows := (Kernel.Acts.grows hlaunched.acts).trans (Steps.grows htrack.steps)
      exact (hnumber ▸ hfree).of_grows hgrows hlaunched.opened
    generalize s₁.track _ = s₂ at htrack hkeeps hpid htidy hfree₂ ⊢
    obtain ⟨hmoves, hwaits⟩ : Moves p ω s₂ _ ∧ _ :=
      moves_beginWait htidy s₂.settings.handshakeTimeout.toFloat (r := .readLine pid)
        ⟨rfl, rfl, rfl, rfl, rfl⟩
    rw [show s.cwd = s₂.cwd from hkeeps.cwd.symm]
    refine .after (htrack.trans hmoves)
      (turns_afterAnnouncing (htidy.moves hmoves) project hpid
        (hfree₂.of_grows (Steps.grows hmoves.steps) rfl) hwaits fun d f hwait => ?_)
    obtain ⟨a, ha, hbody⟩ := Kernel.body_begin (Prod.ext rfl hwait)
    exact .of_body ha hbody rfl

/-! ## What happens when a startup or a process has ended -/

lemma moves_release {u : Id} (hdone : s.kernel.isDone u = true) (hnone : s.sessionOf? u = none) :
    Moves p ω s { s with slots := s.slots.release key u } := by
  rw [Slots.release]
  split
  · next hslot => exact .single (.vacate hslot hdone) (.of_vacate id hslot hnone)
  · exact .refl

lemma moves_onStartupEnded (key : Text) (u : Id) : Moves p ω s (s.onStartupEnded key u) := by
  rw [onStartupEnded]
  split
  · exact .refl
  · exact .refl
  · next ho =>
    exact moves_release (Kernel.isDone_eq_true_iff.2 ⟨_, ho⟩) (by rw [sessionOf?, ho])
  · next e ho =>
    exact (moves_release (Kernel.isDone_eq_true_iff.2 ⟨_, ho⟩) (by rw [sessionOf?, ho])).trans
      (moves_report _)

/-- A session loses its slot when its process has exited. -/
lemma turns_watch (h : Tidy p s) (n : Nat) (input : Outcome Value Failure) :
    Turns p ω (Plain p) s (s.watch n input) := by
  rw [watch]
  split
  · exact .ends .refl _
  · next x hx =>
    have hreap : Turns p ω (Plain p) s _ := turns_reap h x.pid input
    have hover := @over_of_reap p s h x.pid (h.opened hx).2 input
    obtain ⟨y, hy, -, hpid, -⟩ := (Moves.keeps hreap.moves).opened hx
    generalize s.reap x.pid input = r at hreap hover hy ⊢
    obtain ⟨s₁, course⟩ := r
    have h₁ := h.moves hreap.moves
    cases course with
    | waits state future => exact .waiting hreap.moves (hreap.waits rfl).1 ⟨nofun, rfl, rfl⟩
    | ends o =>
      refine .after hreap.moves ?_
      dsimp only [Progress.andThen]
      split
      · next code z hz =>
        have hlog : Moves p ω s₁ (s₁.report [exitLine z.key z.closing code]) := moves_report _
        have hevict := hlog.trans (moves_evict (n := n) fun w hw => by
          cases hy.symm.trans hw
          exact hlog.ended (hpid ▸ hover rfl))
        exact .ends (hevict.andThen h₁ fun h => moves_stopPeer h z.link) _
      · exact .ends .refl _

end SuggestBridge.Supervisor
