import SuggestBridge.Proofs.Supervisor.Startups
import SuggestBridge.Supervisor.Closing

/-!
# The turns of those that close

Closing a session, sweeping and shutting down come to moves.  Whatever is in a slot is taken out at
once: what has ended is left alone, and what has not is asked to cancel.
-/

namespace SuggestBridge.Supervisor

open SuggestBridge.Task

variable {p : Plan} {ω : Warrant} {s s' : Supervisor} {k : Machine}

/-! ## One session -/

/-- The end of a session goes on with what is known. -/
def Closing.Fits (p : Plan) (s : Supervisor) (c : Closing) : Prop :=
  ∀ x ∈ c.refs, s.kernel.Knows p x

lemma turns_afterKill (n : Nat) {step : Deadline.Step Value Failure}
    (hstep : s.kernel.WaitsWell p step) : Turns p ω (Closing.Fits p) s (s.afterKill n step) := by
  unfold afterKill
  split
  · next d future =>
    obtain ⟨hfuture, htask⟩ := hstep d future rfl
    exact .waiting .refl hfuture (by simpa [Closing.Fits, Closing.refs] using htask)
  · exact .ends (moves_report _) _
  · exact .ends .refl _
  · exact .ends .refl _

/-- A session that was given up is over when its process was killed. -/
lemma turns_terminate {s₀ : Supervisor} (h : Tidy p s) {n : Nat} (hmay : ω.session n) {x : Session}
    (hx : s.opened[n]? = some x) (hgives : GivesUp p ω n s₀ s) :
    Turns p ω (Closing.Fits p) s₀ (s.terminate n x) := by
  have hmark : GivesUp p ω n s₀ (s.updateSession n fun x => { x with closing := true }) :=
    ⟨hgives.steps.tail (.mark hmay), hgives.ended, fun hg => (hgives.guarded hg).marked⟩
  have hmarked := h.move (Move.mark hmay)
  have hstop : Moves p ω _ _ := moves_stopPeer hmarked x.link
  have hkill := hstop.andThen hmarked fun h => moves_kill h x.pid
  have hkeeps := (Move.mark (p := p) hmay).keeps.trans (Moves.keeps hstop)
  have hover := over_kill (hmarked.moves hstop) (hkeeps.process (h.opened hx).2)
  obtain ⟨y, hy, -, hpid, -⟩ := ((Move.mark (p := p) hmay).keeps.trans (Moves.keeps hkill)).opened hx
  rw [terminate]
  generalize Supervisor.kill _ x.pid = r at hkill hover hy ⊢
  obtain ⟨s₁, f⟩ := r
  have hended : Moves p ω s₀ s₁ := (hmark.andThen hkill).moves fun z hz => by
    cases hy.symm.trans hz
    exact hpid ▸ hover
  cases f with
  | some f => exact .ends hended _
  | none =>
    obtain ⟨hmoves, hwaits⟩ : Moves p ω s₁ _ ∧ _ :=
      moves_beginWait (hmarked.moves hkill) killPatience (r := .reap x.pid) ⟨rfl, rfl, rfl, rfl, rfl⟩
    exact .after (hended.trans hmoves) (turns_afterKill n hwaits)

/-- A future is made that waits for a number of reports. -/
lemma acts_countdown (hf : k.Follows p) (n : Nat) :
    Kernel.Acts p Routine.Quiet k (k.fresh.1.expect k.futures.size fun _ => n) ∧
      (k.fresh.1.expect k.futures.size fun _ => n).Loose p k.futures.size := by
  have hmade : Kernel.Acts p Routine.Quiet k (k.fresh.1.expect k.futures.size fun _ => n) :=
    .tail (.single .fresh) (.expect _ _)
  exact ⟨hmade, (hf.loose_add rfl).expect⟩

/-- The end of each of some tasks is to be reported to a loose future. -/
lemma acts_watchAll {x : Id} {w : Watcher Hook} (hw : w.target? = some x) (hwakes : w.wakes = false)
    (hx : k.Loose p x) (tasks : List Id) :
    Kernel.Acts p Routine.Quiet k (tasks.foldl (fun k t => k.watch t w) k) ∧
      (tasks.foldl (fun k t => k.watch t w) k).Loose p x := by
  induction tasks generalizing k with
  | nil => exact ⟨.refl, hx⟩
  | cons t tasks ih =>
    have hwatch : Kernel.Act p Routine.Quiet k (k.watch t w) := .watch hwakes (hx.aims hw)
    obtain ⟨hacts, hloose⟩ := ih (hwatch.grows.toWidens.loose (.refl p _) hx)
    exact ⟨.head hwatch hacts, hloose⟩

/-- What the slot of a key holds, now and after any moves, may be stopped. -/
structure Allows (p : Plan) (ω : Warrant) (s : Supervisor) (key : Text) : Prop where
  startup : ∀ {s' u}, Moves p ω s s' → s'.slots.get? key = some u → ω.startup u
  session : ∀ {s' u n}, Moves p ω s s' → s'.slots.get? key = some u →
    s'.sessionOf? u = some n → ω.session n

lemma allows_all (key : Text) : Allows p .all s key := ⟨fun _ _ => trivial, fun _ _ _ => trivial⟩

lemma Allows.moves {key : Text} (h : Allows p ω s key) (hmoves : Moves p ω s s') :
    Allows p ω s' key :=
  ⟨fun hlater => h.startup (hmoves.trans hlater), fun hlater => h.session (hmoves.trans hlater)⟩

lemma turns_beginClosing (h : Tidy p s) {key : Text} (hallows : Allows p ω s key) :
    Turns p ω (Closing.Fits p) s (s.beginClosing key) := by
  rw [beginClosing]
  split
  · exact .ends .refl _
  · next u hslot =>
    dsimp only
    split
    · next hgoing =>
      have hnone : s.kernel.outcome? u = none :=
        Kernel.isDone_eq_false_iff.1 (by simpa using hgoing)
      have hgrows : Kernel.Grows Routine.Quiet s.kernel (s.kernel.cancel u).1 := .cancel _ _
      have hclose : Moves p ω s { s with
          slots := s.slots.erase key
          kernel := (s.kernel.cancel u).1 } :=
        .single (.close hslot (by simpa using hgoing) (hallows.startup .refl hslot))
          (.of_vacate hgrows.outcome hslot (by rw [sessionOf?, hnone]))
      have hlog := hclose.trans (moves_report
        [Log.info ("Cancelling nimsuggest startup for " ++ key)])
      obtain ⟨hmade, hloose⟩ := acts_countdown (h.moves hlog).follows 1
      obtain ⟨hwatch, hwaiter⟩ := acts_watchAll (w := .countdown _) rfl rfl hloose [u]
      exact .waiting (hlog.trans (moves_kernel (hmade.trans hwatch))) hwaiter.knows (fun _ hchild => by cases hchild)
    · next hdone =>
      have hmove : Move p ω s { s with slots := s.slots.erase key } :=
        .vacate hslot (by simpa using hdone)
      split
      · next hnone => exact .ends (.single hmove (.of_vacate id hslot hnone)) _
      · next n hsession =>
        have hgives : GivesUp p ω n s { s with slots := s.slots.erase key } :=
          ⟨.single hmove, id, fun hg => hg.vacate hslot hsession⟩
        split
        · next hgone =>
          exact .ends (hgives.moves fun x hx => by cases hgone.symm.trans hx) _
        · next x hx =>
          have hlog : Moves p ω { s with slots := s.slots.erase key } _ := moves_report
            [Log.info ("Closing nimsuggest for " ++ key ++ " (pid " ++ Text.ofNat x.pid ++ ")")]
          exact turns_terminate ((h.move hmove).moves hlog) (hallows.session .refl hslot hsession) hx
            (hgives.andThen hlog)

lemma turns_resumeClosing (h : Tidy p s) {c : Closing} (hc : c.Fits p s)
    (input : Outcome Value Failure) : Turns p ω (Closing.Fits p) s (s.resumeClosing c input) := by
  unfold resumeClosing
  cases c with
  | startup task waiter =>
    have hunwatch : Moves p ω s { s with kernel := s.kernel.unwatch task waiter } :=
      moves_kernel (.single (.unwatch task waiter))
    dsimp only
    split
    · exact .ends hunwatch _
    · exact .ends hunwatch _
  | process n d =>
    obtain ⟨hmoves, hwaits⟩ := moves_resumeWait h (hc d.task (by simp [Closing.refs])) input
    exact .after hmoves (turns_afterKill n hwaits)

/-! ## Idle sessions -/

/-- A sweep goes on with what is known. -/
def Sweep.Fits (p : Plan) (s : Supervisor) (w : Sweep) : Prop := w.closing.Fits p s

lemma turns_sweepFrom (h : Tidy p s) (now : Float) (closed : List Text) (rest : List (Text × Nat)) :
    Turns p .all (Sweep.Fits p) s (s.sweepFrom now closed rest) := by
  induction rest generalizing s closed with
  | nil => exact .ends .refl _
  | cons entry rest ih =>
    obtain ⟨key, n⟩ := entry
    unfold sweepFrom
    split
    · next x l _ _ =>
      dsimp only
      split
      · exact ih h closed
      · have hlog : Moves p .all s (s.report [Log.info ("Closing nimsuggest for " ++ key ++
            ": idle for " ++ Decimal.fixedText 0 (x.idle now) ++ "s")]) := moves_report _
        have hturns := turns_beginClosing (h.moves hlog) (allows_all key)
        split
        · next s₁ c future heq =>
          rw [heq] at hturns
          obtain ⟨hfuture, hc⟩ := hturns.waits rfl
          exact .waiting (hlog.trans hturns.moves) hfuture hc
        · next s₁ v heq =>
          rw [heq] at hturns
          have hmoves := hlog.trans hturns.moves
          exact .after hmoves (ih (h.moves hmoves) _)
        · next s₁ o heq =>
          rw [heq] at hturns
          exact .ends (hlog.trans hturns.moves) _
    · exact ih h closed

lemma turns_resumeSweep (h : Tidy p s) {w : Sweep} (hw : w.Fits p s)
    (input : Outcome Value Failure) : Turns p .all (Sweep.Fits p) s (s.resumeSweep w input) := by
  refine (turns_resumeClosing h hw input).andThen h id fun o h => ?_
  split
  · exact turns_sweepFrom h _ _ _
  · exact .ends .refl _

lemma turns_pauseSweeper (h : Tidy p s) : Turns p ω (Plain p) s s.pauseSweeper := by
  have hloose : s.kernel.fresh.1.Loose p s.kernel.futures.size := h.follows.loose_add rfl
  have hacts : Kernel.Acts p Routine.Quiet s.kernel (s.kernel.fresh.1.after
      s.settings.sweepInterval.toFloat (.complete s.kernel.futures.size)).1 :=
    .tail (.single .fresh) (.after _ hloose)
  exact .waiting (moves_kernel hacts) hloose.knows ⟨nofun, rfl, rfl⟩

lemma turns_afterSweep (h : Tidy p s) {r : Supervisor × Course Sweep}
    (hr : Turns p ω (Sweep.Fits p) s r) : Turns p ω (Plain p) s (afterSweep r) := by
  refine hr.andThen h (fun hw => ⟨hw, rfl, rfl⟩) fun o h => ?_
  split
  · exact turns_pauseSweeper h
  · have hlog : Moves p ω r.1 (r.1.report [Log.error "Idle sweep failed"]) := moves_report _
    exact .after hlog (turns_pauseSweeper (h.moves hlog))
  · exact .ends .refl _

lemma turns_resumeSweeper (h : Tidy p s) (timer : Nat) (input : Outcome Value Failure) :
    Turns p .all (Plain p) s (s.resumeSweeper timer input) := by
  have hdisarm : Moves p .all s { s with kernel := s.kernel.disarm timer } :=
    moves_kernel (.single (.disarm timer))
  have htidy := h.moves hdisarm
  unfold resumeSweeper
  dsimp only
  split
  · exact .after hdisarm (turns_afterSweep htidy (turns_sweepFrom htidy _ _ _))
  · exact .ends hdisarm _

lemma moves_start (h : Tidy p s) : Moves p ω s s.start := by
  rw [start]
  split
  · exact .refl
  · have hspawn : Moves p ω s { s with kernel := (s.kernel.spawn .sweeper).1 } :=
      moves_kernel (.single (.spawn ⟨rfl, rfl, rfl, rfl, rfl⟩))
    refine hspawn.trans (.single (.sweeper ?_) { Harmless.refl _ with })
    rintro u ⟨⟩
    exact h.follows.knows_spawn

/-! ## All sessions -/

lemma moves_forgetSweeper : Moves p ω s { s with sweeper := none } :=
  .single (.sweeper fun _ => nofun) { Harmless.refl s with }

lemma turns_beginStop (h : Tidy p s) : Turns p ω (fun _ _ => True) s s.beginStop := by
  unfold beginStop
  split
  · exact .ends .refl _
  · next task htask =>
    have hknows := h.sweeper task htask
    have hcancel : Moves p ω s { s with kernel := (s.kernel.cancel task).1 } :=
      moves_kernel (.single (.cancel hknows.2))
    dsimp only
    split
    · exact .ends (hcancel.trans moves_forgetSweeper) _
    · exact .waiting hcancel (Moves.knows hcancel hknows) trivial

lemma turns_resumeStop (input : Outcome Value Failure) :
    Turns p ω (fun _ _ => True) s (s.resumeStop input) := by
  unfold resumeStop
  split
  · exact .ends .refl _
  · exact .ends moves_forgetSweeper _

/-- The end of a supervisor goes on with what is known. -/
def Shutdown.Fits (p : Plan) (s : Supervisor) (d : Shutdown) : Prop :=
  ∀ x ∈ d.refs, s.kernel.Knows p x

lemma turns_awaitBackground (h : Tidy p s) : Turns p ω (Shutdown.Fits p) s s.awaitBackground := by
  unfold awaitBackground
  dsimp only
  generalize htasks : (s.background.filter fun t => !s.kernel.isDone t) = tasks
  have hknows : ∀ t ∈ tasks, s.kernel.Knows p t := fun t ht => by
    rw [← htasks] at ht
    exact h.background t (List.mem_filter.1 ht).1
  split
  · exact .ends .refl _
  · obtain ⟨hmade, hloose⟩ := acts_countdown h.follows tasks.length
    have harmed := hmade.tail (.after killPatience (show Kernel.Timely _ p (.complete _) from hloose))
    obtain ⟨hwatch, hwaiter⟩ := acts_watchAll (p := p)
      (k := ((s.kernel.fresh.1.expect s.kernel.futures.size fun _ => tasks.length).after killPatience
        (.complete s.kernel.futures.size)).1) (w := .countdown _) rfl rfl hloose tasks
    have hmoves : Moves p ω s _ := moves_kernel (harmed.trans hwatch)
    exact .waiting hmoves hwaiter.knows fun t ht => Moves.knows hmoves (hknows t ht)

/-- A task is begun for each key; all of them are known. -/
lemma acts_closeAll (hf : k.Follows p) (keys : List Text) (tasks : List Id)
    (htasks : ∀ t ∈ tasks, k.Knows p t) :
    Kernel.Acts p Routine.Quiet k (keys.foldl (fun (k, ts) key =>
        let (k, t) := k.spawn (.close key)
        (k, ts ++ [t])) (k, tasks)).1 ∧
      ∀ t ∈ (keys.foldl (fun (k, ts) key =>
        let (k, t) := k.spawn (.close key)
        (k, ts ++ [t])) (k, tasks)).2, (keys.foldl (fun (k, ts) key =>
        let (k, t) := k.spawn (.close key)
        (k, ts ++ [t])) (k, tasks)).1.Knows p t := by
  induction keys generalizing k tasks with
  | nil => exact ⟨.refl, htasks⟩
  | cons key keys ih =>
    have hspawn : Kernel.Act p Routine.Quiet k (k.spawn (.close key)).1 := .spawn ⟨rfl, rfl, rfl, rfl, rfl⟩
    obtain ⟨hacts, hknows⟩ := ih (hspawn.follows hf) (tasks ++ [k.futures.size])
      fun t ht => by
        rcases List.mem_append.1 ht with ht | ht
        · exact (htasks t ht).widens hspawn.grows.toWidens
        · exact List.mem_singleton.1 ht ▸ hf.knows_spawn
    exact ⟨.head hspawn hacts, hknows⟩

lemma turns_closeSessions (h : Tidy p s) : Turns p ω (Shutdown.Fits p) s s.closeSessions := by
  unfold closeSessions
  split
  · exact turns_awaitBackground h
  · obtain ⟨hspawn, hknows⟩ := acts_closeAll h.follows s.slots.keys [] (by simp)
    dsimp only
    generalize List.foldl _ (s.kernel, ([] : List Id)) s.slots.keys = r at hspawn hknows ⊢
    obtain ⟨k₁, tasks⟩ := r
    have hf := Kernel.Acts.follows hspawn h.follows
    have hgroup := hspawn.tail (.add (F := { awaited := tasks.length, members := tasks })
      rfl rfl rfl hknows)
    have hloose := hf.loose_add (F := { awaited := tasks.length, members := tasks }) rfl
    obtain ⟨hwatch, hwaiter⟩ := acts_watchAll (w := .gather _) rfl rfl hloose tasks
    exact .waiting (moves_kernel (hgroup.trans hwatch)) hwaiter.knows nofun

lemma turns_beginShutdown (h : Tidy p s) : Turns p ω (Shutdown.Fits p) s s.beginShutdown := by
  have hlog : Moves p ω s (s.report [Log.info "Closing all nimsuggest processes"]) := moves_report _
  have htidy := h.moves hlog
  refine .after hlog ((turns_beginStop htidy).andThen htidy (fun _ => nofun) fun o h => ?_)
  split
  · exact turns_closeSessions h
  · exact .ends .refl _

lemma acts_unwatchAll (waiter : Id) (tasks : List Id) :
    Kernel.Acts p Routine.Quiet k (tasks.foldl (fun k t => k.unwatch t waiter) k) := by
  induction tasks generalizing k with
  | nil => exact .refl
  | cons t tasks ih => exact .head (.unwatch t waiter) ih

lemma acts_cancelAll {tasks : List Id} (htasks : ∀ t ∈ tasks, p.Free t) :
    Kernel.Acts p Routine.Quiet k
      (tasks.foldl (fun k t => if k.isDone t then k else (k.cancel t).1) k) := by
  induction tasks generalizing k with
  | nil => exact .refl
  | cons t tasks ih =>
    obtain ⟨ht, hrest⟩ := List.forall_mem_cons.1 htasks
    rw [List.foldl_cons]
    split
    · exact ih hrest
    · exact .head (.cancel ht) (ih hrest)

lemma turns_resumeShutdown (h : Tidy p s) {d : Shutdown} (hd : d.Fits p s)
    (input : Outcome Value Failure) :
    Turns p ω (Shutdown.Fits p) s (s.resumeShutdown d input) := by
  unfold resumeShutdown
  cases d with
  | sweeper =>
    refine (turns_resumeStop input).andThen h (fun _ => nofun) fun o h => ?_
    split
    · exact turns_closeSessions h
    · exact .ends .refl _
  | sessions =>
    dsimp only
    split
    · exact turns_awaitBackground h
    · exact .ends .refl _
  | background waiter timer tasks =>
    have hunwatch : Kernel.Acts p Routine.Quiet s.kernel
        (tasks.foldl (fun k t => k.unwatch t waiter) (s.kernel.disarm timer)) :=
      .head (.disarm timer) (acts_unwatchAll waiter tasks)
    dsimp only
    split
    · have hcancel := hunwatch.trans (acts_cancelAll fun t ht => (hd t ht).2)
      exact .ends (moves_kernel hcancel) _
    · exact .ends (moves_kernel hunwatch) _

end SuggestBridge.Supervisor
