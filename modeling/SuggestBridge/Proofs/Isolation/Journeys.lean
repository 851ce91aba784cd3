import SuggestBridge.Proofs.Isolation.Events

/-!
# Journeys

A journey is a run of a supervisor, event by event, with a book of what belongs to whom.  Whatever the
loop does next is a journey (`Leads.of_step?`), and supervisors stay in order on it (`Journey.owned`).

An event may also be left out of a journey.  Then there is a gap, in which nothing happens but that
the numbers are used up which the event would have drawn: the numbers of futures, timers, processes,
connections and sessions stand for their identity, and without the gaps two journeys would agree up
to a renaming only.
-/

namespace SuggestBridge.Supervisor

open SuggestBridge.Task

/-! ## Books of a run -/

/-- Whether a number was drawn. -/
def Drawn (s : Supervisor) : Part → Prop
  | .future i => i < s.kernel.futures.size
  | .timer i => i < s.kernel.nextTimer
  | .process pid => firstPid ≤ pid ∧ pid < firstPid + s.attempts
  | .link n => n < s.links.size
  | .session n => n < s.opened.size
  | .slot _ | .common => False

instance (s : Supervisor) : DecidablePred s.Drawn
  | .future _ | .timer _ | .link _ | .session _ => Nat.decLt _ _
  | .process _ => instDecidableAnd
  | .slot _ | .common => instDecidableFalse

/-- All that was drawn and is nobody's yet belongs to a project. -/
def Owners.charge (o : Owners) (k : Text) (s : Supervisor) : Owners :=
  { o with numbered := fun x => (o.numbered x).or (if s.Drawn x then some k else none) }

/-- A supervisor with a book of what belongs to whom. -/
structure World where
  supervisor : Supervisor
  owners : Owners

/-- A new supervisor, before anything has happened. -/
def World.new (settings : Settings) (cwd : Text) (scripts : List Daemon.Script) : World where
  supervisor := { settings, cwd, scripts }
  owners := { cwd, numbered := fun _ => none }

/-! ## Journeys -/

/-- How many numbers are used up. -/
structure Draw where
  futures : Nat
  timers : Nat
  processes : Nat
  links : Nat
  sessions : Nat

/-- Numbers are used up, and nothing else happens. -/
def skip (s : Supervisor) (d : Draw) : Supervisor :=
  { s with
    kernel := { s.kernel with
      futures := s.kernel.futures ++ Array.replicate d.futures {}
      nextTimer := s.kernel.nextTimer + d.timers }
    attempts := s.attempts + d.processes
    links := s.links ++ Array.replicate d.links { connection := {}, pid := 0, isOpen := false }
    opened := s.opened ++ Array.replicate d.sessions
      { project := ⟨⟨0, []⟩, []⟩, key := [], pid := 0, link := 0, port := 0, lastActivity := 0 } }

/-- One step of a run, the project that it is about, if any, and the event.  Only where gaps are
allowed may numbers be used up for nothing. -/
inductive Step : Bool → World → Option Text → Event → World → Prop where
  | occurs {gaps : Bool} {k : Text} {e : Event} {s s' : Supervisor} {o : Owners}
      (event : Occurs o k e s s') : Step gaps ⟨s, o⟩ (some k) e ⟨s', o.charge k s'⟩
  | turn {gaps : Bool} (s : Supervisor) (o : Owners) (now : Float) (batch : Nat) :
      Step gaps ⟨s, o⟩ none (.turn now batch)
        ⟨{ s with kernel := { s.kernel with now, batch } }, o⟩
  | pass (s : Supervisor) (o : Owners) (k : Text) (d : Draw) :
      Step true ⟨s, o⟩ (some k) .pass ⟨s.skip d, o.charge k (s.skip d)⟩

/-- A step of a journey, and where it leads. -/
structure Stage where
  key : Option Text
  event : Event
  world : World

/-- A run from a world on. -/
inductive Journey (gaps : Bool) : World → List Stage → Prop where
  | nil {w : World} : Journey gaps w []
  | cons {w w' : World} {key : Option Text} {e : Event} {stages : List Stage}
      (step : Step gaps w key e w') (rest : Journey gaps w' stages) :
      Journey gaps w (⟨key, e, w'⟩ :: stages)

/-- Where a run leads. -/
def World.last (w : World) : List Stage → World
  | [] => w
  | x :: run => x.world.last run

variable {k q : Text} {o o' : Owners} {s s' t : Supervisor}

/-! ## What a book says -/

lemma Owned.isSome_iff_drawn (hs : Owned o s) {x : Part} (hslot : ∀ key, x ≠ .slot key) :
    (o.of x).isSome ↔ s.Drawn x := by
  cases x with
  | future i => exact hs.kernel.future_iff i
  | timer i => exact hs.kernel.timer_iff i
  | process pid => exact hs.process_iff pid
  | link n => exact hs.link_iff n
  | session n => exact hs.session_iff n
  | slot key => exact absurd rfl (hslot key)
  | common => exact ⟨nofun, False.elim⟩

/-- Two books say the same. -/
structure Owners.Same (o o' : Owners) : Prop where
  cwd : o'.cwd = o.cwd
  of : ∀ x, o'.of x = o.of x

lemma Owners.Same.grows (h : Owners.Same o o') (k : Text) : Owners.Grows k o o' where
  cwd := h.cwd
  old hx := (h.of _).trans hx
  new hx := .inl ((h.of _).symm.trans hx)

/-- A book that says what was said, and gives the rest to one project, is the book of the run. -/
lemma Owned.charge_same (hs : Owned o' s) (hgrows : Owners.Grows k o o') :
    Owners.Same o' (o.charge k s) := by
  refine ⟨hgrows.cwd.symm, fun x => ?_⟩
  by_cases hslot : ∃ key, x = .slot key
  · obtain ⟨key, rfl⟩ := hslot
    rfl
  by_cases hcommon : x = .common
  · subst hcommon
    rfl
  have hdrawn := hs.isSome_iff_drawn (x := x) fun key hx => hslot ⟨key, hx⟩
  have hof : ∀ o : Owners, o.of x = o.numbered x := fun o => by
    cases x with
    | slot key => exact absurd ⟨key, rfl⟩ hslot
    | common => exact absurd rfl hcommon
    | _ => rfl
  refine (hof (o.charge k s)).trans ?_
  change (o.numbered x).or _ = _
  rw [← hof o]
  cases hold : o.of x with
  | some j => rw [hgrows.old hold, Option.some_or]
  | none =>
    rw [Option.none_or]
    cases hnew : o'.of x with
    | some j =>
      rw [if_pos (hdrawn.1 (by rw [hnew]; rfl))]
      rcases hgrows.new hnew with h | ⟨-, rfl⟩
      · cases hold.symm.trans h
      · rfl
    | none =>
      refine if_neg fun h => ?_
      rw [← hdrawn, hnew] at h
      cases h

/-- What was drawn decides what the book says. -/
lemma Owners.charge_congr (h : ∀ x, t.Drawn x ↔ s.Drawn x) : o.charge k t = o.charge k s := by
  unfold Owners.charge
  congr 1
  funext x
  rw [if_congr (h x) rfl rfl]

lemma Alike.drawn_iff (h : Alike k o s t) (x : Part) : t.Drawn x ↔ s.Drawn x := by
  cases x with
  | future i => exact (congrArg (i < ·) h.kernel.size).to_iff
  | timer i => exact (congrArg (i < ·) h.kernel.nextTimer).to_iff
  | process pid => exact (congrArg (fun n => firstPid ≤ pid ∧ pid < firstPid + n) h.attempts).to_iff
  | link n => exact (congrArg (n < ·) h.linkCount).to_iff
  | session n => exact (congrArg (n < ·) h.sessionCount).to_iff
  | slot | common => exact Iff.rfl

lemma Owned.rebook (hs : Owned o s) (h : Owners.Same o o') : Owned o' s where
  kernel := hs.kernel.grow (h.grows []) (fun _ => h.of _) fun _ => h.of _
  cwd := h.cwd.trans hs.cwd
  process_iff pid := by rw [h.of, hs.process_iff]
  link_iff n := by rw [h.of, hs.link_iff]
  session_iff n := by rw [h.of, hs.session_iff]
  slots hu := (h.of _).trans (hs.slots hu)
  processes := hs.grow_processes (h.grows [])
  links := hs.grow_links (h.grows [])
  sessions := hs.grow_sessions (h.grows [])

lemma Joint.rebook (hP : Joint k o s t) (h : Owners.Same o o') : Joint k o' s t :=
  ⟨hP.owned.rebook h, hP.alike.grow hP.owned (h.grows k) (hP.alike.kernel.grow fun _ => h.of _)⟩

lemma Twin.rebook (htwin : Twin q o s t) (hs : Owned o s) (h : Owners.Same o o') :
    Twin q o' s t :=
  { htwin with
    kernel := htwin.kernel.grow hs.kernel (fun _ => h.of _) (h.grows q)
    processes := by
      rw [htwin.processes]
      exact List.filter_congr fun p _ => decide_eq_decide.2 (by rw [h.of])
    links := fun hn => htwin.links ((h.of _).symm.trans hn)
    sessions := fun hn => htwin.sessions ((h.of _).symm.trans hn) }

/-! ## Order -/

lemma World.owned_new (settings : Settings) (cwd : Text) (scripts : List Daemon.Script) :
    Owned (World.new settings cwd scripts).owners (World.new settings cwd scripts).supervisor := by
  have hnone : ∀ {x : Part}, (∀ key, x ≠ .slot key) →
      (World.new settings cwd scripts).owners.of x = none := fun {x} hx => by
    cases x with
    | slot key => exact absurd rfl (hx key)
    | _ => rfl
  exact
    { kernel :=
        { future_iff := fun i => by rw [hnone (by simp)]; simp [World.new]
          timer_iff := fun i => by rw [hnone (by simp)]; simp [World.new]
          futures := fun hi => by cases (hnone (by simp)).symm.trans hi
          ready := fun job hjob => absurd hjob List.not_mem_nil
          timers := fun t ht => absurd ht (Array.not_mem_empty t) }
      cwd := rfl
      process_iff := fun pid => by rw [hnone (by simp)]; simp [World.new]
      link_iff := fun n => by rw [hnone (by simp)]; simp [World.new]
      session_iff := fun n => by rw [hnone (by simp)]; simp [World.new]
      slots := fun hu => by cases hu
      processes := fun p hp => absurd hp List.not_mem_nil
      links := fun hn => by cases (hnone (by simp)).symm.trans hn
      sessions := fun hn => by cases (hnone (by simp)).symm.trans hn }

lemma Owned.turn (hs : Owned o s) (now : Float) (batch : Nat) :
    Owned o { s with kernel := { s.kernel with now, batch } } :=
  { hs with kernel := { hs.kernel with } }

lemma Step.owned {w v : World} {key : Option Text} {e : Event} (h : Step false w key e v)
    (hs : Owned w.owners w.supervisor) (hcandid : Candid w.owners w.supervisor) :
    Owned v.owners v.supervisor := by
  cases h with
  | occurs hevent =>
    obtain ⟨o', hgrows, hs', -⟩ := hevent.aside hs (hcandid.linesOwned _ fun _ => id)
    exact hs'.rebook (hs'.charge_same hgrows)
  | turn s o now batch => exact hs.turn now batch

/-- Supervisors stay in order. -/
lemma Journey.owned {w : World} {run : List Stage} (h : Journey false w run)
    (hs : Owned w.owners w.supervisor) (hcandid : Candid w.owners w.supervisor)
    (candid : ∀ x ∈ run, Candid x.world.owners x.world.supervisor) :
    Owned (w.last run).owners (w.last run).supervisor := by
  induction h with
  | nil => exact hs
  | cons hstep _ ih =>
    obtain ⟨hv, hstages⟩ := List.forall_mem_cons.1 candid
    exact ih (hstep.owned hs hcandid) hv hstages

/-! ## The loop -/

/-- Whatever the book says, a run leads from one supervisor to the other. -/
def Leads (s s' : Supervisor) : Prop :=
  ∀ o, Owned o s →
    ∃ run, Journey false ⟨s, o⟩ run ∧ (World.last ⟨s, o⟩ run).supervisor = s'

namespace Leads

lemma turn (now : Float) (batch : Nat)
    (h : Leads { s with kernel := { s.kernel with now, batch } } s') : Leads s s' := fun o hs => by
  obtain ⟨run, hrun, hlast⟩ := h o (hs.turn now batch)
  exact ⟨_, .cons (.turn s o now batch) hrun, hlast⟩

lemma lapse {timer : Timer (Job Hook)} {timers : Array (Timer (Job Hook))}
    (htaken : s.kernel.timers.toList.Perm (timer :: timers.toList))
    (hdue : timer.cancelled = true ∨ timer.due < s.kernel.now + Kernel.resolution)
    (h : Leads (s.resettle (s.kernel.ready ++ dueJobs timer) timers) s') : Leads s s' :=
  fun o hs => by
    obtain ⟨k, hk⟩ := hs.kernel.timers timer
      (Array.mem_toList_iff.1 (htaken.mem_iff.2 List.mem_cons_self))
    have hown := (Owners.has_cons.1 hk).1
    have hs' := hs.withoutTimer htaken hown
    obtain ⟨run, hrun, hlast⟩ := h _ (hs'.rebook (hs'.charge_same (k := k) .refl))
    exact ⟨_, .cons (.occurs (.lapse htaken hdue hown)) hrun, hlast⟩

lemma job {job : Job Hook} {rest : List (Job Hook)} (hready : s.kernel.ready = job :: rest) :
    Leads s ((s.resettle rest s.kernel.timers).carryOut job) := fun o hs => by
  obtain ⟨k, hk⟩ := hs.kernel.ready job (by rw [hready]; exact List.mem_cons_self)
  exact ⟨_, .cons (.occurs (.job hready hk)) .nil, rfl⟩

lemma dropCancelled {fuel : Nat}
    (h : Leads { s with kernel := s.kernel.dropCancelled fuel } s') : Leads s s' := by
  induction fuel generalizing s with
  | zero => exact h
  | succ fuel ih =>
    unfold Kernel.dropCancelled at h
    split at h
    · next top htop =>
      split at h
      · next hcancelled =>
        split at h
        · next timer timers hpop =>
          cases htop.symm.trans (Timers.first_of_pop? hpop)
          have hnone : dueJobs top = [] := if_pos hcancelled
          refine lapse (Timers.perm_pop? hpop) (.inl hcancelled) ?_
          rw [hnone, List.append_nil]
          exact ih h
        · exact h
      · exact h
    · exact h

lemma collectDue {fuel : Nat}
    (h : Leads { s with kernel := s.kernel.collectDue fuel } s') : Leads s s' := by
  induction fuel generalizing s with
  | zero => exact h
  | succ fuel ih =>
    unfold Kernel.collectDue at h
    split at h
    · next top htop =>
      split at h
      · next hdue =>
        split at h
        · next timer timers hpop =>
          cases htop.symm.trans (Timers.first_of_pop? hpop)
          refine lapse (Timers.perm_pop? hpop) (.inr hdue) (ih ?_)
          have hjobs : (s.resettle (s.kernel.ready ++ dueJobs top) timers).kernel =
              if top.cancelled then { s.kernel with timers }
              else Kernel.soon { s.kernel with timers } top.job := by
            unfold dueJobs
            split
            · rw [List.append_nil]
              rfl
            · rfl
          rw [hjobs]
          exact h
        · exact h
      · exact h
    · exact h

/-- A pass throws away what was disarmed, lets time pass, and collects what is due. -/
lemma beginPass_eq (K : Machine) (limit : Float) : ∃ now batch fuel fuel', K.beginPass limit =
    { Kernel.collectDue { K.dropCancelled fuel with now } fuel' with batch } := by
  unfold Kernel.beginPass
  dsimp only
  split
  · split
    · split <;> exact ⟨_, _, _, _, rfl⟩
    · exact ⟨_, _, _, _, rfl⟩
  · exact ⟨_, _, _, _, rfl⟩

lemma beginPass {limit : Float}
    (h : Leads { s with kernel := s.kernel.beginPass limit } s') : Leads s s' := by
  obtain ⟨now, batch, fuel, fuel', heq⟩ := beginPass_eq s.kernel limit
  rw [heq] at h
  exact dropCancelled (turn now _ (collectDue (turn _ batch h)))

/-- Whatever the loop does next is a journey. -/
theorem of_step? {limit : Float} (h : s.step? limit = some s') : Leads s s' := by
  have hnext : ∀ {s : Supervisor} {job : Job Hook} {rest : List (Job Hook)},
      s.kernel.ready = job :: rest →
      Leads s (carryOut { s with
        kernel := { s.kernel with ready := rest, batch := s.kernel.batch - 1 } } job) :=
    fun {s} _ _ hready => turn s.kernel.now (s.kernel.batch - 1) (job hready)
  unfold Supervisor.step? at h
  split at h
  · cases h
  · next kernel act hkernel =>
    have hoblige : s' = oblige { s with kernel } act := by
      cases act <;> exact (Option.some.inj h).symm
    unfold Kernel.next? at hkernel
    dsimp only at hkernel
    generalize hK : (if s.kernel.batch = 0 then s.kernel.beginPass limit else s.kernel) = K
      at hkernel
    have hpass : Leads { s with kernel := K } s' → Leads s s' := by
      subst hK
      split
      · exact beginPass
      · exact id
    split at hkernel
    · cases hkernel
    · next job rest hready =>
      have hdone : carryOut { s with
          kernel := { K with ready := rest, batch := K.batch - 1 } } job = s' := by
        rw [hoblige, carryOut, Option.some.inj hkernel]
      exact hpass (hdone ▸ hnext (s := { s with kernel := K }) hready)

end Leads

end SuggestBridge.Supervisor
