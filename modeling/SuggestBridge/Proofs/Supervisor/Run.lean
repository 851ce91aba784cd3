import SuggestBridge.Proofs.Supervisor.Turn

/-!
# Runs of a supervisor

A `Scene` is a supervisor together with the tasks that clients have begun and may ask to cancel.
`Happens` lists what can happen to it: the next job is done, a client begins a task or asks it to
cancel, daemons write, send, exit and hang up, a connection is closed, time passes.  Each step says
for which keys it starts daemons.  A `Run` is any number of steps in any order.
-/

namespace SuggestBridge.Supervisor

open SuggestBridge.Task

/-! ## What can happen -/

/-- What clients can begin. -/
def Routine.isRequest : Routine → Bool
  | .acquire _ | .call _ _ _ | .close _ | .sweep _ | .stop | .shutdown | .ask _ _ | .errand _ _ => true
  | _ => false

/-- The keys of the daemons that a job starts. -/
def startsOf (s : Supervisor) : Kernel.Activation Routine Hook Value Failure → List Text
  | .begin _ r => r.launches s.cwd
  | _ => []

/-- The keys of the daemons that the next job starts. -/
def startsNext (s : Supervisor) (limit : Float) : List Text :=
  match s.kernel.next? limit with
  | some (_, act) => s.startsOf act
  | none => []

/-- A task is made that runs a routine at once. -/
def enter (s : Supervisor) (r : Routine) : Supervisor :=
  { s with kernel := (s.kernel.add { activity := some { body := none } }).1 }.begin
    s.kernel.futures.size r

/-- A supervisor and the tasks of its clients. -/
structure Scene where
  supervisor : Supervisor
  calls : List Id := []

/-- A step, and the keys for which it starts daemons. -/
inductive Happens : Scene → List Text → Scene → Prop where
  | job {s s' : Supervisor} {calls : List Id} {limit : Float} (step : s.step? limit = some s') :
      Happens ⟨s, calls⟩ (s.startsNext limit) ⟨s', calls⟩
  | launch {s : Supervisor} {calls : List Id} {r : Routine} (request : r.isRequest = true) :
      Happens ⟨s, calls⟩ [] ⟨(s.launchTask r).1, calls ++ [(s.launchTask r).2]⟩
  | enter {s : Supervisor} {calls : List Id} {r : Routine} (request : r.isRequest = true) :
      Happens ⟨s, calls⟩ [] ⟨s.enter r, calls ++ [s.kernel.futures.size]⟩
  | cancel {s : Supervisor} {calls : List Id} {t : Id} (call : t ∈ calls) :
      Happens ⟨s, calls⟩ [] ⟨s.cancel t, calls⟩
  | start (s : Supervisor) (calls : List Id) : Happens ⟨s, calls⟩ [] ⟨s.start, calls⟩
  | write (s : Supervisor) (calls : List Id) (pid : Nat) (o : Daemon.Output) (data : Bytes) :
      Happens ⟨s, calls⟩ [] ⟨s.write pid o data, calls⟩
  | send (s : Supervisor) (calls : List Id) (pid : Nat) (data : Bytes) :
      Happens ⟨s, calls⟩ [] ⟨s.send pid data, calls⟩
  | exit (s : Supervisor) (calls : List Id) (pid : Nat) (code : Int) :
      Happens ⟨s, calls⟩ [] ⟨s.exit pid code, calls⟩
  | markExited (s : Supervisor) (calls : List Id) (pid : Nat) (code : Int) :
      Happens ⟨s, calls⟩ [] ⟨s.markExited pid code, calls⟩
  | hangUp (s : Supervisor) (calls : List Id) (pid : Nat) :
      Happens ⟨s, calls⟩ [] ⟨s.hangUpProcess pid, calls⟩
  | stopPeer (s : Supervisor) (calls : List Id) (n : Nat) :
      Happens ⟨s, calls⟩ [] ⟨s.stopPeer n, calls⟩
  | clock (s : Supervisor) (calls : List Id) (now : Float) :
      Happens ⟨s, calls⟩ [] ⟨{ s with kernel := { s.kernel with now } }, calls⟩

/-- Any number of steps, with the keys for which they start daemons. -/
inductive Run (c : Scene) : List Text → Scene → Prop where
  | refl : Run c [] c
  | tail {keys more : List Text} {d e : Scene} (run : Run c keys d) (step : Happens d more e) :
      Run c (keys ++ more) e

lemma Run.trans {c d e : Scene} {keys more : List Text} (h : Run c keys d) (h' : Run d more e) :
    Run c (keys ++ more) e := by
  induction h' with
  | refl => rwa [List.append_nil]
  | tail _ hstep ih =>
    rw [← List.append_assoc]
    exact ih.tail hstep

/-- Doing jobs is a run. -/
lemma run_runUntil (s : Supervisor) (calls : List Id) (condition : Supervisor → Bool)
    (limit : Float) (fuel : Nat) :
    ∃ keys, Run ⟨s, calls⟩ keys ⟨s.runUntil condition limit fuel, calls⟩ := by
  induction fuel generalizing s with
  | zero => exact ⟨[], .refl⟩
  | succ fuel ih =>
    rw [runUntil]
    split
    · exact ⟨[], .refl⟩
    · split
      · exact ⟨[], .refl⟩
      · next s' hstep =>
        obtain ⟨keys, hrun⟩ := ih s'
        have hfirst : Run ⟨s, calls⟩ ([] ++ s.startsNext limit) ⟨s', calls⟩ := .tail .refl (.job hstep)
        exact ⟨_, hfirst.trans hrun⟩

namespace Run

variable {c : Scene} {keys : List Text} {s : Supervisor} {calls : List Id}

/-- Everything is done that can be done without time passing. -/
lemma settle (h : Run c keys ⟨s, calls⟩) : ∃ more, Run c more ⟨s.settle, calls⟩ := by
  obtain ⟨more, hrun⟩ := run_runUntil s calls (fun _ => false) s.kernel.now endless
  exact ⟨_, h.trans hrun⟩

/-- Time passes. -/
lemma advance (h : Run c keys ⟨s, calls⟩) (seconds : Float) :
    ∃ more, Run c more ⟨s.advance seconds, calls⟩ := by
  obtain ⟨more, hrun⟩ := run_runUntil s calls (fun _ => false) (s.kernel.now + seconds) endless
  exact ⟨_, (h.trans hrun).tail (.clock _ _ _)⟩

/-- A client begins a task, and everything is done that can be done without time passing. -/
lemma launch (h : Run c keys ⟨s, calls⟩) {r : Routine} (hr : r.isRequest = true) :
    ∃ more, Run c more ⟨(s.launchTask r).1.settle, calls ++ [(s.launchTask r).2]⟩ :=
  (h.tail (.launch hr)).settle

/-- A client begins a task that runs at once, and then some jobs are done. -/
lemma enter (h : Run c keys ⟨s, calls⟩) {r : Routine} (hr : r.isRequest = true)
    (condition : Supervisor → Bool) (limit : Float) (fuel : Nat) :
    ∃ more, Run c more
      ⟨(s.enter r).runUntil condition limit fuel, calls ++ [s.kernel.futures.size]⟩ := by
  obtain ⟨more, hrun⟩ :=
    run_runUntil (s.enter r) (calls ++ [s.kernel.futures.size]) condition limit fuel
  exact ⟨_, (h.tail (.enter hr)).trans hrun⟩

end Run

/-! ## What a step keeps -/

variable {p p' : Plan} {s s' : Supervisor} {k : Machine} {turn : Option Id} {t : Id}

/-- What a step keeps: at most the task `turn` moves, and daemons are started for some keys. -/
structure Stepped (p p' : Plan) (turn : Option Id) (keys : List Text) (s s' : Supervisor) : Prop where
  sound : Sound p' none s'
  onward : Onward p p' turn s s'
  waits : ∀ {t a}, turn = some t → s'.kernel.activity? t = some a → a.waitingFor ≠ none
  /-- Whoever has its turn was planned before. -/
  planned : ∀ {t}, turn = some t → p'.mark? t = p.mark? t
  fills : ∀ {key u}, s'.slots.get? key = some u →
    s.slots.get? key = some u ∨ s.Vacant key ∧ s.kernel.futures.size ≤ u
  attempts : s'.attempts = s.attempts + keys.length
  starts : ∀ {key}, key ∈ keys → ∃ (t : Id) (a : Activity Routine) (project : Project),
    turn = some t ∧ s.kernel.activity? t = some a ∧ a.body = some (.startup project) ∧
      s.slots.get? key = some t

lemma Stepped.of_moves (h : Sound p none s) (hmoves : Moves p .all s s') : Stepped p p none [] s s' where
  sound := h.moves hmoves
  onward := Moves.onward hmoves
  waits := nofun
  planned := nofun
  fills hu := .inl (Moves.slots hmoves hu)
  attempts := Moves.attempts hmoves
  starts hkey := absurd hkey List.not_mem_nil

/-- The kernel does some bookkeeping. -/
lemma Stepped.of_kernel (h : Sound p none s) (hfollows : k.Follows p) (hwaking : k.Waking none)
    (hgrows : Kernel.Grows Routine.Quiet s.kernel k)
    (hmarked : ∀ {u}, p.mark? u ≠ none → k.activity? u = s.kernel.activity? u) :
    Stepped p p none [] s { s with kernel := k } := by
  have hkeeps : Keeps s { s with kernel := k } := { Keeps.refl s with }
  exact
    { sound := h.grow (h.toTidy.of_kernel hfollows hgrows.toWidens) hwaking hkeeps
        (.of_eq rfl rfl) hgrows
        fun hu ha => h.held hu ((hmarked (by simp [hu])).symm.trans ha)
      onward := .of_quiet hkeeps (.of_eq rfl) hgrows
      waits := nofun
      planned := nofun
      fills := .inl
      attempts := rfl
      starts := fun hkey => absurd hkey List.not_mem_nil }

lemma moves_onHook (h : Tidy p s) (hook : Hook) (source : Option Id) :
    Moves p .all s (s.onHook hook source) := by
  unfold onHook
  split
  · exact moves_onStartupEnded _ _
  · exact .refl
  · exact moves_act h _
  · exact moves_exit h _ _
  · exact moves_receiveMessage h _ _

lemma Stepped.andMoves {keys : List Text} {s'' : Supervisor} (h : Stepped p p' none keys s s')
    (hmoves : Moves p' .all s' s'') : Stepped p p' none keys s s'' where
  sound := h.sound.moves hmoves
  onward := h.onward.trans (Moves.onward hmoves)
  waits := nofun
  planned := nofun
  fills hu := h.fills (Moves.slots hmoves hu)
  attempts := (Moves.attempts hmoves).trans h.attempts
  starts := h.starts

/-! ## Jobs -/

lemma Shifts.of_roused (hfollows : k.Follows p) (h : Kernel.Roused s.kernel k t) :
    Shifts p t s k := by
  obtain ⟨a, b, ha, hb, -, -, -, hasked⟩ := h.self
  refine ⟨hfollows, .of_roused h, fun {u c} hc => ?_⟩
  by_cases hut : u = t
  · subst hut
    cases hb.symm.trans hc
    exact ⟨a, ha, fun hne => absurd rfl hne, fun _ => by rw [hasked]⟩
  · exact ⟨c, (h.other u hut).symm.trans hc, fun _ => ⟨rfl, rfl⟩, fun _ => Iff.rfl⟩

/-- A task has its turn; where it stood is forgotten. -/
lemma Sound.roused (h : Sound p none s) (hfollows : k.Follows p) (hwaking : k.Waking (some t))
    (hroused : Kernel.Roused s.kernel k t) : Sound p (some t) { s with kernel := k } := by
  obtain ⟨a, b, ha, hb, hbody, -⟩ := hroused.self
  refine (Shifts.of_roused hfollows hroused).sound h hwaking ?_ (fun hc hr => ?_) fun _ _ hv => ?_
  · rintro u ⟨⟩
    exact ⟨b, hb, hbody⟩
  · cases hb.symm.trans hc
    simp [hbody] at hr
  · cases (hwaking.unsettled hb).symm.trans hv

/-- What is spent after a task was given its turn was so before. -/
lemma Kernel.Roused.vacant (h : Kernel.Roused s.kernel k t) {key : Text}
    (hv : Vacant { s with kernel := k } key) : s.Vacant key := fun u hu =>
  (hv u hu).of_eq (fun ho => (h.outcome u).symm.trans ho) rfl rfl rfl

/-- The turn of a task is a step. -/
lemma Stepped.of_turned {r : Routine} (hroused : Kernel.Roused s.kernel k t)
    (hturned : Turned p p' t (r.launches s.cwd).length (Vacant { s with kernel := k })
      { s with kernel := k } s')
    (hstarts : ∀ {key}, key ∈ r.launches s.cwd → ∃ (a : Activity Routine) (project : Project),
      s.kernel.activity? t = some a ∧ a.body = some (.startup project) ∧
        s.slots.get? key = some t) : Stepped p p' (some t) (r.launches s.cwd) s s' where
  sound := hturned.sound
  onward := (Onward.of_roused hroused).trans hturned.onward
  waits ht := by
    cases ht
    exact hturned.waits
  planned ht := by
    cases ht
    obtain ⟨-, b, -, hb, -⟩ := hroused.self
    exact hturned.onward.plan.mark t (Kernel.lt_size_of_activity? hb)
  fills hu := (hturned.fills hu).imp id fun hv =>
    ⟨Kernel.Roused.vacant hroused hv.1, Nat.le_trans (Nat.le_of_eq hroused.size.symm) hv.2⟩
  attempts := hturned.attempts
  starts hkey := by
    obtain ⟨a, project, ha, hbody, hslot⟩ := hstarts hkey
    exact ⟨t, a, project, rfl, ha, hbody, hslot⟩

/-- A startup that begins is in the slot of its key. -/
lemma Sound.slot_of_begin (h : Sound p none s) {a : Activity Routine} {project : Project}
    (ha : s.kernel.activity? t = some a) (hbody : a.body = some (.startup project))
    (hidle : a.waitingFor = none) (hmust : a.mustCancel = false) :
    s.slots.get? (project.key s.cwd) = some t := by
  have hmark : p.mark? t = some (project.key s.cwd) := (h.fits ha hbody).mark
  refine (h.held hmark ha).1 ?_
  by_contra hasked
  simp [h.follows.pending ha (by simp [hbody]) hidle hasked] at hmust

/-- Where a task stands, seen after it was given its turn. -/
lemma Sound.fits_of_roused (h : Sound p none s)
    (hroused : Kernel.Roused s.kernel k t) {a : Activity Routine} {r : Routine}
    (ha : s.kernel.activity? t = some a) (hbody : a.body = some r) :
    Fits p { s with kernel := k } t r a.waitingFor :=
  (h.fits ha hbody).extends h.follows (Kernel.lt_size_of_activity? ha)
    hroused.widens (.refl p _) { Keeps.refl s with }

/-- Whoever stands somewhere after a task was given its turn has stood there before. -/
lemma Kernel.Roused.stands (h : Kernel.Roused s.kernel k t) {u : Id} {b : Activity Routine}
    {r : Routine} (hb : k.activity? u = some b) (hr : b.body = some r) :
    s.kernel.activity? u = some b := by
  obtain ⟨a, b', ha, hb', hbody, -⟩ := h.self
  by_cases hut : u = t
  · subst hut
    cases hb.symm.trans hb'
    simp [hbody] at hr
  · exact (h.other u hut).symm.trans hb

lemma Kernel.Roused.helper (h : Kernel.Roused s.kernel k t) {u : Id}
    (hu : Helper { s with kernel := k } u) : s.Helper u := by
  cases hu with
  | listener hl hlistener => exact .listener hl hlistener
  | child hb hr hsome hrefs => exact .child (Kernel.Roused.stands h hb hr) hr hsome hrefs

/-- Nobody has the process of a startup that runs. -/
lemma OwnedBy.roused {pid : Nat} (h : s.OwnedBy t pid) (hroused : Kernel.Roused s.kernel k t) :
    Unowned { s with kernel := k } pid where
  startups {u b r} hb hr := by
    obtain ⟨a, b', ha, hb', hbody, -⟩ := hroused.self
    by_cases hut : u = t
    · subst hut
      cases hb.symm.trans hb'
      simp [hbody] at hr
    · exact h.startups hut (Kernel.Roused.stands hroused hb hr) hr
  sessions := h.sessions

lemma Helps.roused {u : Id} (h : s.Helps u) (hroused : Kernel.Roused s.kernel k t) :
    Helps { s with kernel := k } u where
  task := by
    obtain ⟨-, b, -, hb, -⟩ := hroused.self
    by_cases hut : u = t
    · exact .inr ⟨b, hut ▸ hb⟩
    · refine h.task.imp (fun hdone => ?_) fun ⟨a, ha⟩ => ⟨a, (hroused.other u hut).trans ha⟩
      exact (congrArg Option.isSome (hroused.outcome u)).trans hdone
  kind hb hr := h.kind (Kernel.Roused.stands hroused hb hr) hr

/-- The task `t` is given its turn at `r`. -/
structure AtTurn (p : Plan) (s : Supervisor) (k : Machine) (t : Id) (r : Routine) : Prop
    extends Stood p { s with kernel := k } t r where
  stood : ∃ a, s.kernel.activity? t = some a ∧ a.body = some r
  roused : Kernel.Roused s.kernel k t
  sound : Sound p (some t) { s with kernel := k }

lemma Sound.atTurn (h : Sound p none s) {a : Activity Routine} {r : Routine}
    (ha : s.kernel.activity? t = some a) (hbody : a.body = some r) (hfollows : k.Follows p)
    (hwaking : k.Waking (some t)) (hroused : Kernel.Roused s.kernel k t) : AtTurn p s k t r :=
  { fits := ⟨_, h.fits_of_roused hroused ha hbody⟩
    unowned := fun hpid => (h.owned ha hbody hpid).roused hroused
    helper := fun ht => (h.helpers (Kernel.Roused.helper hroused ht)).kind ha hbody
    helps := fun hsome _ hy => (h.helpers (.child ha hbody hsome hy)).roused hroused
    stood := ⟨a, ha, hbody⟩
    roused := hroused
    sound := h.roused hfollows hwaking hroused }

lemma Sound.begins (h : Sound p none s) {a : Activity Routine} {r : Routine}
    (ha : s.kernel.activity? t = some a) (hbody : a.body = some r) (hidle : a.waitingFor = none)
    (hmust : a.mustCancel = false) (hdue : AtTurn p s k t r) :
    ∃ p', Stepped p p' (some t) (r.launches s.cwd) s (Supervisor.begin { s with kernel := k } t r) := by
  obtain ⟨p', hturned⟩ := hdue.sound.begin hdue.toStood
  refine ⟨p', .of_turned hdue.roused hturned fun {key} hkey => ?_⟩
  cases r with
  | startup project =>
    cases List.mem_singleton.1 hkey
    exact ⟨a, project, ha, hbody, h.slot_of_begin ha hbody hidle hmust⟩
  | _ => exact absurd hkey List.not_mem_nil

/-- A task that goes on starts no daemon: a startup does that in its first turn. -/
lemma Sound.resumes (h : Sound p none s) {a : Activity Routine} {r : Routine} {g : Id}
    (ha : s.kernel.activity? t = some a) (hbody : a.body = some r) (hwaited : a.waitingFor = some g)
    (hdue : AtTurn p s k t r) (input : Outcome Value Failure) :
    ∃ p', Stepped p p' (some t) [] s (resume { s with kernel := k } t r input) := by
  obtain ⟨p', hturned⟩ := hdue.sound.proceed hdue.toStood input
  have hnone : r.launches s.cwd = [] := by
    cases r with
    | startup project => simp [(h.fits ha hbody).idle rfl] at hwaited
    | _ => rfl
  have hstepped := Stepped.of_turned hdue.roused hturned fun {key} hkey =>
    absurd (hnone ▸ hkey) List.not_mem_nil
  exact ⟨p', hnone ▸ hstepped⟩

lemma Sound.stillborn (h : Sound p none s) (hfollows : k.Follows p) (hwaking : k.Waking none)
    (hends : Kernel.Ends s.kernel k t .cancelled) :
    Stepped p p (some t) [] s { s with kernel := k } := by
  have hshifts := Shifts.of_ends hfollows hends
  obtain ⟨-, hsome, hgone⟩ := hends.self
  refine ⟨hshifts.sound h hwaking nofun (fun hb => ?_) (fun _ _ hv => ?_), hshifts.onward,
    fun ht hb => ?_, fun _ => rfl, .inl, rfl, fun hkey => absurd hkey List.not_mem_nil⟩
  · cases hgone.symm.trans hb
  · cases hsome.symm.trans hv
  · cases ht
    cases hgone.symm.trans hb

lemma startsNext_eq {limit : Float} {act : Kernel.Activation Routine Hook Value Failure}
    (h : s.kernel.next? limit = some (k, act)) : s.startsNext limit = s.startsOf act := by
  rw [startsNext, h]

/-- How a task has its turn in the step from `s` to `s'`. -/
inductive HasTurn (p : Plan) (s s' : Supervisor) (t : Id) (a : Activity Routine) : Prop where
  /-- It was asked to cancel before it began. -/
  | stillborn {k : Machine} (idle : a.waitingFor = none) (must : a.mustCancel = true)
      (ends : Kernel.Ends s.kernel k t .cancelled) (turn : s' = { s with kernel := k })
  | begins {k : Machine} {r : Routine} (body : a.body = some r) (idle : a.waitingFor = none)
      (must : a.mustCancel = false) (due : AtTurn p s k t r)
      (turn : s' = Supervisor.begin { s with kernel := k } t r)
  | resumes {k : Machine} {r : Routine} {g : Id} {o : Outcome Value Failure} (body : a.body = some r)
      (waited : a.waitingFor = some g) (outcome : s.kernel.outcome? g = some o)
      (due : AtTurn p s k t r)
      (turn : s' = resume { s with kernel := k } t r (if a.mustCancel then .cancelled else o))

/-- Whose turn it is in the step from `s` to `s'`. -/
inductive Takes (p : Plan) (s s' : Supervisor) : Option Id → Prop where
  | nobody : Takes p s s' none
  | task {t : Id} {a : Activity Routine} (activity : s.kernel.activity? t = some a)
      (turn : HasTurn p s s' t a) : Takes p s s' (some t)
  /-- The task is made in this step, and it begins at once. -/
  | entered {r : Routine} (request : r.isRequest = true) (turn : s' = s.enter r) :
      Takes p s s' (some s.kernel.futures.size)

lemma Takes.hasTurn {a : Activity Routine} (h : Takes p s s' turn) (ht : turn = some t)
    (ha : s.kernel.activity? t = some a) : HasTurn p s s' t a := by
  cases h with
  | nobody => cases ht
  | task ha' hturn =>
    cases ht
    cases ha.symm.trans ha'
    exact hturn
  | entered =>
    cases ht
    exact absurd (Kernel.lt_size_of_activity? ha) (Nat.lt_irrefl _)

/-- Whatever the next job is, it is a step, and it gives at most one task its turn. -/
theorem Sound.job (h : Sound p none s) {limit : Float} (hstep : s.step? limit = some s') :
    ∃ p' turn, Stepped p p' turn (s.startsNext limit) s s' ∧ Takes p s s' turn := by
  rw [step?] at hstep
  cases hnext : s.kernel.next? limit with
  | none => simp [hnext] at hstep
  | some next =>
    obtain ⟨k, act⟩ := next
    rw [hnext] at hstep
    rw [startsNext_eq hnext]
    have hnext' : Kernel.Next p Routine.Quiet s.kernel k act :=
      Kernel.next_of_next? h.follows h.waking hnext
    cases hnext' with
    | done hfollows hwaking hgrows hmarked =>
      obtain rfl := Option.some.inj hstep
      exact ⟨p, none, .of_kernel h hfollows hwaking hgrows hmarked, .nobody⟩
    | stillborn ha hidle hmust hfollows hwaking hends =>
      obtain rfl := Option.some.inj hstep
      exact ⟨p, _, h.stillborn hfollows hwaking hends,
        .task ha (.stillborn hidle hmust hends rfl)⟩
    | «begin» ha hbody hidle hmust hfollows hwaking hroused =>
      obtain rfl := Option.some.inj hstep
      have hdue := h.atTurn ha hbody hfollows hwaking hroused
      obtain ⟨p', hstepped⟩ := h.begins ha hbody hidle hmust hdue
      exact ⟨p', _, hstepped, .task ha (.begins hbody hidle hmust hdue rfl)⟩
    | resume ha hbody hwaited ho hfollows hwaking hroused =>
      obtain rfl := Option.some.inj hstep
      have hdue := h.atTurn ha hbody hfollows hwaking hroused
      obtain ⟨p', hstepped⟩ := h.resumes ha hbody hwaited hdue _
      exact ⟨p', _, hstepped, .task ha (.resumes hbody hwaited ho hdue rfl)⟩
    | hook hfollows hwaking hgrows hmarked =>
      obtain rfl := Option.some.inj hstep
      have hstepped := Stepped.of_kernel h hfollows hwaking hgrows hmarked
      exact ⟨p, none, hstepped.andMoves (moves_onHook hstepped.sound.toTidy _ _), .nobody⟩

/-- The task that a job gives its turn, and where it goes on. -/
def turnOf : Kernel.Activation Routine Hook Value Failure → Option (Id × Routine)
  | .begin t r | .resume t r _ => some (t, r)
  | _ => none

lemma Sound.due (h : Sound p none s) {limit : Float} {r : Routine}
    {act : Kernel.Activation Routine Hook Value Failure}
    (hnext : s.kernel.next? limit = some (k, act)) (hturn : turnOf act = some (t, r)) :
    AtTurn p s k t r := by
  have hnext' : Kernel.Next p Routine.Quiet s.kernel k act :=
    Kernel.next_of_next? h.follows h.waking hnext
  cases hnext' with
  | done | stillborn | hook => cases hturn
  | «begin» ha hbody _ _ hfollows hwaking hroused =>
    cases hturn
    exact h.atTurn ha hbody hfollows hwaking hroused
  | resume ha hbody _ _ hfollows hwaking hroused =>
    cases hturn
    exact h.atTurn ha hbody hfollows hwaking hroused

/-! ## Clients -/

lemma Routine.isRequest.quiet {r : Routine} (h : r.isRequest = true) : r.Quiet := by
  cases r <;> first | exact ⟨rfl, rfl, rfl, rfl, rfl⟩ | cases h

lemma Routine.isRequest.launches {r : Routine} (h : r.isRequest = true) (cwd : Text) :
    r.launches cwd = [] := by
  cases r <;> first | rfl | cases h

/-- A task is made that runs at once. -/
lemma Sound.added (h : Sound p none s) {F : Future Routine Hook Value Failure}
    (hF : F = { activity := some { body := none } }) :
    Sound p (some s.kernel.futures.size) { s with kernel := (s.kernel.add F).1 } ∧
      Onward p p (some s.kernel.futures.size) s { s with kernel := (s.kernel.add F).1 } ∧
      ¬Helper { s with kernel := (s.kernel.add F).1 } s.kernel.futures.size := by
  have hself : (s.kernel.add F).1.activity? s.kernel.futures.size = some { body := none } := by
    rw [Kernel.activity?_add, if_pos rfl, hF]
  have hold : ∀ {u}, u < s.kernel.futures.size →
      (s.kernel.add F).1.activity? u = s.kernel.activity? u :=
    fun hu => by rw [Kernel.activity?_add, if_neg (Nat.ne_of_lt hu)]
  have hfollows : (s.kernel.add F).1.Follows p :=
    h.follows.enter (by rw [hF]) (by rw [hF]) (by rw [hF]) (by rw [hF]) rfl rfl rfl
  have hwaking := h.waking.enter (F := F) (by rw [hF]) (by rw [hF]) (by rw [hF]) rfl
  have hsize : (s.kernel.add F).1.futures.size = s.kernel.futures.size + 1 := Kernel.size_add
  have hwide : s.kernel.Widens (s.kernel.add F).1 :=
    ⟨by rw [hsize]; exact Nat.le_succ _, fun hlt hx => (hold hlt).trans hx,
      Kernel.members_add_of_lt⟩
  have hlt : ∀ {u a}, s.kernel.activity? u = some a → u < s.kernel.futures.size :=
    Kernel.lt_size_of_activity?
  have hout : ∀ {x}, (s.kernel.add F).1.outcome? x = s.kernel.outcome? x :=
    Kernel.outcome?_add (by rw [hF])
  have hkeeps : Keeps s { s with kernel := (s.kernel.add F).1 } := { Keeps.refl s with }
  have hback : ∀ {u b r}, (s.kernel.add F).1.activity? u = some b → b.body = some r →
      s.kernel.activity? u = some b := by
    intro u b r hb hr
    rw [Kernel.activity?_add] at hb
    split at hb
    · rw [hF] at hb
      cases hb
      cases hr
    · exact hb
  have hhelper : ∀ {u}, Helper { s with kernel := (s.kernel.add F).1 } u → s.Helper u := by
    intro u hu
    cases hu with
    | listener hl hlistener => exact .listener hl hlistener
    | child hc hr' hsome hrefs => exact .child (hback hc hr') hr' hsome hrefs
  refine ⟨{ h.toTidy.of_kernel hfollows hwide with
      waking := hwaking, runs := ?_, fits := ?_, active := ?_, held := ?_, ended := ?_,
      owned := ?_, helpers := ?_, still := ?_ }, ?_, fun ht => ?_⟩
  · rintro u ⟨⟩
    exact ⟨_, hself, rfl⟩
  · intro u a r ha hr
    exact (h.fits (hback ha hr) hr).extends h.follows (hlt (hback ha hr)) hwide (.refl p _) hkeeps
  · intro u hu hnone
    rw [Kernel.isDone, hout] at hnone
    obtain ⟨a, ha⟩ := h.active hu hnone
    exact ⟨a, (hold (hlt ha)).trans ha⟩
  · intro u key a hu ha
    rw [hold (h.follows.marks (by simp [hu]))] at ha
    exact h.held hu ha
  · intro u key v hu hv
    exact h.ended hu (hout.symm.trans hv)
  · intro u b r pid hb hr hpid
    have howned := h.owned (hback hb hr) hr hpid
    exact ⟨fun hne hc hr' => howned.startups hne (hback hc hr') hr', howned.sessions⟩
  · intro u hu
    have hhelps := h.helpers (hhelper hu)
    refine ⟨?_, fun hb hr => hhelps.kind (hback hb hr) hr⟩
    rcases hhelps.task with hdone | ⟨a, ha⟩
    · exact .inl ((congrArg Option.isSome hout).trans hdone)
    · exact .inr ⟨a, (hold (hlt ha)).trans ha⟩
  · intro u b r g hb hr hhelps hwait
    exact (h.still (hback hb hr) hr hhelps hwait).widens hwide fun l hl hw => ⟨l, hl, hw⟩
  · refine ⟨.refl p _, hwide, hkeeps, .of_eq rfl, fun ho => hout.trans ho,
      fun _ ha => ⟨_, (hold (hlt ha)).trans ha, rfl, rfl, id⟩, fun {u a} hu ha => ?_,
      fun _ ha hmust => ⟨_, (hold (hlt ha)).trans ha, hmust⟩, fun {u b} hu hb => .inl ⟨b, ?_⟩,
      fun _ hnone hsome => absurd hnone hsome⟩
    · cases hu
      exact absurd (hlt ha) (Nat.lt_irrefl _)
    · rwa [Kernel.activity?_add, if_neg fun heq => hu (congrArg some heq.symm)] at hb
  · exact absurd (h.knows_helper (hhelper ht)).1 (Nat.lt_irrefl _)

/-- A task that is made stands at the request that it is made for. -/
lemma Sound.stood_added (h : Sound p none s) {r : Routine} (hr : r.isRequest = true) :
    Stood p { s with kernel := (s.kernel.add { activity := some { body := none } }).1 }
      s.kernel.futures.size r := by
  obtain ⟨-, -, hhelper⟩ := h.added rfl
  have hquiet := Routine.isRequest.quiet hr
  exact
    { fits := ⟨none, hquiet.plain.fits h.follows.free_size.2 none⟩
      unowned := fun hpid => by simp [hquiet.child] at hpid
      helper := fun ht => absurd ht hhelper
      helps := fun hsome => absurd hquiet.child hsome }

lemma Onward.knows (h : Onward p p' turn s s') {x : Id} (hx : s.kernel.Knows p x) :
    s'.kernel.Knows p' x := ⟨Nat.lt_of_lt_of_le hx.1 h.size, h.plan.free hx.1 hx.2⟩

lemma Sound.entered (h : Sound p none s) {r : Routine} (hr : r.isRequest = true) :
    ∃ p', Stepped p p' (some s.kernel.futures.size) [] s (s.enter r) ∧
      (s.enter r).kernel.Knows p' s.kernel.futures.size := by
  obtain ⟨hsound, hon, -⟩ := h.added rfl
  obtain ⟨p', hturned⟩ := hsound.begin (h.stood_added hr)
  rw [Routine.isRequest.launches hr] at hturned
  have hvacant : ∀ {key}, Vacant
      { s with kernel := (s.kernel.add { activity := some { body := none } }).1 } key →
      s.Vacant key := fun hv u hu =>
    (hv u hu).of_eq (fun ho => (Kernel.outcome?_add rfl).symm.trans ho) rfl rfl rfl
  have hknows : Kernel.Knows (s.kernel.add { activity := some { body := none } }).1 p
      s.kernel.futures.size :=
    ⟨by rw [Kernel.size_add]; exact Nat.lt_succ_self _, h.follows.free_size⟩
  refine ⟨p', ⟨hturned.sound, hon.trans hturned.onward, fun ht => ?_, fun ht => ?_,
    fun hu => (hturned.fills hu).imp id fun hv => ⟨hvacant hv.1, Nat.le_trans hon.size hv.2⟩,
    hturned.attempts,
    fun hkey => absurd hkey List.not_mem_nil⟩, hturned.onward.knows hknows⟩
  · cases ht
    exact hturned.waits
  · cases ht
    exact hturned.onward.plan.mark _ hknows.1

/-! ## Any step, and any run -/

/-- A supervisor in order, whose clients hold tasks that the plan says nothing about. -/
structure Scene.Sound (p : Plan) (c : Scene) : Prop where
  sound : Supervisor.Sound p none c.supervisor
  calls : ∀ t ∈ c.calls, c.supervisor.kernel.Knows p t

variable {c c' d : Scene} {keys : List Text}

/-- Whatever happens is a step, and it gives at most one task its turn. -/
theorem Scene.Sound.takes (h : c.Sound p) (hstep : Happens c keys c') :
    ∃ p' turn, Stepped p p' turn keys c.supervisor c'.supervisor ∧ c'.Sound p' ∧
      Takes p c.supervisor c'.supervisor turn := by
  have hsound := h.sound
  have hcalls : ∀ {p' turn s'}, Onward p p' turn c.supervisor s' → ∀ t ∈ c.calls,
      s'.kernel.Knows p' t := fun hon t ht => hon.knows (h.calls t ht)
  have moves : ∀ {s'}, Moves p .all c.supervisor s' → ∃ p' turn,
      Stepped p p' turn [] c.supervisor s' ∧ Scene.Sound p' ⟨s', c.calls⟩ ∧
        Takes p c.supervisor s' turn := fun hmoves => by
    have hstepped := Stepped.of_moves hsound hmoves
    exact ⟨p, none, hstepped, ⟨hstepped.sound, hcalls hstepped.onward⟩, .nobody⟩
  cases hstep with
  | job hjob =>
    obtain ⟨p', turn, hstepped, hturn⟩ := hsound.job hjob
    exact ⟨p', turn, hstepped, ⟨hstepped.sound, hcalls hstepped.onward⟩, hturn⟩
  | launch hr =>
    have hspawn := Stepped.of_moves hsound
      (moves_kernel (.single (.spawn (Routine.isRequest.quiet hr))))
    refine ⟨p, none, hspawn, ⟨hspawn.sound, fun t ht => ?_⟩, .nobody⟩
    rcases List.mem_append.1 ht with ht | ht
    · exact hcalls hspawn.onward t ht
    · obtain rfl := List.mem_singleton.1 ht
      exact hsound.follows.knows_spawn
  | enter hr =>
    obtain ⟨p', hstepped, hknows⟩ := hsound.entered hr
    refine ⟨p', _, hstepped, ⟨hstepped.sound, fun t ht => ?_⟩, .entered hr rfl⟩
    rcases List.mem_append.1 ht with ht | ht
    · exact hcalls hstepped.onward t ht
    · exact List.mem_singleton.1 ht ▸ hknows
  | cancel ht => exact moves (moves_kernel (.single (.cancel (h.calls _ ht).2)))
  | start s calls => exact moves (moves_start hsound.toTidy)
  | write s calls pid o data =>
    exact moves (moves_onOutput hsound.toTidy pid o (streamActs_feed data))
  | send s calls pid data =>
    refine moves ?_
    dsimp only
    rw [send]
    split
    · exact moves_receive hsound.toTidy _ data
    · exact .refl
  | exit s calls pid code => exact moves (moves_exit hsound.toTidy pid code)
  | markExited s calls pid code =>
    refine moves (.single (.process pid _ (fun q hq _ => ?_) (fun _ => rfl) (fun _ _ => .inl)
      fun q hq _ => hsound.apart.awaited q hq)
      (.of_process pid (fun _ => rfl) fun _ _ => nofun))
    exact { hsound.processes q hq with ended := fun _ => nofun }
  | hangUp s calls pid =>
    refine moves ?_
    dsimp only
    rw [hangUpProcess]
    split
    · exact moves_hangUp hsound.toTidy _
    · exact .refl
  | stopPeer s calls n => exact moves (moves_stopPeer hsound.toTidy n)
  | clock s calls now =>
    have hpassed : Kernel.Passed s.kernel { s.kernel with now } := .of_timers rfl rfl fun _ => id
    have hstepped := Stepped.of_kernel hsound (hpassed.follows hsound.follows)
      (hpassed.waking hsound.follows hsound.waking) hpassed.grows fun _ => hpassed.activity?_eq _
    exact ⟨p, none, hstepped, ⟨hstepped.sound, hcalls hstepped.onward⟩, .nobody⟩

/-- Whatever happens is a step, and a task that was there goes on if it has its turn. -/
theorem Scene.Sound.happens (h : c.Sound p) (hstep : Happens c keys c') :
    ∃ p' turn, Stepped p p' turn keys c.supervisor c'.supervisor ∧ c'.Sound p' ∧
      ∀ {t a}, turn = some t → c.supervisor.kernel.activity? t = some a →
        HasTurn p c.supervisor c'.supervisor t a := by
  obtain ⟨p', turn, hstepped, hsound, htakes⟩ := h.takes hstep
  exact ⟨p', turn, hstepped, hsound, htakes.hasTurn⟩

end SuggestBridge.Supervisor
