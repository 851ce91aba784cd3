import SuggestBridge.Proofs.Supervisor.Tracking

/-!
# What a sweep stops

A sweep looks at the sessions that it found when it began, one after the other, and closes by its key
each one that is idle at that moment.  Between two of them it may have to wait, and then the slot of a
key need not hold the session any more that was found there.  `ClosesIdle` is what a sweep does to a
slot at most: the session found there has no call in flight and has been idle for too long, and the
slot is empty, holds that very session, or holds a startup that is newer than the sweep.
`sweeps_of_run` says that the turns of a sweep consist of such steps, in any run.  That a newer session
is stopped as well, busy or not, is what `newer_stopped` shows.
-/

namespace SuggestBridge.Supervisor

open SuggestBridge.Task

variable {p p' : Plan} {s s' s'' origin : Supervisor} {k : Machine} {t u : Id} {now : Float}
variable {c c' d e : Scene} {keys more : List Text} {key : Text} {n : Nat}
variable {entries rest : List (Text × Nat)}

/-! ## The steps of a sweep -/

/-- Nothing differs but what tasks do and what is logged. -/
structure Undisturbed (s s' : Supervisor) : Prop where
  settings : s'.settings = s.settings
  slots : s'.slots = s.slots
  opened : s'.opened = s.opened
  links : s'.links = s.links
  processes : s'.processes = s.processes
  events : s'.events = s.events

lemma Undisturbed.refl (s : Supervisor) : Undisturbed s s := ⟨rfl, rfl, rfl, rfl, rfl, rfl⟩

lemma Undisturbed.trans (h : Undisturbed s s') (h' : Undisturbed s' s'') : Undisturbed s s'' :=
  ⟨h'.settings.trans h.settings, h'.slots.trans h.slots, h'.opened.trans h.opened,
    h'.links.trans h.links, h'.processes.trans h.processes, h'.events.trans h.events⟩

/-- A sweep that began in `origin` finds a session idle at the time `now`, and closes what is in the
slot of its key. -/
inductive ClosesIdle (origin : Supervisor) (now : Float) (s : Supervisor) : Supervisor → Prop where
  | intro {key : Text} {n : Nat} {x : Session} {l : Link} (listed : (key, n) ∈ origin.sessions)
    (opened : s.opened[n]? = some x) (link : s.links[x.link]? = some l)
    (calls : l.connection.peer.pending = [])
    (idle : s.settings.idleTimeout.toFloat < x.idle now)
    (slot : ∀ u, s.slots.get? key = some u →
      s.sessionOf? u = some n ∨ origin.kernel.futures.size ≤ u) :
    ClosesIdle origin now s
      ((s.report [Log.info ("Closing nimsuggest for " ++ key ++ ": idle for " ++
        Decimal.fixedText 0 (x.idle now) ++ "s")]).beginClosing key).1

/-- What a sweep does in one turn. -/
def Sweeps (origin : Supervisor) (now : Float) (s s' : Supervisor) : Prop :=
  ∃ s₁ s₂, Undisturbed s s₁ ∧ Relation.ReflTransGen (ClosesIdle origin now) s₁ s₂ ∧
    Undisturbed s₂ s'

lemma Sweeps.of_undisturbed (h : Undisturbed s s') : Sweeps origin now s s' :=
  ⟨s', s', h, .refl, .refl s'⟩

lemma Sweeps.after (h : Undisturbed s s') (h' : Sweeps origin now s' s'') :
    Sweeps origin now s s'' := by
  obtain ⟨s₁, s₂, hbefore, hcloses, hafter⟩ := h'
  exact ⟨s₁, s₂, h.trans hbefore, hcloses, hafter⟩

lemma Sweeps.andThen (h : Sweeps origin now s s') (h' : Undisturbed s' s'') :
    Sweeps origin now s s'' := by
  obtain ⟨s₁, s₂, hbefore, hcloses, hafter⟩ := h
  exact ⟨s₁, s₂, hbefore, hcloses, hafter.trans h'⟩

/-! ## The list of a sweep -/

/-- The entries were sessions in `origin`; by now the slots of their keys are empty, unchanged or
filled anew. -/
def Lists (origin s : Supervisor) (entries : List (Text × Nat)) : Prop :=
  ∀ e ∈ entries, e ∈ origin.sessions ∧ ∀ u, s.slots.get? e.1 = some u →
    s.sessionOf? u = some e.2 ∨ origin.kernel.futures.size ≤ u

/-- Slots that are not filled anew meanwhile. -/
lemma Lists.of_slots (h : Lists origin s entries)
    (hslots : ∀ {key u}, s'.slots.get? key = some u → s.slots.get? key = some u)
    (hout : ∀ {x o}, s.kernel.outcome? x = some o → s'.kernel.outcome? x = some o) :
    Lists origin s' entries := by
  intro e he
  refine ⟨(h e he).1, fun u hu => ((h e he).2 u (hslots hu)).imp_left fun hsession => ?_⟩
  exact sessionOf?_eq_some_iff.2 (hout (sessionOf?_eq_some_iff.1 hsession))

lemma Lists.moves (h : Lists origin s entries) (hmoves : Moves p .all s s') : Lists origin s' entries :=
  have hon : Onward p p none s s' := Moves.onward hmoves
  h.of_slots (Moves.slots hmoves) hon.outcome

lemma Lists.of_mem (h : Lists origin s entries) (hrest : ∀ e ∈ rest, e ∈ entries) :
    Lists origin s rest := fun e he => h e (hrest e he)

/-- When a sweep begins, each session on its list is in the slot of its key. -/
lemma slot_of_mem_sessions (h : Tidy p s) (hmem : (key, n) ∈ s.sessions) :
    ∃ u, s.slots.get? key = some u ∧ s.sessionOf? u = some n := by
  obtain ⟨⟨key', u⟩, hentry, hsession⟩ := List.mem_filterMap.1 hmem
  obtain ⟨m, hm, heq⟩ := Option.map_eq_some_iff.1 hsession
  cases heq
  exact ⟨u, Slots.get?_of_mem h.distinct hentry, hm⟩

lemma lists_sessions (h : Tidy p s) : Lists s s s.sessions := by
  rintro ⟨key, n⟩ hmem
  refine ⟨hmem, fun v hv => .inl ?_⟩
  obtain ⟨u, hu, hsession⟩ := slot_of_mem_sessions h hmem
  cases hu.symm.trans hv
  exact hsession

/-! ## Turns of a sweep -/

/-- A sweep looks at sessions and closes some, and it goes on with the others later. -/
structure SweepCourse (origin : Supervisor) (now : Float) (entries : List (Text × Nat))
    (s : Supervisor) (r : Supervisor × Course Sweep) : Prop where
  closes : Relation.ReflTransGen (ClosesIdle origin now) s r.1
  goesOn : ∀ {w g}, r.2 = .waits w g → w.now = now ∧ ∀ e ∈ w.rest, e ∈ entries

/-- Each session that is idle is closed by its key, and the others are left alone. -/
lemma sweepCourse_sweepFrom (h : Tidy p s) (hlist : Lists origin s rest) (now : Float)
    (closed : List Text) : SweepCourse origin now rest s (s.sweepFrom now closed rest) := by
  induction rest generalizing s closed with
  | nil => exact ⟨.refl, fun hw => by cases hw⟩
  | cons entry rest ih =>
    obtain ⟨key, n⟩ := entry
    have later : ∀ {s₁ s₂ : Supervisor} (closed : List Text), Tidy p s₂ →
        Lists origin s₂ ((key, n) :: rest) → Relation.ReflTransGen (ClosesIdle origin now) s₁ s₂ →
        SweepCourse origin now ((key, n) :: rest) s₁ (s₂.sweepFrom now closed rest) := by
      intro s₁ s₂ closed h₂ hlist₂ hbefore
      have hcourse := ih h₂ (hlist₂.of_mem fun e he => List.mem_cons_of_mem _ he) closed
      exact ⟨hbefore.trans hcourse.closes, fun hw =>
        (hcourse.goesOn hw).imp id fun hrest e he => List.mem_cons_of_mem _ (hrest e he)⟩
    unfold sweepFrom
    split
    · next x l hx hlink =>
      dsimp only
      split
      · exact later closed h hlist .refl
      · next hidle =>
        simp only [Bool.or_eq_true, Bool.not_eq_true', not_or, Bool.not_eq_false,
          List.isEmpty_iff, decide_eq_false_iff_not, not_not] at hidle
        obtain ⟨hlisted, hslot⟩ := hlist (key, n) List.mem_cons_self
        have hcloses := ClosesIdle.intro hlisted hx (links_of_linkOf? hx hlink) hidle.1 hidle.2 hslot
        have hlog : Moves p .all s (s.report [Log.info ("Closing nimsuggest for " ++ key ++
            ": idle for " ++ Decimal.fixedText 0 (x.idle now) ++ "s")]) := moves_report _
        have hmoves := hlog.trans (turns_beginClosing (h.moves hlog) (allows_all key)).moves
        generalize (s.report _).beginClosing key = r at hcloses hmoves ⊢
        obtain ⟨s₁, course⟩ := r
        have hclosed := Relation.ReflTransGen.single hcloses
        split
        · next s₂ c future heq =>
          cases heq
          exact ⟨hclosed, fun hw => by
            cases hw
            exact ⟨rfl, fun e he => List.mem_cons_of_mem _ he⟩⟩
        · next s₂ v heq =>
          cases heq
          exact later _ (h.moves hmoves) (hlist.moves hmoves) hclosed
        · next s₂ o _ heq =>
          cases heq
          exact ⟨hclosed, fun hw => by cases hw⟩
    · exact later closed h hlist .refl

lemma undisturbed_afterKill (n : Nat) (step : Deadline.Step Value Failure) :
    Undisturbed s (s.afterKill n step).1 := by
  unfold afterKill
  split <;> exact ⟨rfl, rfl, rfl, rfl, rfl, rfl⟩

/-- Waiting for the end of a session disturbs nobody. -/
lemma undisturbed_resumeClosing (state : Closing) (input : Outcome Value Failure) :
    Undisturbed s (s.resumeClosing state input).1 := by
  unfold resumeClosing
  cases state with
  | startup task waiter =>
    dsimp only
    split <;> exact ⟨rfl, rfl, rfl, rfl, rfl, rfl⟩
  | process n d =>
    have hkernel : Undisturbed s { s with kernel := (Deadline.resume s.kernel d input).1 } :=
      ⟨rfl, rfl, rfl, rfl, rfl, rfl⟩
    exact hkernel.trans (undisturbed_afterKill n _)

/-- What a part of a sweep does, and where it leaves the rest. -/
structure SweepPart (origin : Supervisor) (now : Float) (entries : List (Text × Nat))
    (s : Supervisor) (r : Supervisor × Course Sweep) : Prop where
  sweeps : Sweeps origin now s r.1
  goesOn : ∀ {w g}, r.2 = .waits w g → w.now = now ∧ ∀ e ∈ w.rest, e ∈ entries

lemma sweepPart_resumeSweep (h : Tidy p s) {w : Sweep} (hw : w.Fits p s)
    (hlist : Lists origin s w.rest) (input : Outcome Value Failure) :
    SweepPart origin w.now w.rest s (s.resumeSweep w input) := by
  have hquiet := undisturbed_resumeClosing (s := s) w.closing input
  have hturns : Turns p .all (Closing.Fits p) s (s.resumeClosing w.closing input) :=
    turns_resumeClosing h hw input
  have hmoves := hturns.moves
  rw [resumeSweep]
  generalize s.resumeClosing w.closing input = r at hquiet hmoves ⊢
  obtain ⟨s₁, course⟩ := r
  have hend : Sweeps origin w.now s s₁ := .of_undisturbed hquiet
  cases course with
  | waits state g =>
    exact ⟨hend, fun hw' => by
      cases hw'
      exact ⟨rfl, fun e he => he⟩⟩
  | ends o =>
    cases o with
    | value v =>
      have hcourse := sweepCourse_sweepFrom (h.moves hmoves) (hlist.moves hmoves) w.now
        (w.closed ++ [w.key])
      exact ⟨⟨s₁, _, hquiet, hcourse.closes, .refl _⟩, hcourse.goesOn⟩
    | failure e => exact ⟨hend, nofun⟩
    | cancelled => exact ⟨hend, nofun⟩

/-! ## Tasks that sweep -/

/-- The sweep that a routine is in. -/
def Routine.sweep? : Routine → Option Sweep
  | .sweeping w | .sweeperSweeping w => some w
  | _ => none

/-- A task is in a sweep. -/
def InSweep (s : Supervisor) (t : Id) (w : Sweep) : Prop :=
  ∃ a r, s.kernel.activity? t = some a ∧ a.body = some r ∧ r.sweep? = some w

/-- How the turn of a task that sweeps comes from a part of the sweep. -/
structure SweepTurn (r : Supervisor × Course Sweep) (r' : Supervisor × Course Routine) : Prop where
  quiet : Undisturbed r.1 r'.1
  goesOn : ∀ {b g w}, r'.2 = .waits b g → b.sweep? = some w → r.2 = .waits w g

lemma sweepTurn_within (r : Supervisor × Course Sweep) : SweepTurn r (within .sweeping r) := by
  obtain ⟨s, course⟩ := r
  cases course with
  | waits w g =>
    refine ⟨.refl s, fun hb hw => ?_⟩
    cases hb
    cases hw
    rfl
  | ends o => exact ⟨.refl s, nofun⟩

lemma sweepTurn_afterSweep (r : Supervisor × Course Sweep) : SweepTurn r (afterSweep r) := by
  obtain ⟨s, course⟩ := r
  have pause : ∀ {s'}, Undisturbed s s' → SweepTurn (s, course) s'.pauseSweeper := fun hquiet =>
    ⟨hquiet.trans ⟨rfl, rfl, rfl, rfl, rfl, rfl⟩, fun hb hw => by
      cases hb
      cases hw⟩
  cases course with
  | waits w g =>
    refine ⟨.refl s, fun hb hw => ?_⟩
    cases hb
    cases hw
    rfl
  | ends o =>
    cases o with
    | value v => exact pause (.refl s)
    | failure e => exact pause ⟨rfl, rfl, rfl, rfl, rfl, rfl⟩
    | cancelled => exact ⟨.refl s, nofun⟩

/-- Where a task stands at the end of its turn. -/
lemma Sound.body_of_follow (h : Sound p (some t) s) {course : Course Routine}
    {b : Activity Routine} (hb : (s.follow t course).kernel.activity? t = some b) :
    ∃ r g, course = .waits r g ∧ b.body = some r := by
  obtain ⟨a, ha, -⟩ := h.runs t rfl
  cases course with
  | waits r g =>
    obtain ⟨c, hc, hbody, -⟩ := Kernel.exists_activity?_suspend ha r g
    cases hb.symm.trans hc
    exact ⟨r, g, rfl, hbody⟩
  | ends o =>
    have hopen : s.kernel.IsOpen t := ⟨Kernel.lt_size_of_activity? ha, h.waking.unsettled ha⟩
    have hgone : (s.kernel.finish t o).activity? t = none := by
      rw [Kernel.finish_eq]
      split <;> exact Kernel.activity?_settle_self hopen
    cases hgone.symm.trans hb

/-- A turn of a task that sweeps. -/
lemma SweepPart.turn {r : Supervisor × Course Sweep} {r' : Supervisor × Course Routine}
    (h : SweepPart origin now entries s r) (hturn : SweepTurn r r') (hsound : Sound p (some t) r'.1) :
    Sweeps origin now s (r'.1.follow t r'.2) ∧
      ∀ {w}, (r'.1.follow t r'.2).InSweep t w → w.now = now ∧ ∀ e ∈ w.rest, e ∈ entries := by
  have hfollow : Undisturbed r'.1 (r'.1.follow t r'.2) := by
    cases r'.2 <;> exact ⟨rfl, rfl, rfl, rfl, rfl, rfl⟩
  refine ⟨h.sweeps.andThen (hturn.quiet.trans hfollow), ?_⟩
  rintro w ⟨b, r₀, hb, hbody, hw⟩
  obtain ⟨r₁, g, hcourse, hbody'⟩ := hsound.body_of_follow hb
  cases hbody.symm.trans hbody'
  exact h.goesOn (hturn.goesOn hcourse hw)

/-! ## Sweeps in a run -/

/-- A slot holds what it held before, or something newer. -/
lemma Scene.Sound.slot_since (h : c.Sound p) (hrun : Run c keys d)
    (hu : d.supervisor.slots.get? key = some u) :
    c.supervisor.slots.get? key = some u ∨ c.supervisor.kernel.futures.size ≤ u := by
  induction hrun with
  | refl => exact .inl hu
  | tail hrun hstep ih =>
    obtain ⟨p₁, hsound, -, hsize, -⟩ := h.run hrun
    obtain ⟨p₂, turn, hstepped, -⟩ := hsound.happens hstep
    rcases hstepped.fills hu with hu | ⟨-, hnew⟩
    · exact ih hu
    · exact .inr (Nat.le_trans hsize hnew)

/-- What was in the slots when the sweep began. -/
lemma Scene.Sound.lists (h : c.Sound p) (hrun : Run c keys d)
    (hentries : ∀ e ∈ entries, e ∈ c.supervisor.sessions) :
    Lists c.supervisor d.supervisor entries := by
  obtain ⟨-, -, -, -, hout⟩ := h.run hrun
  have hlist := (lists_sessions h.sound.toTidy).of_mem hentries
  intro e he
  refine ⟨hentries e he, fun u hu => ?_⟩
  rcases h.slot_since hrun hu with hu | hnew
  · refine ((hlist e he).2 u hu).imp_left fun hsession => ?_
    exact sessionOf?_eq_some_iff.2 (hout (sessionOf?_eq_some_iff.1 hsession))
  · exact .inr hnew

/-- A job by which the task `t` begins a sweep for what is idle at the time `now`. -/
inductive BeginsSweep (s : Supervisor) (t : Id) (now : Float) : Supervisor → Prop where
  /-- The sweep that somebody asked for has its first turn. -/
  | asked {s' : Supervisor} {limit : Float} {k : Machine} {x : Option Float}
      (next : s.kernel.next? limit = some (k, .begin t (.sweep x))) (time : x.getD k.now = now)
      (step : s.step? limit = some s') : BeginsSweep s t now s'
  /-- The sweeper has paused for long enough. -/
  | due {s' : Supervisor} {limit : Float} {k : Machine} {timer : Nat} {v : Value}
      (next : s.kernel.next? limit = some (k, .resume t (.sweeperPausing timer) (.value v)))
      (time : k.now = now) (step : s.step? limit = some s') : BeginsSweep s t now s'
  /-- A task is made for the sweep and runs at once. -/
  | entered {x : Option Float} (task : t = s.kernel.futures.size) (time : x.getD s.kernel.now = now) :
      BeginsSweep s t now (s.enter (.sweep x))

/-- A run in which a task is in a sweep all the time. -/
inductive Sweeping (t : Id) (c : Scene) : Scene → Prop where
  | refl {w : Sweep} (sweep : c.supervisor.InSweep t w) : Sweeping t c c
  | tail {d e : Scene} {keys : List Text} {w : Sweep} (run : Sweeping t c d)
      (step : Happens d keys e) (sweep : e.supervisor.InSweep t w) : Sweeping t c e

/-- What a sweep that the task `t` began in `s` does, and what is left of its list in `s'`. -/
structure SweepStep (origin : Supervisor) (now : Float) (entries : List (Text × Nat)) (t : Id)
    (s s' : Supervisor) : Prop where
  sweeps : Sweeps origin now s s'
  goesOn : ∀ {w}, s'.InSweep t w → w.now = now ∧ ∀ e ∈ w.rest, e ∈ entries

/-- A sweep begins with the sessions that it finds. -/
lemma sweepPart_beginSweep {m : Supervisor} (h : Tidy p m) (hslots : m.slots = s.slots)
    (hsize : s.kernel.futures.size ≤ m.kernel.futures.size)
    (hout : ∀ x, m.kernel.outcome? x = s.kernel.outcome? x) (x : Option Float) :
    SweepPart s (x.getD m.kernel.now) s.sessions m (m.beginSweep x) := by
  have hsession : ∀ u, m.sessionOf? u = s.sessionOf? u := fun u => by
    rw [sessionOf?, sessionOf?, hout]
  have hsessions : m.sessions = s.sessions := by
    rw [sessions, sessions, hslots]
    simp only [hsession]
  have hlist : Lists s m s.sessions := by
    intro e he
    obtain ⟨hmem, hslot⟩ := lists_sessions h e (hsessions ▸ he)
    exact ⟨he, fun u hu => (hslot u hu).imp_right (Nat.le_trans hsize)⟩
  have hcourse := sweepCourse_sweepFrom h hlist (x.getD m.kernel.now) []
  rw [beginSweep, hsessions]
  exact ⟨⟨m, _, .refl m, hcourse.closes, .refl _⟩, hcourse.goesOn⟩

lemma undisturbed_kernel (s : Supervisor) (k : Machine) : Undisturbed s { s with kernel := k } :=
  ⟨rfl, rfl, rfl, rfl, rfl, rfl⟩

/-- A turn of a task that sweeps, seen from before it. -/
lemma SweepPart.step {r : Supervisor × Course Sweep} {r' : Supervisor × Course Routine}
    (h : SweepPart origin now entries { s with kernel := k } r) (hturn : SweepTurn r r')
    (hsound : Sound p (some t) r'.1) :
    SweepStep origin now entries t s (r'.1.follow t r'.2) := by
  obtain ⟨hsweeps, hgoes⟩ := h.turn hturn hsound
  exact ⟨.after (undisturbed_kernel s k) hsweeps, hgoes⟩

/-- The first turn of a sweep. -/
lemma Sound.beginsSweep (h : Sound p none s) (hbegins : BeginsSweep s t now s') :
    SweepStep s now s.sessions t s s' := by
  cases hbegins with
  | @asked _ limit k x hnext htime hstep =>
    have hdue := h.due hnext rfl
    have htidy := hdue.sound.toTidy
    rw [step?, hnext] at hstep
    cases hstep
    have hpart := sweepPart_beginSweep (s := s) htidy rfl (Nat.le_of_eq hdue.roused.size.symm)
      hdue.roused.outcome x
    have hturns : Turns p .all (Plain p) _ (within .sweeping (beginSweep { s with kernel := k } x)) :=
      turns_within htidy (turns_sweepFrom htidy _ [] _) fun hw => ⟨hw, rfl, rfl⟩
    exact htime ▸ hpart.step (sweepTurn_within _) (hdue.sound.moves hturns.moves)
  | @due _ limit k timer v hnext htime hstep =>
    have hdue := h.due hnext rfl
    rw [step?, hnext] at hstep
    cases hstep
    have hdisarm : Moves p .all { s with kernel := k } { s with kernel := k.disarm timer } :=
      moves_kernel (.single (.disarm timer))
    have hsound := hdue.sound.moves hdisarm
    have htidy := hsound.toTidy
    have hpart := sweepPart_beginSweep (s := s) htidy rfl (Nat.le_of_eq hdue.roused.size.symm)
      hdue.roused.outcome none
    have hturns : Turns p .all (Plain p) _
        (afterSweep (beginSweep { s with kernel := k.disarm timer } none)) :=
      turns_afterSweep htidy (turns_sweepFrom htidy _ [] _)
    exact htime ▸ hpart.step (sweepTurn_afterSweep _) (hsound.moves hturns.moves)
  | @entered x htask htime =>
    obtain ⟨hsound, -⟩ := h.added rfl
    have htidy := hsound.toTidy
    have hpart := sweepPart_beginSweep (s := s) htidy rfl
      (by rw [Kernel.size_add]; exact Nat.le_succ _) (fun _ => Kernel.outcome?_add rfl) x
    have hturns : Turns p .all (Plain p) _ (within .sweeping (beginSweep
        { s with kernel := (s.kernel.add { activity := some { body := none } }).1 } x)) :=
      turns_within htidy (turns_sweepFrom htidy _ [] _) fun hw => ⟨hw, rfl, rfl⟩
    subst htask
    exact htime ▸ hpart.step (sweepTurn_within _) (hsound.moves hturns.moves)

/-- A later turn of a sweep. -/
lemma AtTurn.sweepStep {r : Routine} {w : Sweep} (h : AtTurn p s k t r) (hsweep : r.sweep? = some w)
    (hlist : Lists origin s w.rest) (input : Outcome Value Failure) :
    SweepStep origin w.now w.rest t s (resume { s with kernel := k } t r input) := by
  obtain ⟨x, hfits⟩ := h.fits
  have htidy := h.sound.toTidy
  have hlist' : Lists origin { s with kernel := k } w.rest :=
    hlist.of_slots id fun ho => (h.roused.outcome _).trans ho
  cases r with
  | sweeping w' =>
    cases hsweep
    have hpart := sweepPart_resumeSweep htidy hfits.refs hlist' input
    have hturns : Turns p .all (Plain p) _ (within .sweeping (resumeSweep _ w input)) :=
      turns_within htidy (turns_resumeSweep htidy hfits.refs input) fun hw => ⟨hw, rfl, rfl⟩
    exact hpart.step (sweepTurn_within _) (h.sound.moves hturns.moves)
  | sweeperSweeping w' =>
    cases hsweep
    have hpart := sweepPart_resumeSweep htidy hfits.refs hlist' input
    have hturns : Turns p .all (Plain p) _ (afterSweep (resumeSweep _ w input)) :=
      turns_afterSweep htidy (turns_resumeSweep htidy hfits.refs input)
    exact hpart.step (sweepTurn_afterSweep _) (h.sound.moves hturns.moves)
  | _ => cases hsweep

lemma Routine.helps_of_sweep? {r : Routine} {w : Sweep} (h : r.sweep? = some w) :
    r.helps = false := by
  cases r <;> first | rfl | cases h

/-- A task that sweeps stands where it stood, or it has had its turn. -/
lemma Scene.Sound.sweeping (h : c.Sound p) (hbegun : Run c keys c')
    (hentries : ∀ {w}, c'.supervisor.InSweep t w → w.now = now ∧
      ∀ e ∈ w.rest, e ∈ c.supervisor.sessions) (hrun : Sweeping t c' d) :
    ∃ more w, Run c more d ∧ d.supervisor.InSweep t w ∧ w.now = now ∧
      ∀ e ∈ w.rest, e ∈ c.supervisor.sessions := by
  induction hrun with
  | refl hw => exact ⟨_, _, hbegun, hw, hentries hw⟩
  | @tail d e _ w' _ hstep hw' ih =>
    obtain ⟨more, w, hrun, ⟨a, r, ha, hbody, hsweep⟩, htime, hrest⟩ := ih
    refine ⟨_, w', hrun.tail hstep, hw', ?_⟩
    obtain ⟨p₁, hsound, -⟩ := h.run hrun
    obtain ⟨p₂, turn, hstepped, -, hturn⟩ := hsound.happens hstep
    by_cases ht : turn = some t
    · -- what is left of the list only gets less
      have hsteps : ∀ {s'}, SweepStep c.supervisor w.now w.rest t d.supervisor s' →
          s'.InSweep t w' → w'.now = now ∧ ∀ e ∈ w'.rest, e ∈ c.supervisor.sessions :=
        fun hstep hw' => ⟨(hstep.goesOn hw').1.trans htime, fun e he =>
          hrest e ((hstep.goesOn hw').2 e he)⟩
      obtain ⟨b, r', hb, hbody', hsweep'⟩ := id hw'
      cases hturn ht ha with
      | stillborn _ _ hends hafter =>
        rw [hafter] at hb
        cases hends.self.2.2.symm.trans hb
      | «begins» hbody₁ _ _ hdue hafter =>
        cases hbody.symm.trans hbody₁
        rw [hafter, begin_eq_resume _ _ (Routine.helps_of_sweep? hsweep)] at hw'
        exact hsteps (hdue.sweepStep hsweep (h.lists hrun hrest) _) hw'
      | resumes hbody₁ _ _ hdue hafter =>
        cases hbody.symm.trans hbody₁
        rw [hafter] at hw'
        exact hsteps (hdue.sweepStep hsweep (h.lists hrun hrest) _) hw'
    · obtain ⟨b, hb, hbody', -⟩ := hstepped.onward.kept ht ha
      obtain ⟨b', r', hb', hbody'', hsweep'⟩ := hw'
      cases hb.symm.trans hb'
      cases (hbody'.trans hbody).symm.trans hbody''
      cases hsweep.symm.trans hsweep'
      exact ⟨htime, hrest⟩

/-- In any run, a sweep does no more in its first turn, nor in any later one, than to close by its
key what it found at its beginning and now finds idle. -/
theorem sweeps_of_run {settings : Settings} {cwd : Text} {scripts : List Daemon.Script}
    (hrun : Run (Scene.fresh settings cwd scripts) keys c) (hstep : Happens c more c')
    (hbegins : BeginsSweep c.supervisor t now c'.supervisor) :
    Sweeps c.supervisor now c.supervisor c'.supervisor ∧
      ∀ {d : Scene} {limit : Float} {k : Machine}
        {act : Kernel.Activation Routine Hook Value Failure} {r : Routine} {s : Supervisor},
        Sweeping t c' d → d.supervisor.kernel.next? limit = some (k, act) →
          turnOf act = some (t, r) → d.supervisor.step? limit = some s →
            Sweeps c.supervisor now d.supervisor s := by
  obtain ⟨p, hsound, -⟩ := (Scene.sound_fresh settings cwd scripts).run hrun
  have hfirst := hsound.sound.beginsSweep hbegins
  refine ⟨hfirst.sweeps, fun {d limit k act r s} hsweeping hnext hturn hjob => ?_⟩
  obtain ⟨_, w, hrun', ⟨a, r', ha, hbody, hsweep⟩, htime, hrest⟩ :=
    hsound.sweeping (.tail .refl hstep) hfirst.goesOn hsweeping
  obtain ⟨p', hsound', -⟩ := hsound.run hrun'
  have hdue := hsound'.sound.due hnext hturn
  obtain ⟨b, hb, hbody'⟩ := hdue.stood
  cases ha.symm.trans hb
  cases hbody.symm.trans hbody'
  have hlist := hsound.lists hrun' hrest
  rw [step?, hnext] at hjob
  cases act with
  | «begin» t' r'' =>
    cases hturn
    cases hjob
    rw [begin_eq_resume _ _ (Routine.helps_of_sweep? hsweep)]
    exact htime ▸ (hdue.sweepStep hsweep hlist _).sweeps
  | resume t' r'' input =>
    cases hturn
    cases hjob
    exact htime ▸ (hdue.sweepStep hsweep hlist _).sweeps
  | _ => cases hturn

/-- Settings by which a session is idle after ten seconds. -/
def hasty : Settings := { command := ["nimsuggest"], idleTimeout := .real 10.0 }

/-- A supervisor whose first daemon ignores that it is killed. -/
def stubborn : Scene := Scene.fresh hasty "/work" [{ ignoresKill := true }, {}]

/-- A client asks for the session of a project and gets it. -/
def obtain (s : Supervisor) (name : Text) : Supervisor :=
  (s.launchTask (.acquire (Project.ofPath "/work" name))).1.settle

/-- Two sessions, idle for twenty seconds. -/
def idling : Supervisor := ((stubborn.supervisor.obtain "p.nim").obtain "q.nim").advance 20

/-- A sweep of them closes the first one and waits for the end of its process. -/
def sweepingIdle : Supervisor := idling.enter (.sweep none)

lemma run_idling : ∃ keys calls, Run stubborn keys ⟨idling, calls⟩ := by
  have hstart : Run stubborn [] ⟨stubborn.supervisor, []⟩ := .refl
  obtain ⟨_, hfirst⟩ := hstart.launch (r := .acquire (Project.ofPath "/work" "p.nim")) rfl
  obtain ⟨_, hsecond⟩ := hfirst.launch (r := .acquire (Project.ofPath "/work" "q.nim")) rfl
  obtain ⟨_, hlater⟩ := hsecond.advance 20
  exact ⟨_, _, hlater⟩

/-- A sweep of two idle sessions kills the first process at once. -/
theorem sweeps_idling :
    ∃ keys c, Run stubborn keys c ∧ c.supervisor = idling ∧
      Sweeps idling idling.kernel.now idling sweepingIdle ∧
      idling.events.contains "kill 1001" = false ∧
      sweepingIdle.events.contains "kill 1001" = true := by
  obtain ⟨keys, calls, hrun⟩ := run_idling
  obtain ⟨hsweeps, -⟩ := sweeps_of_run hrun (.enter (r := .sweep none) rfl) (.entered rfl rfl)
  exact ⟨keys, _, hrun, rfl, hsweeps, by decide +kernel⟩

/-- While that sweep waits, the other session ends and a new one is opened for its project. -/
def renewed : Supervisor := ((sweepingIdle.exit 1002 1).settle).obtain "q.nim"

/-- When the sweep goes on, it kills the daemon of the new session. -/
theorem newer_stopped :
    (∃ keys calls, Run stubborn keys ⟨renewed, calls⟩) ∧
      idling.sessions.map Prod.snd = [0, 1] ∧ renewed.sessions.map Prod.snd = [2] ∧
      renewed.isAlive 2 = true ∧ renewed.events.contains "kill 1003" = false ∧
      (renewed.advance 5).events.contains "kill 1003" = true := by
  refine ⟨?_, by decide +kernel⟩
  obtain ⟨_, _, hrun⟩ := run_idling
  obtain ⟨_, hended⟩ := ((hrun.tail (.enter (r := .sweep none) rfl)).tail (.exit _ _ 1002 1)).settle
  obtain ⟨_, hrenewed⟩ := hended.launch (r := .acquire (Project.ofPath "/work" "q.nim")) rfl
  exact ⟨_, _, hrenewed⟩

end SuggestBridge.Supervisor
