import SuggestBridge.Proofs.Supervisor.Run

/-!
# One startup for all who ask

Callers that ask for the session of a project share one startup.  A slot is filled only when it is
vacant, a startup starts at most one daemon while it holds its slot, and whoever waits for it is told
of its one outcome; a session that is handed out at once can be used.  `Shared` states this for a
state of a supervisor, and `shared_of_run` for all states that any run reaches.
-/

namespace SuggestBridge.Supervisor

open SuggestBridge.Task

variable {p p' : Plan} {s s' : Supervisor} {k : Machine} {turn : Option Id} {t u : Id}
variable {c c' d : Scene} {keys more : List Text} {key : Text}

/-! ## Getting a session at once -/

/-- The startup of a slot that is not vacant is shared. -/
lemma Sound.startupFor_of_not_spent (h : Sound p none s) {project : Project}
    (hslot : s.slots.get? (project.key s.cwd) = some u) (hfit : ¬s.Spent u) :
    s.startupFor project = (s, u) := by
  rw [startupFor_eq]
  cases husable : s.usable? (project.key s.cwd) with
  | none => exact absurd (h.spent hslot husable) hfit
  | some v =>
    have hv : s.slots.get? (project.key s.cwd) = some v := (Option.filter_eq_some_iff.1 husable).1
    cases hslot.symm.trans hv
    rfl

/-- Whoever need not wait gets a session that can be used. -/
lemma alive_of_beginAcquiring {project : Project} {o : Outcome Value Failure}
    (h : (s.beginAcquiring project).2 = .ends o) :
    (s.beginAcquiring project).1 = s ∧ ∃ n, o = .value (.session n) ∧ s.isAlive n = true := by
  rw [beginAcquiring, startupFor_eq] at h ⊢
  cases husable : s.usable? (project.key s.cwd) with
  | none =>
    have hopen : (s.fillSlot project).kernel.outcome? s.kernel.futures.size = none :=
      outcome?_fillSlot.trans (Kernel.views_of_size_le (Nat.le_refl _)).1
    simp [husable, hopen] at h
  | some u =>
    cases ho : s.kernel.outcome? u with
    | none => simp [husable, ho] at h
    | some v =>
      simp only [husable, ho, Progress.ends.injEq] at h ⊢
      have hlive := (Option.filter_eq_some_iff.1 husable).2
      rw [Kernel.isDone, ho, sessionOf?, ho] at hlive
      refine ⟨trivial, ?_⟩
      cases v with
      | value x =>
        cases x with
        | session n => exact ⟨n, h.symm, hlive⟩
        | _ => simp at hlive
      | failure e => simp at hlive
      | cancelled => simp at hlive

lemma isAlive_follow {course : Course Routine} {n : Nat} :
    (s.follow t course).isAlive n = s.isAlive n := by
  cases course <;> rfl

lemma activity?_beginAcquiring {project : Project} {a : Activity Routine}
    (ha : s.kernel.activity? t = some a) :
    (s.beginAcquiring project).1.kernel.activity? t = some a := by
  have hfill : (s.fillSlot project).kernel.activity? t = some a := by
    rw [activity?_fillSlot, if_neg (Nat.ne_of_lt (Kernel.lt_size_of_activity? ha)), ha]
  have hfound : (s.startupFor project).1.kernel.activity? t = some a := by
    rw [startupFor_eq]
    split
    · exact ha
    · exact hfill
  unfold beginAcquiring
  dsimp only
  split
  · exact hfound
  · exact activity?_followOutcome.trans hfound

lemma begin_acquire (s : Supervisor) (t : Id) (project : Project) :
    s.begin t (.acquire project) = (s.beginAcquiring project).1.follow t
      (match (s.beginAcquiring project).2 with
        | .ends o => .ends o
        | .waits x g => .waits (.acquiring x.1 x.2) g) := by
  have hbegin : s.begin t (.acquire project) =
      (within (fun x => .acquiring x.1 x.2) (s.beginAcquiring project)).1.follow t
        (within (fun x => .acquiring x.1 x.2) (s.beginAcquiring project)).2 := rfl
  rw [hbegin, within]
  generalize s.beginAcquiring project = r
  obtain ⟨s', course⟩ := r
  cases course <;> rfl

/-- The turn of a caller that gets a session at once. -/
lemma alive_of_begin {project : Project} {a : Activity Routine} {o : Outcome Value Failure}
    (ha : s.kernel.activity? t = some a) (hmust : a.mustCancel = false)
    (hopen : s.kernel.outcome? t = none)
    (hafter : (s.begin t (.acquire project)).kernel.Waking none)
    (ho : (s.begin t (.acquire project)).kernel.outcome? t = some o) :
    ∃ n, o = .value (.session n) ∧ (s.begin t (.acquire project)).isAlive n = true := by
  rw [begin_acquire] at hafter ho ⊢
  cases hcourse : (s.beginAcquiring project).2 with
  | ends v =>
    obtain ⟨hsame, n, rfl, halive⟩ := alive_of_beginAcquiring hcourse
    have hkept : s.kernel.mustCancel t = false := by
      rw [Kernel.mustCancel_eq, ha]
      exact hmust
    rw [hcourse, hsame] at ho
    rw [follow, Kernel.finish_eq, hkept] at ho
    have hsettled := Kernel.outcome?_settle_self (o := .value (.session n))
      ⟨Kernel.lt_size_of_activity? ha, hopen⟩
    cases hsettled.symm.trans ho
    exact ⟨n, rfl, by rw [isAlive_follow, hsame, halive]⟩
  | waits x g =>
    obtain ⟨b, hb, -⟩ := Kernel.exists_activity?_suspend (activity?_beginAcquiring ha)
      (.acquiring x.1 x.2) g
    rw [hcourse] at hafter ho
    cases (hafter.unsettled hb).symm.trans ho

/-! ## Runs -/

/-- A supervisor that nobody has used yet. -/
def Scene.fresh (settings : Settings) (cwd : Text) (scripts : List Daemon.Script) : Scene :=
  ⟨{ settings, cwd, scripts }, []⟩

lemma Scene.sound_fresh (settings : Settings) (cwd : Text) (scripts : List Daemon.Script) :
    (Scene.fresh settings cwd scripts).Sound {} where
  sound :=
    { follows := .empty
      slots := fun hu => by simp [Scene.fresh, Slots.get?] at hu
      distinct := by simp [Scene.fresh, Slots.keys]
      links := fun l hl => absurd hl (by simp [Scene.fresh])
      processes := fun q hq => absurd hq (by simp [Scene.fresh])
      sweeper := fun t ht => by simp [Scene.fresh] at ht
      background := fun t ht => absurd ht (by simp [Scene.fresh])
      opened := fun hx => by simp [Scene.fresh] at hx
      apart := by constructor <;> simp [Scene.fresh]
      numbered := fun q hq => absurd hq (by simp [Scene.fresh])
      waking := .empty
      runs := fun t ht => by simp at ht
      fits := fun ha => by simp [Scene.fresh, Kernel.activity?] at ha
      active := fun hu => absurd rfl hu
      held := fun hu => by simp at hu
      ended := fun hu => by simp at hu
      owned := fun ha => by simp [Scene.fresh, Kernel.activity?] at ha
      helpers := fun ht => by
        cases ht with
        | listener hl _ => exact absurd hl (by simp [Scene.fresh])
        | child ha _ _ _ => simp [Scene.fresh, Kernel.activity?] at ha
      still := fun ha => by simp [Scene.fresh, Kernel.activity?] at ha }
  calls t ht := absurd ht (by simp [Scene.fresh])

/-- What any run keeps. -/
lemma Scene.Sound.run (h : c.Sound p) (hrun : Run c keys d) :
    ∃ p', d.Sound p' ∧ p.Extends p' c.supervisor.kernel.futures.size ∧
      c.supervisor.kernel.futures.size ≤ d.supervisor.kernel.futures.size ∧
        ∀ {x o}, c.supervisor.kernel.outcome? x = some o →
          d.supervisor.kernel.outcome? x = some o := by
  induction hrun with
  | refl => exact ⟨p, h, .refl p _, Nat.le_refl _, id⟩
  | tail _ hstep ih =>
    obtain ⟨p₁, hsound, hplan, hsize, hout⟩ := ih
    obtain ⟨p₂, turn, hstepped, hsound', -⟩ := hsound.happens hstep
    exact ⟨p₂, hsound', hplan.trans hstepped.onward.plan hsize,
      Nat.le_trans hsize hstepped.onward.size, hstepped.onward.outcome ∘ hout⟩

lemma Happens.length_le (h : Happens c keys c') : keys.length ≤ 1 := by
  cases h with
  | job hjob =>
    rw [startsNext]
    split
    · next act _ =>
      cases act with
      | «begin» t r => cases r <;> simp [startsOf, Routine.launches]
      | _ => simp [startsOf]
    · simp
  | _ => simp

/-- The next job is done. -/
lemma Happens.next (limit : Float) (h : (c.supervisor.step? limit).isSome = true) :
    Happens c (c.supervisor.startsNext limit) ⟨(c.supervisor.step? limit).get h, c.calls⟩ :=
  .job (Option.some_get h).symm

/-! ## One daemon -/

/-- A startup that has not had a turn: its daemon is not started yet. -/
def Unbegun (s : Supervisor) (u : Id) : Prop :=
  ∃ a project, s.kernel.activity? u = some a ∧ a.body = some (.startup project)

/-- A startup that holds its slot and has not ended held it before. -/
lemma Stepped.slot_back (h : Stepped p p' turn keys s s') (hs : Sound p none s)
    (hmark : p.mark? u = some key) (hslot : s'.slots.get? key = some u)
    (hopen : s'.kernel.isDone u = false) :
    s.slots.get? key = some u ∧ s.kernel.isDone u = false ∧
      ∃ a, s.kernel.activity? u = some a := by
  have hbefore : s.kernel.isDone u = false := by
    by_contra hdone
    exact absurd (h.onward.isDone (by simpa using hdone)) (by simp [hopen])
  obtain ⟨a, ha⟩ := hs.active (by simp [hmark]) hbefore
  have hlater : ∃ b, s'.kernel.activity? u = some b ∧
      (a.cancelRequests ≠ 0 → b.cancelRequests ≠ 0) := by
    by_cases hturn : turn = some u
    · exact (h.onward.self hturn ha).resolve_left (by simp [hopen])
    · obtain ⟨b, hb, -, -, hasked⟩ := h.onward.kept hturn ha
      exact ⟨b, hb, hasked⟩
  obtain ⟨b, hb, hasked⟩ := hlater
  have hplan : p'.mark? u = some key :=
    (h.onward.plan.mark u (Kernel.lt_size_of_activity? ha)).trans hmark
  refine ⟨(hs.held hmark ha).1 ?_, hbefore, a, ha⟩
  by_contra hne
  exact hasked hne ((h.sound.held hplan hb).2 hslot)

/-- Whoever had its turn has begun. -/
lemma Stepped.unbegun_back (h : Stepped p p' turn keys s s') {a : Activity Routine}
    (ha : s.kernel.activity? u = some a) (hu : s'.Unbegun u) : s.Unbegun u ∧ turn ≠ some u := by
  obtain ⟨b, project, hb, hbody⟩ := hu
  have hturn : turn ≠ some u := fun hturn =>
    h.waits hturn hb ((h.sound.fits hb hbody).idle rfl)
  obtain ⟨b', hb', hbody', -⟩ := h.onward.kept hturn ha
  cases hb.symm.trans hb'
  exact ⟨⟨a, project, ha, hbody'.symm.trans hbody⟩, hturn⟩

/-- While a startup holds its slot and has not ended, at most its own daemon is started. -/
lemma Scene.Sound.once (h : c.Sound p) (hrun : Run c keys d)
    (hmark : p.mark? u = some key) (hslot : d.supervisor.slots.get? key = some u)
    (hopen : d.supervisor.kernel.isDone u = false) :
    keys.count key ≤ 1 ∧ (¬c.supervisor.Unbegun u → keys.count key = 0) ∧
      (d.supervisor.Unbegun u → c.supervisor.Unbegun u ∧ keys.count key = 0) := by
  induction hrun with
  | refl => simp
  | @tail keys more d e hrun hstep ih =>
    obtain ⟨p₁, hsound, hplan, -, -⟩ := h.run hrun
    obtain ⟨p₂, turn, hstepped, -, -⟩ := hsound.happens hstep
    have hmark₁ : p₁.mark? u = some key :=
      (hplan.mark u (h.sound.follows.marks (by simp [hmark]))).trans hmark
    obtain ⟨hslot₁, hopen₁, a, ha⟩ := hstepped.slot_back hsound.sound hmark₁ hslot hopen
    obtain ⟨hle, hbegun, hunbegun⟩ := ih hslot₁ hopen₁
    rw [List.count_append]
    by_cases hkey : key ∈ more
    · -- the startup begins in this step
      obtain ⟨t, a', project, hturn, ha', hbody, hslot'⟩ := hstepped.starts hkey
      cases hslot₁.symm.trans hslot'
      obtain ⟨hfirst, hzero⟩ := hunbegun ⟨a', project, ha', hbody⟩
      have hone : more.count key ≤ 1 := Nat.le_trans List.count_le_length hstep.length_le
      exact ⟨by omega, fun hnot => absurd hfirst hnot, fun hu =>
        absurd hturn (hstepped.unbegun_back ha hu).2⟩
    · have hzero : more.count key = 0 := List.count_eq_zero.2 hkey
      rw [hzero, Nat.add_zero]
      exact ⟨hle, hbegun, fun hu => hunbegun (hstepped.unbegun_back ha hu).1⟩

/-- As long as nobody asks it to cancel, a startup that has not ended holds its slot. -/
lemma Scene.Sound.holds (h : d.Sound p) (hmark : p.mark? u = some key)
    (hopen : d.supervisor.kernel.isDone u = false) :
    d.supervisor.slots.get? key = some u ∨ d.supervisor.kernel.wasAskedToCancel u = true := by
  obtain ⟨a, ha⟩ := h.sound.active (by simp [hmark]) hopen
  by_cases hasked : a.cancelRequests = 0
  · exact .inl ((h.sound.held hmark ha).1 hasked)
  · exact .inr (by simpa [Kernel.wasAskedToCancel_eq, ha] using hasked)

/-! ## One outcome -/

/-- What a caller is told of the outcome of the startup for a key. -/
def answer (key : Text) : Outcome Value Failure → Outcome Value Failure
  | .cancelled => .failure (.startup ("nimsuggest startup for " ++ key ++ " was cancelled"))
  | o => o

/-- In a step the caller `t` is told the outcome of the startup it waits for, and goes on. -/
inductive Told (s s' : Supervisor) (t : Id) (r : Routine) (key : Text) (u : Id)
    (o : Outcome Value Failure) : Prop where
  | intro {k : Machine} (outcome : s.kernel.outcome? u = some o)
      (turn : s' = resume { s with kernel := k } t r o)
      (told : resumeAcquiring { s with kernel := k } t key u o =
        ({ s with kernel := k }, .ends (answer key o)))
      (done : r = .acquiring key u → s'.kernel.outcome? t = some (answer key o)) :
      Told s s' t r key u o

/-- A caller that was not asked to cancel is told the outcome as it is. -/
lemma resumeAcquiring_eq {o : Outcome Value Failure} (ho : s.kernel.outcome? u = some o)
    (hasked : s.kernel.wasAskedToCancel t = false) :
    s.resumeAcquiring t key u o = (s, .ends (answer key o)) := by
  cases o with
  | cancelled => simp [resumeAcquiring, Kernel.isCancelled, ho, hasked, answer]
  | _ => rfl

/-- A caller waits on, or is told the outcome of its startup. -/
lemma Scene.Sound.tells (h : c.Sound p) (hstep : Happens c keys c') {a : Activity Routine}
    {r : Routine} (ha : c.supervisor.kernel.activity? t = some a) (hbody : a.body = some r)
    (hawaits : r.awaits? = some (key, u)) (hasked : a.cancelRequests = 0) :
    (∃ b, c'.supervisor.kernel.activity? t = some b ∧ b.body = some r) ∨
      ∃ o, Told c.supervisor c'.supervisor t r key u o := by
  obtain ⟨p', turn, hstepped, -, hturn⟩ := h.happens hstep
  obtain ⟨g, hg, hrelay, -⟩ := (h.sound.fits ha hbody).awaits hawaits
  by_cases ht : turn = some t
  swap
  · obtain ⟨b, hb, hbody', -⟩ := hstepped.onward.kept ht ha
    exact .inl ⟨b, hb, hbody'.trans hbody⟩
  refine .inr ?_
  cases hturn ht ha with
  | stillborn _ hmust => exact absurd hasked (h.sound.follows.asked ha hmust)
  | «begins» _ hidle _ _ _ => cases hidle.symm.trans hg
  | @resumes k r' g' o hbody' hwaited ho hdue hafter =>
    have hroused := hdue.roused
    cases hbody.symm.trans hbody'
    cases hg.symm.trans hwaited
    have hmust : a.mustCancel = false := by
      by_contra hmust
      exact h.sound.follows.asked ha (by simpa using hmust) hasked
    have hu : c.supervisor.kernel.outcome? u = some o := by
      rcases h.sound.follows.relayed hrelay ho with hu | ⟨-, hcancel⟩
      · exact hu
      · exact absurd hasked (hcancel a ha hg)
    obtain ⟨a', b, ha', hb, -, -, hmust', hsame⟩ := hroused.self
    cases ha.symm.trans ha'
    rw [if_neg (by simp [hmust])] at hafter
    have hcalm : k.wasAskedToCancel t = false := by
      simp [Kernel.wasAskedToCancel_eq, hb, hsame, hasked]
    have htold : resumeAcquiring { c.supervisor with kernel := k } t key u o =
        ({ c.supervisor with kernel := k }, .ends (answer key o)) :=
      resumeAcquiring_eq ((hroused.outcome u).trans hu) hcalm
    refine ⟨o, .intro hu hafter htold ?_⟩
    rintro rfl
    have hdone : c'.supervisor.kernel = k.finish t (answer key o) := by
      rw [hafter, resume, proceed, htold]
      rfl
    have hopen : k.IsOpen t :=
      ⟨Kernel.lt_size_of_activity? hb, (hroused.outcome t).trans (h.sound.waking.unsettled ha)⟩
    rw [hdone, Kernel.finish_eq, Kernel.mustCancel_eq, hb]
    simp only [Option.map_some, Option.getD_some, hmust']
    split <;> exact Kernel.outcome?_settle_self hopen

/-- A caller that is not asked to cancel is told the outcome of its startup. -/
lemma Scene.Sound.told (h : c.Sound p) (hrun : Run c keys d) {a : Activity Routine} {r : Routine}
    (ha : c.supervisor.kernel.activity? t = some a) (hbody : a.body = some r)
    (hawaits : r.awaits? = some (key, u)) :
    (∃ b, d.supervisor.kernel.activity? t = some b ∧ b.body = some r) ∨
      (∃ before after e, Run c before e ∧ Run e after d ∧
        e.supervisor.kernel.wasAskedToCancel t = true) ∨
      ∃ before now after e e' o, Run c before e ∧ Happens e now e' ∧ Run e' after d ∧
        Told e.supervisor e'.supervisor t r key u o := by
  induction hrun with
  | refl => exact .inl ⟨a, ha, hbody⟩
  | @tail keys more d e hrun hstep ih =>
    rcases ih with ⟨b, hb, hbody'⟩ | ⟨before, after, x, hbefore, hafter, hasked⟩ |
      ⟨before, now, after, x, x', o, hbefore, hnow, hafter, htold⟩
    · by_cases hasked : b.cancelRequests = 0
      · obtain ⟨p', hsound, -⟩ := h.run hrun
        exact (hsound.tells hstep hb hbody' hawaits hasked).imp id fun ⟨o, htold⟩ =>
          .inr ⟨keys, more, [], d, e, o, hrun, hstep, .refl, htold⟩
      · exact .inr (.inl ⟨keys, more, d, hrun, by simpa using Run.tail .refl hstep,
          by simpa [Kernel.wasAskedToCancel_eq, hb] using hasked⟩)
    · exact .inr (.inl ⟨before, _, x, hbefore, hafter.tail hstep, hasked⟩)
    · exact .inr (.inr ⟨before, now, _, x, x', o, hbefore, hnow, hafter.tail hstep, htold⟩)

/-! ## Sharing -/

/-- What is shared among those who ask for sessions, from the scene `c` on. -/
structure Shared (c : Scene) : Prop where
  /-- Whoever asks while a slot is not vacant gets the startup that is in it. -/
  joins : ∀ {project u}, c.supervisor.slots.get? (project.key c.supervisor.cwd) = some u →
    ¬c.supervisor.Spent u → c.supervisor.startupFor project = (c.supervisor, u)
  /-- Whatever happens, only a vacant slot is filled. -/
  fills : ∀ {keys c' key u}, Happens c keys c' → c'.supervisor.slots.get? key = some u →
    c.supervisor.slots.get? key = some u ∨ c.supervisor.Vacant key
  /-- Daemons are started by startups that have their first turn and hold the slot of their key. -/
  starts : ∀ {keys c'}, Happens c keys c' →
    c'.supervisor.attempts = c.supervisor.attempts + keys.length ∧
      ∀ key ∈ keys, ∃ u, c.supervisor.slots.get? key = some u ∧ c.supervisor.Unbegun u ∧
        ¬c'.supervisor.Unbegun u
  /-- While a startup has not ended, it holds its slot unless it was asked to cancel. -/
  holds : ∀ {keys d key u}, c.supervisor.slots.get? key = some u → Run c keys d →
    d.supervisor.kernel.isDone u = false →
      d.supervisor.slots.get? key = some u ∨ d.supervisor.kernel.wasAskedToCancel u = true
  /-- As long as it does, no daemon but its own is started for its key. -/
  once : ∀ {keys d key u}, c.supervisor.slots.get? key = some u → Run c keys d →
    d.supervisor.kernel.isDone u = false → d.supervisor.slots.get? key = some u →
      keys.count key ≤ 1 ∧ (¬c.supervisor.Unbegun u → keys.count key = 0)
  /-- Callers that wait for a startup and are not asked to cancel are all told its one outcome. -/
  answered : ∀ {keys d t a r key u}, c.supervisor.kernel.activity? t = some a → a.body = some r →
    r.awaits? = some (key, u) → Run c keys d →
      (∃ b, d.supervisor.kernel.activity? t = some b ∧ b.body = some r) ∨
      (∃ before after e, Run c before e ∧ Run e after d ∧
        e.supervisor.kernel.wasAskedToCancel t = true) ∨
      ∃ o, d.supervisor.kernel.outcome? u = some o ∧
        (r = .acquiring key u → d.supervisor.kernel.outcome? t = some (answer key o)) ∧
        ∃ before now after e e', Run c before e ∧ Happens e now e' ∧ Run e' after d ∧
          Told e.supervisor e'.supervisor t r key u o
  /-- A session that is handed out in the turn in which it is asked for can be used. -/
  prompt : ∀ {keys c' t a project o}, Happens c keys c' →
    c.supervisor.kernel.activity? t = some a → a.body = some (.acquire project) →
      a.cancelRequests = 0 → c'.supervisor.kernel.outcome? t = some o →
        ∃ n, o = .value (.session n) ∧ c'.supervisor.isAlive n = true
  /-- So it is when the task is made for this turn. -/
  direct : ∀ {project o},
    (c.supervisor.enter (.acquire project)).kernel.outcome? c.supervisor.kernel.futures.size =
      some o →
        ∃ n, o = .value (.session n) ∧ (c.supervisor.enter (.acquire project)).isAlive n = true

/-- In its turn a caller gets a session at once, or waits. -/
lemma Scene.Sound.prompt (h : c.Sound p) (hstep : Happens c keys c') {a : Activity Routine}
    {project : Project} {o : Outcome Value Failure}
    (ha : c.supervisor.kernel.activity? t = some a) (hbody : a.body = some (.acquire project))
    (hasked : a.cancelRequests = 0) (ho : c'.supervisor.kernel.outcome? t = some o) :
    ∃ n, o = .value (.session n) ∧ c'.supervisor.isAlive n = true := by
  obtain ⟨p', turn, hstepped, -, hturn⟩ := h.happens hstep
  have hwaking := hstepped.sound.waking
  by_cases ht : turn = some t
  swap
  · obtain ⟨b, hb, -⟩ := hstepped.onward.kept ht ha
    cases (hwaking.unsettled hb).symm.trans ho
  have hmust : a.mustCancel = false := by
    by_contra hmust
    exact h.sound.follows.asked ha (by simpa using hmust) hasked
  -- whether it begins or goes on, its turn is the same
  have begins : ∀ {k : Machine}, Kernel.Roused c.supervisor.kernel k t →
      c'.supervisor = begin { c.supervisor with kernel := k } t (.acquire project) →
      ∃ n, o = .value (.session n) ∧ c'.supervisor.isAlive n = true := by
    intro k hroused hafter
    obtain ⟨a', b, -, hb, -, -, hmust', -⟩ := hroused.self
    rw [hafter] at hwaking ho ⊢
    exact alive_of_begin hb hmust' ((hroused.outcome t).trans (h.sound.waking.unsettled ha))
      hwaking ho
  cases hturn ht ha with
  | stillborn _ hmust' => simp [hmust] at hmust'
  | «begins» hbody' _ _ hdue hafter =>
    cases hbody.symm.trans hbody'
    exact begins hdue.roused hafter
  | resumes hbody' _ _ hdue hafter =>
    cases hbody.symm.trans hbody'
    exact begins hdue.roused hafter

/-- A supervisor that two callers have asked for the session of one project. -/
def askedTwice : Supervisor :=
  ((({ settings := { command := ["nimsuggest"] }, cwd := "/work" } : Supervisor).launchTask
    (.acquire (Project.ofPath "/work" "p.nim"))).1.launchTask
      (.acquire (Project.ofPath "/work" "p.nim"))).1

end SuggestBridge.Supervisor
