import SuggestBridge.Proofs.Supervisor.Sharing

/-!
# One task along a run

What becomes of one request is a matter of one task: of the places where it stands between its turns, and
of what it ends with.  `GoesOn` is a turn of a task as one sees it in a run, and `Given` is what is known
when the turn begins.  In between, a task stands where it stood, so a property of it (`Stays`) is kept by
any step as soon as it is kept by the turns of that very task (`Stepped.stays`).

One such property is proved here for all tasks.  Whoever waits for a startup after a turn has found this
startup in the slot of its key, in the same turn (`Given.rests`).
-/

namespace SuggestBridge.Supervisor

open SuggestBridge.Task

variable {p p' : Plan} {ω : Warrant} {s s' m : Supervisor} {k : Machine} {turn : Option Id} {t u : Id}
variable {c c' d : Scene} {keys more : List Text} {key : Text} {r : Routine}
variable {input : Outcome Value Failure}

/-! ## The beginning of a turn -/

/-- The turn of the task `t` has come, which stood at `r` in `s`.  It goes on in `m` and is told
`input`: if it has waited for a startup that ended well, then just that. -/
structure Given (p : Plan) (s : Supervisor) (t : Id) (r : Routine) (m : Supervisor)
    (input : Outcome Value Failure) : Prop extends Stood p m t r where
  sound : Sound p (some t) m
  same : m = { s with kernel := m.kernel }
  widens : s.kernel.Widens m.kernel
  outcome : ∀ x, m.kernel.outcome? x = s.kernel.outcome? x
  others : ∀ {u}, u ≠ t → m.kernel.activity? u = s.kernel.activity? u
  told : ∀ {key u v}, r.awaits? = some (key, u) → input = .value v →
    s.kernel.outcome? u = some (.value v)

lemma AtTurn.given (h : AtTurn p s k t r)
    (htold : ∀ {key u v}, r.awaits? = some (key, u) → input = .value v →
      s.kernel.outcome? u = some (.value v)) : Given p s t r { s with kernel := k } input :=
  { h.toStood with
    sound := h.sound
    same := rfl
    widens := h.roused.widens
    outcome := h.roused.outcome
    others := h.roused.other _
    told := htold }

/-- Whoever begins does not wait for a startup yet. -/
lemma Sound.given_begin (h : Sound p none s) {a : Activity Routine}
    (ha : s.kernel.activity? t = some a) (hbody : a.body = some r) (hidle : a.waitingFor = none)
    (hdue : AtTurn p s k t r) : Given p s t r { s with kernel := k } (.value .unit) := by
  refine hdue.given fun haw _ => ?_
  obtain ⟨g, hg, -⟩ := (h.fits ha hbody).awaits haw
  cases hidle.symm.trans hg

/-- Whoever waited for a startup is told its outcome, or to cancel. -/
lemma Sound.given_resume (h : Sound p none s) {a : Activity Routine} {g : Id}
    {o : Outcome Value Failure} (ha : s.kernel.activity? t = some a) (hbody : a.body = some r)
    (hwaited : a.waitingFor = some g) (ho : s.kernel.outcome? g = some o) (hdue : AtTurn p s k t r) :
    Given p s t r { s with kernel := k } (if a.mustCancel then .cancelled else o) := by
  refine hdue.given fun haw hv => ?_
  obtain ⟨g', hg', hrelay, -⟩ := (h.fits ha hbody).awaits haw
  cases hwaited.symm.trans hg'
  split at hv
  · cases hv
  · subst hv
    rcases h.follows.relayed hrelay ho with hu | ⟨hcancel, -⟩
    · exact hu
    · cases hcancel

lemma begin_eq_resume (s : Supervisor) (t : Id) (hr : r.helps = false) :
    s.begin t r = s.resume t r (.value .unit) := by
  cases r <;> first | rfl | cases hr

/-- A task that has its turn was cancelled before it began, or it begins or goes on. -/
lemma HasTurn.given {a : Activity Routine} (h : HasTurn p s s' t a) (hs : Sound p none s)
    (ha : s.kernel.activity? t = some a) (hbody : a.body = some r) (hr : r.helps = false) :
    (a.waitingFor = none ∧ ∃ k, Kernel.Ends s.kernel k t .cancelled ∧ s' = { s with kernel := k }) ∨
      ∃ m input, Given p s t r m input ∧ s' = m.resume t r input := by
  cases h with
  | stillborn hidle _ hends hafter => exact .inl ⟨hidle, _, hends, hafter⟩
  | «begins» hbody' hidle _ hdue hafter =>
    cases hbody.symm.trans hbody'
    exact .inr ⟨_, _, hs.given_begin ha hbody hidle hdue, hafter.trans (begin_eq_resume _ t hr)⟩
  | resumes hbody' hwaited ho hdue hafter =>
    cases hbody.symm.trans hbody'
    exact .inr ⟨_, _, hs.given_resume ha hbody hwaited ho hdue, hafter⟩

/-! ## Turns in a run -/

/-- A step in which the task `t` has its turn at `r`: it goes on in `m` and is told `input`. -/
inductive GoesOn (t : Id) (r : Routine) (m : Supervisor) (input : Outcome Value Failure) :
    Scene → Scene → Prop where
  | begins {s s' : Supervisor} {calls : List Id} {limit : Float} {k : Machine}
      (next : s.kernel.next? limit = some (k, .begin t r)) (step : s.step? limit = some s')
      (state : m = { s with kernel := k }) (told : input = .value .unit) :
      GoesOn t r m input ⟨s, calls⟩ ⟨s', calls⟩
  | resumes {s s' : Supervisor} {calls : List Id} {limit : Float} {k : Machine}
      (next : s.kernel.next? limit = some (k, .resume t r input)) (step : s.step? limit = some s')
      (state : m = { s with kernel := k }) : GoesOn t r m input ⟨s, calls⟩ ⟨s', calls⟩
  /-- The task is made in this step, and it begins at once. -/
  | entered {s : Supervisor} {calls : List Id} (request : r.isRequest = true)
      (task : t = s.kernel.futures.size)
      (state : m = { s with kernel := (s.kernel.add { activity := some { body := none } }).1 })
      (told : input = .value .unit) :
      GoesOn t r m input ⟨s, calls⟩ ⟨s.enter r, calls ++ [s.kernel.futures.size]⟩

lemma GoesOn.happens (h : GoesOn t r m input c c') : ∃ keys, Happens c keys c' := by
  cases h with
  | «begins» _ hstep => exact ⟨_, .job hstep⟩
  | resumes _ hstep => exact ⟨_, .job hstep⟩
  | entered hr => exact ⟨_, .enter hr⟩

/-- Whatever is known at the beginning of a turn is known of a turn in a run. -/
lemma Scene.Sound.goesOn (h : c.Sound p) (hturn : GoesOn t r m input c c') (hr : r.helps = false) :
    Given p c.supervisor t r m input ∧ c'.supervisor = m.resume t r input := by
  have hsound := h.sound
  cases hturn with
  | @«begins» s s' calls limit k hnext hstep hstate htold =>
    subst hstate htold
    have hnext' : Kernel.Next p Routine.Quiet s.kernel k (.begin t r) :=
      Kernel.next_of_next? hsound.follows hsound.waking hnext
    rw [step?, hnext] at hstep
    cases hstep
    cases hnext' with
    | «begin» ha hbody hidle _ hfollows hwaking hroused =>
      have hdue := hsound.atTurn ha hbody hfollows hwaking hroused
      exact ⟨hsound.given_begin ha hbody hidle hdue, begin_eq_resume _ t hr⟩
  | @resumes s s' calls limit k hnext hstep hstate =>
    subst hstate
    have hnext' : Kernel.Next p Routine.Quiet s.kernel k (.resume t r input) :=
      Kernel.next_of_next? hsound.follows hsound.waking hnext
    rw [step?, hnext] at hstep
    cases hstep
    cases hnext' with
    | resume ha hbody hwaited ho hfollows hwaking hroused =>
      have hdue := hsound.atTurn ha hbody hfollows hwaking hroused
      exact ⟨hsound.given_resume ha hbody hwaited ho hdue, rfl⟩
  | @entered s calls hrequest htask hstate htold =>
    subst htask hstate htold
    obtain ⟨hadded, hon, -⟩ := hsound.added rfl
    exact ⟨{ hsound.stood_added hrequest with
      sound := hadded
      same := rfl
      widens := hon.widens
      outcome := fun x => Kernel.outcome?_add rfl
      others := fun hu => by rw [Kernel.activity?_add, if_neg hu]
      told := fun haw _ => by simp [(Routine.isRequest.quiet hrequest).awaits] at haw },
      begin_eq_resume _ _ hr⟩

/-- What the directory of a supervisor is never changes. -/
lemma Scene.Sound.cwd (h : c.Sound p) (hrun : Run c keys d) : d.supervisor.cwd = c.supervisor.cwd := by
  induction hrun with
  | refl => rfl
  | tail hrun hstep ih =>
    obtain ⟨p₁, hsound, -⟩ := h.run hrun
    obtain ⟨p₂, turn, hstepped, -⟩ := hsound.happens hstep
    exact hstepped.onward.keeps.cwd.trans ih

lemma resume_eq (m : Supervisor) (t : Id) (r : Routine) (input : Outcome Value Failure) :
    m.resume t r input = (m.proceed t r input).1.follow t (m.proceed t r input).2 := rfl

@[simp]
lemma slots_follow (s : Supervisor) (t : Id) (course : Course Routine) :
    (s.follow t course).slots = s.slots := by
  cases course <;> rfl

/-! ## Between turns -/

/-- The task `t` stands at a good place, or it has ended in a way that is fine. -/
def Stays (good : Plan → Supervisor → Routine → Prop) (fine : Outcome Value Failure → Prop)
    (p : Plan) (s : Supervisor) (t : Id) : Prop :=
  (∃ a r, s.kernel.activity? t = some a ∧ a.body = some r ∧ good p s r) ∨
    ∃ o, s.kernel.outcome? t = some o ∧ fine o

variable {good : Plan → Supervisor → Routine → Prop} {fine : Outcome Value Failure → Prop}

/-- Where a task stands when its turn has come. -/
lemma Scene.Sound.good_of_goesOn (h : c.Sound p) (hstays : Stays good fine p c.supervisor t)
    (hturn : GoesOn t r m input c c') : good p c.supervisor r := by
  have hsound := h.sound
  have stands : ∀ {a}, c.supervisor.kernel.activity? t = some a → a.body = some r →
      good p c.supervisor r := fun ha hbody => by
    rcases hstays with ⟨b, r', hb, hbody', hgood⟩ | ⟨o, ho, -⟩
    · cases ha.symm.trans hb
      cases hbody.symm.trans hbody'
      exact hgood
    · cases (hsound.waking.unsettled ha).symm.trans ho
  cases hturn with
  | @«begins» s s' calls limit k hnext =>
    obtain ⟨a, ha, hbody⟩ := (hsound.due hnext rfl).stood
    exact stands ha hbody
  | @resumes s s' calls limit k hnext =>
    obtain ⟨a, ha, hbody⟩ := (hsound.due hnext rfl).stood
    exact stands ha hbody
  | @entered s calls hrequest htask =>
    -- a task that is only now made has stood nowhere
    obtain ⟨hnone, hnone', -⟩ := Kernel.views_of_size_le (k := s.kernel) (Nat.le_of_eq htask.symm)
    rcases hstays with ⟨b, r', hb, -⟩ | ⟨o, ho, -⟩
    · cases hnone'.symm.trans hb
    · cases hnone.symm.trans ho

/-- At the end of its turn a task stands where it goes on, or it has ended as its turn did.  It may
also have been asked to cancel meanwhile. -/
lemma Sound.stays_follow (h : Sound p (some t) s) {course : Course Routine}
    (hwaits : ∀ {r g}, course = .waits r g → good p' (s.follow t course) r)
    (hends : ∀ {o}, course = .ends o → fine o) (hcancelled : fine .cancelled) :
    Stays good fine p' (s.follow t course) t := by
  obtain ⟨a, ha, -⟩ := h.runs t rfl
  cases course with
  | waits r g =>
    obtain ⟨b, hb, hbody, -⟩ := Kernel.exists_activity?_suspend ha r g
    exact .inl ⟨b, r, hb, hbody, hwaits rfl⟩
  | ends o =>
    have hopen : s.kernel.IsOpen t := ⟨Kernel.lt_size_of_activity? ha, h.waking.unsettled ha⟩
    refine .inr ?_
    rw [follow, Kernel.finish_eq]
    cases o with
    | value v =>
      refine ⟨_, Kernel.outcome?_settle_self hopen, ?_⟩
      split
      · exact hcancelled
      · exact hends rfl
    | failure e => exact ⟨_, Kernel.outcome?_settle_self hopen, hends rfl⟩
    | cancelled => exact ⟨_, Kernel.outcome?_settle_self hopen, hends rfl⟩

/-- What the turns of a task keep is kept by every step. -/
lemma Stepped.stays (h : Stepped p p' turn keys s s') (hs : Sound p none s)
    (hturn : ∀ {t a}, turn = some t → s.kernel.activity? t = some a → HasTurn p s s' t a)
    (hstays : Stays good fine p s t) (hhelps : ∀ {r}, good p s r → r.helps = false)
    (hcancelled : fine .cancelled) (hkeeps : ∀ {r}, good p s r → good p' s' r)
    (hgoes : ∀ {r m input}, good p s r → Given p s t r m input → s' = m.resume t r input →
      Stays good fine p' s' t) : Stays good fine p' s' t := by
  rcases hstays with ⟨a, r, ha, hbody, hgood⟩ | ⟨o, ho, hfine⟩
  · by_cases ht : turn = some t
    · rcases (hturn ht ha).given hs ha hbody (hhelps hgood) with
        ⟨-, k, hends, rfl⟩ | ⟨m, input, hgiven, hafter⟩
      · exact .inr ⟨_, hends.self.2.1, hcancelled⟩
      · exact hgoes hgood hgiven hafter
    · obtain ⟨b, hb, hbody', -⟩ := h.onward.kept ht ha
      exact .inl ⟨b, r, hb, hbody'.trans hbody, hkeeps hgood⟩
  · exact .inr ⟨o, h.onward.outcome ho, hfine⟩

/-! ## Who waits for a startup -/

/-- Whoever has to wait for a session waits for the startup in the slot of its key. -/
lemma slot_of_beginAcquiring {project : Project} {x : Text × Id} {g : Id}
    (h : (s.beginAcquiring project).2 = .waits x g) :
    x.1 = project.key s.cwd ∧ (s.beginAcquiring project).1.slots.get? x.1 = some x.2 := by
  have hslot : (s.startupFor project).1.slots.get? (project.key s.cwd) =
      some (s.startupFor project).2 := by
    rw [startupFor_eq]
    cases husable : s.usable? (project.key s.cwd) with
    | some u => exact (Option.filter_eq_some_iff.1 husable).1
    | none => exact get?_fillSlot_self s project
  have hcwd : (s.startupFor project).1.cwd = s.cwd := by
    rw [startupFor_eq]
    split <;> rfl
  rw [beginAcquiring] at h ⊢
  generalize s.startupFor project = r at h hslot hcwd ⊢
  obtain ⟨s₁, u⟩ := r
  dsimp only at h hslot hcwd ⊢
  cases ho : s₁.kernel.outcome? u with
  | some o => simp [ho] at h
  | none =>
    simp only [ho, Progress.waits.injEq] at h ⊢
    obtain ⟨rfl, -⟩ := h
    dsimp only
    rw [hcwd]
    exact ⟨rfl, hslot⟩

/-- A session that is handed out at once came of the startup in the slot. -/
lemma slot_of_beginAcquiring_ends {project : Project} {n : Nat}
    (h : (s.beginAcquiring project).2 = .ends (.value (.session n))) :
    ∃ u, s.slots.get? (project.key s.cwd) = some u ∧ s.sessionOf? u = some n := by
  rw [beginAcquiring, startupFor_eq] at h
  cases husable : s.usable? (project.key s.cwd) with
  | none =>
    have hopen : (s.fillSlot project).kernel.outcome? s.kernel.futures.size = none :=
      outcome?_fillSlot.trans (Kernel.views_of_size_le (Nat.le_refl _)).1
    simp [husable, hopen] at h
  | some u =>
    refine ⟨u, (Option.filter_eq_some_iff.1 husable).1, sessionOf?_eq_some_iff.2 ?_⟩
    cases ho : s.kernel.outcome? u with
    | none => simp [husable, ho] at h
    | some o => simpa [husable, ho] using h

/-- Whoever waited for a startup goes on at once, and with a value only if that came of the startup. -/
lemma resumeAcquiring_ends (s : Supervisor) (caller : Id) (key : Text) (u : Id)
    (input : Outcome Value Failure) :
    ∃ o, s.resumeAcquiring caller key u input = (s, .ends o) ∧ ∀ v, o = .value v → input = o := by
  unfold resumeAcquiring
  split
  · split
    · exact ⟨_, rfl, fun v hv => by cases hv⟩
    · exact ⟨_, rfl, fun v hv => by cases hv⟩
  · exact ⟨_, rfl, fun _ _ => rfl⟩

/-- A turn of a task that starts no daemon. Where the task has to wait for a startup afterwards, this is
the one in the slot of its key. -/
structure Rests (t : Id) (r : Supervisor × Course Routine) : Prop where
  sound : ∃ p, Sound p (some t) r.1
  starts : ∀ {r' g}, r.2 = .waits r' g → r'.starts? = none
  slot : ∀ {r' g key u}, r.2 = .waits r' g → r'.awaits? = some (key, u) →
    r.1.slots.get? key = some u

lemma Sound.rests (h : Sound p (some t) s) {r : Supervisor × Course Routine}
    (hr : Turns p ω (Plain p) s r) : Rests t r where
  sound := ⟨p, h.moves hr.moves⟩
  starts hw := (hr.waits hw).2.starts
  slot hw haw := by simp [(hr.waits hw).2.awaits] at haw

lemma Sound.rests_acquire (h : Sound p (some t) s) (project : Project) (wrap : Text × Id → Routine)
    (next : Supervisor → Outcome Value Failure → Supervisor × Course Routine)
    (hawaits : ∀ x, (wrap x).awaits? = some x) (hstarts : ∀ x, (wrap x).starts? = none)
    (hnext : ∀ o, Turns p ω (Plain p) s (next s o)) :
    Rests t (Progress.andThen (s.beginAcquiring project) wrap next) := by
  obtain ⟨p', hacquired⟩ := h.beginAcquiring project
  have hends := @alive_of_beginAcquiring s project
  have hslot := @slot_of_beginAcquiring s project
  generalize s.beginAcquiring project = r at hacquired hends hslot ⊢
  obtain ⟨s₁, course⟩ := r
  cases course with
  | waits x g =>
    refine ⟨⟨p', hacquired.sound⟩, ?_, ?_⟩
    · rintro _ _ ⟨⟩
      exact hstarts x
    · rintro _ _ key u ⟨⟩ haw
      cases (hawaits x).symm.trans haw
      exact (hslot rfl).2
  | ends o =>
    obtain ⟨rfl, -⟩ := hends rfl
    exact h.rests (hnext o)

lemma Sound.rests_asking (h : Sound p (some t) s) (c : Client) (q : Query) (wrap : Asking → Routine)
    (next : Supervisor → Outcome Value Failure → Supervisor × Course Routine)
    (hawaits : ∀ r x, (wrap (.opening r x.1 x.2)).awaits? = some x)
    (hstarts : ∀ a, (wrap a).starts? = none)
    (hturns : ∀ {s'} {r : Supervisor × Course Asking}, Tidy p s' →
      Turns p .all (Asking.Fits p) s' r → Turns p .all (Plain p) s' (Progress.andThen r wrap next)) :
    Rests t (Progress.andThen (s.beginAsking c q) wrap next) := by
  rw [Supervisor.beginAsking]
  rcases Client.Request.begin_eq c q with hnext | hnext
  · rw [hnext]
    exact h.rests (hturns h.toTidy (turns_pursue h.toTidy needs trivial (allows_all [])))
  · have hlog : Moves p .all s (s.report []) := moves_report []
    have h₁ := h.moves hlog
    rw [hnext, show needs = 3 + 1 from rfl, pursue_session, andThen_assoc]
    exact h₁.rests_acquire _ _ (fun s o => Progress.andThen (onOpened _ 3 s o) wrap next)
      (hawaits _) (fun _ => hstarts _) fun o =>
        hturns h₁.toTidy (turns_onOpened h₁.toTidy _ (allows_all _) 3 o)

/-- Whoever has its turn and starts no daemon waits for no startup afterwards, but for one in its slot. -/
theorem Given.rests (h : Given p s t r m input) (hr : r.starts? = none) :
    Rests t (m.proceed t r input) := by
  by_cases hplain : r.isPlain = true
  · obtain ⟨x, hfits⟩ := h.fits
    exact h.sound.rests (turns_proceed h.sound.toTidy hfits hplain input)
  · cases r with
    | startup | startingUp => cases hr
    | acquire project =>
      exact h.sound.rests_acquire project _ _ (fun _ => rfl) (fun _ => rfl)
        fun _ => .ends (Moves.refl : Moves _ .all _ _) _
    | ask c q =>
      exact h.sound.rests_asking c q _ _ (fun _ _ => rfl) (fun _ => rfl)
        fun h hr => turns_answered h hr
    | errand c q =>
      have hstart : Moves p .all m m.start := moves_start h.sound.toTidy
      exact (h.sound.moves hstart).rests_asking c q _ _ (fun _ _ => rfl) (fun _ => rfl)
        fun h hr => turns_afterAsking h hr
    | _ => exact absurd rfl hplain

end SuggestBridge.Supervisor
