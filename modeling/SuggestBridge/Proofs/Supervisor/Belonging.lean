import SuggestBridge.Proofs.Supervisor.Sharing

/-!
# Whose a process is

A startup has the process that it started as long as it waits, and if it ends well then it has the
process of its session.  No two startups that hold slots ever have the same process, however long ago
one of them had it.  The invariant is that no two of them have the same process at the same time
(`Sole`).  It is kept since whoever has a process after a step either had it before or started it in
the step, and then its number is new (`Stepped.owns_back`).
-/

namespace SuggestBridge.Supervisor

open SuggestBridge.Task

variable {p p' : Plan} {ω : Warrant} {s s' : Supervisor} {k : Machine} {running turn : Option Id}
variable {t u v : Id} {pid : Nat} {c d : Scene} {keys : List Text}

/-- A startup has a process. -/
inductive Owns (s : Supervisor) (u : Id) (pid : Nat) : Prop where
  /-- It has started the process and has not ended. -/
  | starting {a : Activity Routine} {r : Routine} (activity : s.kernel.activity? u = some a)
      (body : a.body = some r) (child : r.child? = some pid)
  /-- It has ended with a session. -/
  | started {n : Nat} {x : Session} (session : s.sessionOf? u = some n)
      (opened : s.opened[n]? = some x) (process : x.pid = pid)

lemma Sound.lt_of_owns (h : Sound p running s) (hu : s.Owns u pid) : pid < firstPid + s.attempts := by
  cases hu with
  | starting ha hr hchild => exact h.pid_lt ((h.fits ha hr).child hchild)
  | started _ hx hpid => exact hpid ▸ h.pid_lt (h.opened hx).2

/-- A task that has not ended has what it stands for. -/
lemma Owns.child {a : Activity Routine} (h : s.Owns u pid) (ha : s.kernel.activity? u = some a)
    (hopen : s.kernel.outcome? u = none) : ∃ r, a.body = some r ∧ r.child? = some pid := by
  cases h with
  | starting hb hr hchild =>
    cases ha.symm.trans hb
    exact ⟨_, hr, hchild⟩
  | started hsession _ _ => cases hopen.symm.trans (sessionOf?_eq_some_iff.1 hsession)

/-- A task that has ended has what its session has. -/
lemma Owns.session {o : Outcome Value Failure} (h : s.Owns u pid)
    (ho : s.kernel.outcome? u = some o) (hidle : s.kernel.activity? u = none) :
    ∃ n x, o = .value (.session n) ∧ s.opened[n]? = some x ∧ x.pid = pid := by
  cases h with
  | starting ha _ _ => cases hidle.symm.trans ha
  | started hsession hx hpid =>
    exact ⟨_, _, Option.some.inj (ho.symm.trans (sessionOf?_eq_some_iff.1 hsession)), hx, hpid⟩

/-! ## Turns -/

/-- A startup that had its turn has the process that it started. -/
lemma StartupTurns.owns {key : Text} {project : Project} {child : Option Nat}
    {r : Supervisor × Course Startup} (hr : StartupTurns p ω key child s r) (h : Sound p (some t) s)
    (hafter : ((within (.startingUp project) r).1.follow t
      (within (.startingUp project) r).2).kernel.Waking none)
    (hown : ((within (.startingUp project) r).1.follow t
      (within (.startingUp project) r).2).Owns t pid) : child = some pid := by
  have hsound := h.moves hr.moves
  obtain ⟨s', course⟩ := r
  obtain ⟨a, ha, -⟩ := hsound.runs t rfl
  cases course with
  | waits state future =>
    obtain ⟨b, hb, hbody, -⟩ := Kernel.exists_activity?_suspend ha (.startingUp project state) future
    obtain ⟨r, hr', hchild⟩ := hown.child hb (hafter.unsettled hb)
    cases hbody.symm.trans hr'
    exact (hr.place rfl).trans hchild
  | ends o =>
    obtain ⟨o', ho', -, -, hends⟩ := hsound.follows.finish hsound.waking ha o
    obtain ⟨-, hsome, hgone⟩ := hends.self
    obtain ⟨n, x, rfl, hx, hpid⟩ := hown.session hsome hgone
    rcases ho' with rfl | heq
    · obtain ⟨m, y, hm, hy, -, hchild⟩ := hr.session rfl
      cases hm
      cases hx.symm.trans hy
      exact hchild.trans (congrArg some hpid)
    · cases heq

/-- A startup keeps its process in its turn, or starts a new one. -/
lemma AtTurn.owns {r : Routine} (hdue : AtTurn p s k t r) (hstarts : r.starts? ≠ none)
    (input : Outcome Value Failure)
    (hafter : ((proceed { s with kernel := k } t r input).1.follow t
      (proceed { s with kernel := k } t r input).2).kernel.Waking none)
    (hown : ((proceed { s with kernel := k } t r input).1.follow t
      (proceed { s with kernel := k } t r input).2).Owns t pid) :
    r.child? = some pid ∨ pid = firstPid + s.attempts := by
  have h := hdue.sound
  obtain ⟨x, hfits⟩ := hdue.fits
  cases r with
  | startup project =>
    obtain ⟨child, s', hlaunched, hturns⟩ :=
      turns_beginStartup (ω := .all) h.toTidy project h.unowned_next
    exact .inr (hlaunched.child (hturns.owns (h.launched hlaunched) hafter hown))
  | startingUp project state =>
    have hstate : state.Fits p { s with kernel := k } :=
      ⟨hfits.refs, hfits.child rfl, hdue.unowned rfl, hdue.helps nofun⟩
    have hturns : StartupTurns p .all _ (some state.pid) _ _ :=
      turns_resumeStartup h.toTidy project hstate input
    exact .inl (hturns.owns h hafter hown)
  | _ => exact absurd rfl hstarts

/-! ## Steps -/

/-- Whoever has a process had it before, or has started it in its turn. -/
lemma Stepped.owns_back (h : Stepped p p' turn keys s s') (hs : Sound p none s)
    (hturn : ∀ {t a}, turn = some t → s.kernel.activity? t = some a → HasTurn p s s' t a)
    (hmark : p'.mark? v ≠ none) (hown : s'.Owns v pid) :
    p.mark? v ≠ none ∧ (s.Owns v pid ∨ turn = some v ∧ pid = firstPid + s.attempts) := by
  have hwaking := h.sound.waking
  by_cases hnew : p.mark? v = none
  · have hne : turn ≠ some v := fun ht => hmark ((h.planned ht).trans hnew)
    obtain ⟨b, r, hb, hbody, hnone⟩ := h.onward.newborn hne hnew hmark
    obtain ⟨r', hr', hchild⟩ := hown.child hb (hwaking.unsettled hb)
    cases hbody.symm.trans hr'
    cases hnone.symm.trans hchild
  refine ⟨hnew, ?_⟩
  cases hdone : s.kernel.isDone v with
  | true =>
    obtain ⟨o, ho⟩ := Kernel.isDone_eq_true_iff.1 hdone
    have ho' := h.onward.outcome ho
    have hidle : s'.kernel.activity? v = none := by
      by_contra hne
      obtain ⟨b, hb⟩ := Option.ne_none_iff_exists'.1 hne
      cases (hwaking.unsettled hb).symm.trans ho'
    obtain ⟨n, y, rfl, hy, hpid⟩ := hown.session ho' hidle
    obtain ⟨key, hkey⟩ := Option.ne_none_iff_exists'.1 hnew
    obtain ⟨m, x, hm, hx, -⟩ := hs.ended hkey ho
    cases hm
    obtain ⟨y', hy', -, hsame, -⟩ := h.onward.keeps.opened hx
    cases hy.symm.trans hy'
    exact .inl (.started (sessionOf?_eq_some_iff.2 ho) hx (hsame.symm.trans hpid))
  | false =>
    obtain ⟨a, ha⟩ := hs.active hnew hdone
    by_cases ht : turn = some v
    swap
    · obtain ⟨b, hb, hbody, -⟩ := h.onward.kept ht ha
      obtain ⟨r, hr, hchild⟩ := hown.child hb (hwaking.unsettled hb)
      exact .inl (.starting ha (hbody.symm.trans hr) hchild)
    have hstarts : ∀ {r}, a.body = some r → r.starts? ≠ none := fun hbody hnone =>
      hnew ((hs.fits ha hbody).mark.trans (by rw [hnone]; rfl))
    cases hturn ht ha with
    | stillborn _ _ hends hafter =>
      subst hafter
      have ho := hends.self.2.1
      cases hown with
      | starting hb _ _ => cases (hwaking.unsettled hb).symm.trans ho
      | started hsession _ _ => cases ho.symm.trans (sessionOf?_eq_some_iff.1 hsession)
    | @«begins» k r hbody _ _ hdue hafter =>
      have hafter' : s' = (proceed { s with kernel := k } v r (.value .unit)).1.follow v
          (proceed { s with kernel := k } v r (.value .unit)).2 := by
        cases r with
        | listen n => exact absurd rfl (hstarts hbody)
        | _ => exact hafter
      subst hafter'
      exact (hdue.owns (hstarts hbody) _ hwaking hown).imp (.starting ha hbody) (⟨ht, ·⟩)
    | resumes hbody _ _ hdue hafter =>
      subst hafter
      exact (hdue.owns (hstarts hbody) _ hwaking hown).imp (.starting ha hbody) (⟨ht, ·⟩)

/-! ## Runs -/

/-- No two startups have the same process. -/
def Sole (p : Plan) (s : Supervisor) : Prop :=
  ∀ {u v pid}, p.mark? u ≠ none → p.mark? v ≠ none → s.Owns u pid → s.Owns v pid → u = v

lemma Stepped.sole (h : Stepped p p' turn keys s s') (hs : Sound p none s)
    (hturn : ∀ {t a}, turn = some t → s.kernel.activity? t = some a → HasTurn p s s' t a)
    (hsole : Sole p s) : Sole p' s' := by
  have hold : ∀ {u}, s.Owns u (firstPid + s.attempts) → False := fun hu =>
    absurd (hs.lt_of_owns hu) (Nat.lt_irrefl _)
  intro u v pid hu hv hown hown'
  obtain ⟨hu, hbefore⟩ := h.owns_back hs hturn hu hown
  obtain ⟨hv, hbefore'⟩ := h.owns_back hs hturn hv hown'
  rcases hbefore with hbefore | ⟨hself, rfl⟩
  · rcases hbefore' with hbefore' | ⟨-, rfl⟩
    · exact hsole hu hv hbefore hbefore'
    · exact (hold hbefore).elim
  · rcases hbefore' with hbefore' | ⟨hself', -⟩
    · exact (hold hbefore').elim
    · exact Option.some.inj (hself.symm.trans hself')

/-- Whoever has a process that is not new had it before. -/
lemma Scene.Sound.owns_back (h : c.Sound p) (hsole : Sole p c.supervisor) (hrun : Run c keys d) :
    ∃ p', d.Sound p' ∧ Sole p' d.supervisor ∧ p.Extends p' c.supervisor.kernel.futures.size ∧
      c.supervisor.kernel.futures.size ≤ d.supervisor.kernel.futures.size ∧
      c.supervisor.attempts ≤ d.supervisor.attempts ∧
      ∀ {v pid}, p'.mark? v ≠ none → d.supervisor.Owns v pid →
        pid < firstPid + c.supervisor.attempts → p.mark? v ≠ none ∧ c.supervisor.Owns v pid := by
  induction hrun with
  | refl => exact ⟨p, h, hsole, .refl p _, Nat.le_refl _, Nat.le_refl _, fun hv hown _ => ⟨hv, hown⟩⟩
  | tail _ hstep ih =>
    obtain ⟨p₁, hsound, hsole₁, hplan, hsize, hattempts, hback⟩ := ih
    obtain ⟨p₂, turn, hstepped, hsound₂, hturn⟩ := hsound.happens hstep
    refine ⟨p₂, hsound₂, hstepped.sole hsound.sound hturn hsole₁,
      hplan.trans hstepped.onward.plan hsize, Nat.le_trans hsize hstepped.onward.size,
      Nat.le_trans hattempts (hstepped.attempts ▸ Nat.le_add_right _ _), fun hv hown hlt => ?_⟩
    obtain ⟨hv, hown | ⟨-, rfl⟩⟩ := hstepped.owns_back hsound.sound hturn hv hown
    · exact hback hv hown hlt
    · exact absurd (Nat.lt_of_add_lt_add_left hlt) (Nat.not_lt.2 hattempts)

/-- The process of a startup that has held a slot is never that of another one. -/
lemma Run.ne_of_owns {settings : Settings} {cwd : Text} {scripts : List Daemon.Script}
    {b : Scene} {before more rest : List Text} {key key' : Text}
    (hrun : Run (Scene.fresh settings cwd scripts) before b)
    (hu : b.supervisor.slots.get? key = some u) (hmore : Run b more c)
    (hown : c.supervisor.Owns u pid) (hrest : Run c rest d)
    (hv : d.supervisor.slots.get? key' = some v) (hown' : d.supervisor.Owns v pid) : u = v := by
  obtain ⟨p₀, hsound₀, hsole₀, -⟩ := (Scene.sound_fresh settings cwd scripts).owns_back
    (fun hu => absurd rfl hu) hrun
  obtain ⟨p₁, hsound₁, hsole₁, hplan₁, -⟩ := hsound₀.owns_back hsole₀ hmore
  obtain ⟨p₂, hsound₂, -, -, -, -, hback⟩ := hsound₁.owns_back hsole₁ hrest
  have hmark := hsound₀.sound.slots hu
  have hmark₁ : p₁.mark? u = some key :=
    (hplan₁.mark u (hsound₀.sound.follows.marks (by simp [hmark]))).trans hmark
  obtain ⟨hmark₂, hbefore⟩ := hback (by simp [hsound₂.sound.slots hv]) hown'
    (hsound₁.sound.lt_of_owns hown)
  exact hsole₁ (by simp [hmark₁]) hmark₂ hown hbefore

end SuggestBridge.Supervisor
