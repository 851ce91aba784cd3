import SuggestBridge.Proofs.Supervisor.CallingOff
import SuggestBridge.Proofs.Supervisor.GivingUp

/-!
# Calls that are called off

A request whose time is over asks the task that calls for it to cancel, and waits for its end.  Until that
task has its turn, anything else may happen; even its reply may arrive.  All that the task still does is to
give its call up (`withdraws_of_forsakes`), so that giving up takes no turns but those that cost nobody else
anything.
-/

namespace SuggestBridge

open SuggestBridge.Task

namespace Supervisor

variable {p p' : Plan} {s s' m : Supervisor} {turn : Option Id} {t u f : Id}
variable {b b' c c' d d' : Scene} {keys more : List Text} {n uid : Nat} {R r : Routine}
variable {input : Outcome Value Failure} {asked : Option Id} {lost : Nat → Nat → Prop}

/-- The task `u` calls over the session `n` and was asked to cancel: it has ended so, or it will in its next
turn. -/
structure Forsaken (s : Supervisor) (n : Nat) (u : Id) : Prop where
  calls : s.CallsOver n u
  off : s.kernel.outcome? u = some .cancelled ∨ s.kernel.CalledOff u

/-- A task that calls is another one than that which has it call. -/
lemma CallsOver.ne {a : Activity Routine} {w : Deadline} {n' : Nat} (h : s.CallsOver n u)
    (ha : s.kernel.activity? t = some a) (hbody : a.body = some R) (htimed : R.timed? = some (n', w))
    (hopen : s.kernel.outcome? t = none) : u ≠ t := by
  rintro rfl
  rcases h with ⟨c, r, hc, hr, hover⟩ | ⟨o, ho, -⟩
  · cases ha.symm.trans hc
    cases hbody.symm.trans hr
    cases R <;> first | (cases hover; done) | cases htimed
  · cases hopen.symm.trans ho

/-! ## The last turn of the task -/

namespace Forsaken

/-- Such a task waits for the reply to its call, if it has a turn at all. -/
lemma awaits {a : Activity Routine} (h : s.Forsaken n u) (hs : Sound p none s) (hall : s.Attentive)
    (ha : s.kernel.activity? u = some a) (hbody : a.body = some r) (hwaits : a.waitingFor ≠ none) :
    ∃ link uid f, r = .calling n (.awaiting uid f) ∧ On s.opened link n := by
  have hover : r.callsOver? = some n := by
    rcases h.calls with ⟨c, r', hc, hr, hover⟩ | ⟨o, ho, -⟩
    · cases ha.symm.trans hc
      cases hbody.symm.trans hr
      exact hover
    · cases (hs.waking.unsettled ha).symm.trans ho
  cases r with
  | call n' method args => exact absurd ((hall ha hbody).idle rfl) hwaits
  | calling n' st =>
    cases hover
    obtain ⟨link, uid, f, rfl, -, hon, -⟩ := (hall ha hbody).call rfl
    exact ⟨link, uid, f, rfl, hon⟩
  | _ => cases hover

lemma calledOff {a : Activity Routine} (h : s.Forsaken n u) (hs : Sound p none s)
    (ha : s.kernel.activity? u = some a) : s.kernel.CalledOff u :=
  h.off.resolve_left fun ho => by cases (hs.waking.unsettled ha).symm.trans ho

/-- Its turn is its end. -/
lemma ends {a : Activity Routine} (h : s.Forsaken n u) (hs : Sound p none s) (hall : s.Attentive)
    (ha : s.kernel.activity? u = some a) (hturn : HasTurn p s s' u a) :
    s'.kernel.outcome? u = some .cancelled := by
  refine hturn.cancelled hs ha (h.calledOff hs ha) fun hbody hwaits _ hgiven => ?_
  obtain ⟨link, uid, f, rfl, hon⟩ := h.awaits hs hall ha hbody hwaits
  obtain ⟨s₁, -, hproceed⟩ := proceed_cancelled hgiven.sound.toTidy hon u uid f
  exact ⟨rfl, s₁, hproceed⟩

/-- A task that was asked to cancel stays so, or it ends so. -/
lemma step (h : c.supervisor.Forsaken n u) (hs : c.Sound p) (hall : c.supervisor.Attentive)
    (hstep : Happens c keys c') : c'.supervisor.Forsaken n u := by
  obtain ⟨p', turn, hstepped, -, hturn⟩ := hs.happens hstep
  refine ⟨hstepped.callsOver hs.sound hturn h.calls, ?_⟩
  rcases h.off with ho | hoff
  · exact .inl (hstepped.onward.outcome ho)
  · by_cases ht : turn = some u
    · have hactive : ∃ a, c.supervisor.kernel.activity? u = some a := by
        cases hoff with
        | must ha | waits ha => exact ⟨_, ha⟩
      obtain ⟨a, ha⟩ := hactive
      exact .inl (h.ends hs.sound hall ha (hturn ht ha))
    · exact .inr (hstepped.onward.calledOff ht hoff)

lemma run (h : c.supervisor.Forsaken n u) (hs : c.Sound p) (hall : c.supervisor.Attentive)
    (hrun : Run c keys d) : d.supervisor.Forsaken n u := by
  induction hrun with
  | refl => exact h
  | tail hrun hstep ih =>
    obtain ⟨p₁, hs₁, hall₁⟩ := hs.attentive hall hrun
    exact ih.step hs₁ hall₁ hstep

/-- A turn of such a task is one in which it gives its call up. -/
lemma withdraws (h : c.supervisor.Forsaken n u) (hs : c.Sound p) (hall : c.supervisor.Attentive)
    (hturn : GoesOn u r m input c c') : ∃ lost, Withdraws u c c' none lost := by
  have hactive : ∃ a, c.supervisor.kernel.activity? u = some a := by
    rcases h.calls with ⟨a, _, ha, -⟩ | ⟨o, ho, -⟩
    · exact ⟨a, ha⟩
    · cases hturn with
      | «begins» hnext | resumes hnext =>
        obtain ⟨a, ha, -⟩ := (hs.sound.due hnext rfl).stood
        exact ⟨a, ha⟩
      | @entered s _ _ htask =>
        -- a task that is only now made has not ended
        obtain ⟨hnone, -⟩ := Kernel.views_of_size_le (k := s.kernel) (Nat.le_of_eq htask.symm)
        cases hnone.symm.trans ho
  obtain ⟨a, ha⟩ := hactive
  obtain ⟨calls, limit, k, s, s', rfl, rfl, rfl, hnext, hstep, rfl, hbody, hwaits⟩ :=
    hturn.calledOff hs ha (h.calledOff hs.sound ha)
  obtain ⟨link, uid, f, rfl, -⟩ := h.awaits hs.sound hall ha hbody hwaits
  exact ⟨_, .cancelled (.resumes hnext hstep rfl)⟩

end Forsaken

/-! ## Whom a request forsakes -/

/-- A request that gives up and waits on does so for a task that it has asked to cancel. -/
lemma Withdraws.forsakes (h : Withdraws t b b' asked lost) (hs : b.Sound p)
    (hall : b.supervisor.Attentive) {a : Activity Routine} {w : Deadline}
    (ha : b'.supervisor.kernel.activity? t = some a) (hbody : a.body = some R)
    (htimed : R.timed? = some (n, w)) : b'.supervisor.Forsaken n w.task := by
  obtain ⟨keys, hstep⟩ := h.happens
  obtain ⟨p', hs', hall'⟩ := hs.attentive hall (.tail .refl hstep)
  have hopen := hs'.sound.waking.unsettled ha
  have hcalls := (hall' ha hbody).timed htimed
  have hne := hcalls.ne ha hbody htimed hopen
  refine ⟨hcalls, .inr ?_⟩
  clear hs' hall' hcalls
  generalize hafter' : b'.supervisor = s' at ha hopen
  -- in the other cases the task has ended, and waits for nothing
  cases h with
  | @abandons r session w₀ w' m input k g hturn hwaits =>
    obtain ⟨hgiven, hafter⟩ := hs.goesOn hturn rfl
    obtain ⟨a₀, ha₀, hbody₀⟩ := hturn.stood hs rfl
    obtain rfl := hafter'.symm.trans (hafter.trans (resume_eq m t _ input))
    rw [proceed_timed hwaits] at ha hopen ⊢
    obtain ⟨r', g', heq, hr', -⟩ := waits_of_follow ha hopen
    cases heq
    cases hbody.symm.trans hr'
    cases htimed
    have htask : w.task = w₀.task := Kernel.task_resume (congrArg Prod.snd hwaits)
    refine Kernel.CalledOff.suspend ?_ hne _ _
    rcases (hall ha₀ hbody₀).timed rfl with ⟨c, r', hc, hr, hover⟩ | ⟨o, ho, -⟩
    · refine Kernel.calledOff_resume hwaits ((hgiven.others (htask ▸ hne)).trans hc) fun hg => ?_
      obtain ⟨link, uid, -, hattends⟩ := (hall hc hr).calling hc hr hover hg
      exact hgiven.widens.leaf hattends.leaf
    · have hdone := Kernel.isDone_eq_true_iff.2 ⟨o, (hgiven.outcome _).trans ho⟩
      cases (Kernel.isDone_of_resume hwaits).symm.trans hdone
  | @hurries R₀ r₀ r session m input method args timeout log hturn hopens hnext hshort =>
    have hhelps : R₀.helps = false := by cases hopens <;> rfl
    obtain ⟨-, hafter⟩ := hs.goesOn hturn hhelps
    obtain ⟨k, w', g, hbegin, hproceed⟩ := hopens.begins hnext
    obtain rfl := hafter'.symm.trans (hafter.trans (resume_eq m t _ input))
    rw [hproceed] at ha hopen ⊢
    obtain ⟨r', g', heq, hr', -⟩ := waits_of_follow ha hopen
    cases heq
    cases hbody.symm.trans hr'
    cases htimed
    exact (Kernel.calledOff_begin hbegin hshort).suspend hne _ _
  | stillborn _ hstate _ _ hended =>
    subst hstate
    subst hafter'
    exact absurd hopen hended
  | @cancelled n state m hturn =>
    obtain ⟨hgiven, hafter⟩ := hs.goesOn hturn rfl
    obtain ⟨a₀, ha₀, hbody₀⟩ := hturn.stood hs rfl
    obtain ⟨link, uid, f, rfl, -, hon, -⟩ := (hall ha₀ hbody₀).call rfl
    have hopened : m.opened = b.supervisor.opened := by rw [hgiven.same]
    obtain ⟨s₁, -, hproceed⟩ := proceed_cancelled hgiven.sound.toTidy (hopened ▸ hon) t uid f
    obtain rfl := hafter'.symm.trans (hafter.trans (resume_eq m t _ .cancelled))
    rw [hproceed] at ha hopen
    obtain ⟨_, _, hno, -⟩ := waits_of_follow ha hopen
    cases hno
  | @unsent n method args m s input message hturn hfails =>
    obtain ⟨-, hafter⟩ := hs.goesOn hturn rfl
    obtain rfl := hafter'.symm.trans (hafter.trans (resume_eq m t _ input))
    rw [proceed_beginCall hfails] at ha hopen
    obtain ⟨_, _, hno, -⟩ := waits_of_follow ha hopen
    cases hno
  | @ends R₀ r session reply m input hturn hhears hforgoes =>
    have hhelps : R₀.helps = false := by cases hhears <;> rfl
    obtain ⟨-, hafter⟩ := hs.goesOn hturn hhelps
    obtain ⟨s₁, log, -, hproceed⟩ := hhears.forgoes hforgoes
    obtain rfl := hafter'.symm.trans (hafter.trans (resume_eq m t _ input))
    rw [hproceed] at ha hopen
    obtain ⟨_, _, hno, -⟩ := waits_of_follow ha hopen
    cases hno

/-- Once a request has given up, the task that calls for it ends without a reply, however late its turn
comes, and that turn is again one that costs nobody else anything. -/
theorem withdraws_of_forsakes {settings : Settings} {cwd : Text} {scripts : List Daemon.Script}
    (hrun : Run (Scene.fresh settings cwd scripts) keys b) (h : Withdraws t b b' asked lost)
    {a : Activity Routine} {w : Deadline} (ha : b'.supervisor.kernel.activity? t = some a)
    (hbody : a.body = some R) (htimed : R.timed? = some (n, w)) (hlater : Run b' more d) :
    (∀ o, d.supervisor.kernel.outcome? w.task = some o → o = .cancelled) ∧
      ∀ {r m input d'}, GoesOn w.task r m input d d' → ∃ lost', Withdraws w.task d d' none lost' := by
  obtain ⟨p, hs, hall⟩ := (Scene.sound_fresh settings cwd scripts).attentive
    (Scene.attentive_fresh settings cwd scripts) hrun
  obtain ⟨more', hstep⟩ := h.happens
  obtain ⟨p', hs', hall'⟩ := hs.attentive hall (.tail .refl hstep)
  have hforsaken := (h.forsakes hs hall ha hbody htimed).run hs' hall' hlater
  obtain ⟨p₁, hs₁, hall₁⟩ := hs'.attentive hall' hlater
  refine ⟨fun o ho => ?_, fun hturn => hforsaken.withdraws hs₁ hall₁ hturn⟩
  rcases hforsaken.off with hcancelled | hoff
  · cases ho.symm.trans hcancelled
    rfl
  · cases hoff with
    | must ha | waits ha => cases (hs₁.sound.waking.unsettled ha).symm.trans ho

end Supervisor

end SuggestBridge
