import SuggestBridge.Proofs.Supervisor.Tracking
import SuggestBridge.Proofs.Task.CallingOff

/-!
# The last turn of a task that is called off

Whatever happens until the turn of a task that is called off comes, the task then learns that it was asked
to cancel, and nothing else (`GoesOn.calledOff`).  If it does nothing more in that case, this turn is its
end (`HasTurn.cancelled`).
-/

namespace SuggestBridge.Supervisor

open SuggestBridge.Task

variable {p p' : Plan} {s s' m : Supervisor} {turn : Option Id} {t : Id} {c c' : Scene} {r : Routine}
variable {input : Outcome Value Failure}

lemma Onward.calledOff (h : Onward p p' turn s s') (ht : turn ≠ some t) (hoff : s.kernel.CalledOff t) :
    s'.kernel.CalledOff t :=
  hoff.of_kept h.outcome
    (fun ha => by
      obtain ⟨b, hb, -, hwaiting, -⟩ := h.kept ht ha
      exact ⟨b, hb, hwaiting⟩)
    (h.firm ht)

/-- A turn that comes to its end with a cancellation. -/
lemma Given.cancelled (h : Given p s t r m input) (hstarts : r.starts? = none)
    (hproceed : m.proceed t r input = (s', .ends .cancelled)) :
    (m.resume t r input).kernel.outcome? t = some .cancelled := by
  obtain ⟨p₁, hsound⟩ := (h.rests hstarts).sound
  rw [hproceed] at hsound
  rw [resume_eq, hproceed]
  have hstays : Stays (fun _ _ _ => False) (· = .cancelled) p₁ (s'.follow t (.ends .cancelled)) t :=
    hsound.stays_follow nofun (fun ho => by cases ho; rfl) rfl
  obtain ⟨-, -, -, -, hno⟩ | ⟨o, ho, rfl⟩ := hstays
  · exact hno.elim
  · exact ho

/-- The turn of a task that is called off is its end, if the task does nothing more once it is told. -/
lemma HasTurn.cancelled {a : Activity Routine} (h : HasTurn p s s' t a) (hs : Sound p none s)
    (ha : s.kernel.activity? t = some a) (hoff : s.kernel.CalledOff t)
    (hquits : ∀ {r k}, a.body = some r → a.waitingFor ≠ none → Kernel.Roused s.kernel k t →
      Given p s t r { s with kernel := k } .cancelled →
        r.starts? = none ∧ ∃ s₁, proceed { s with kernel := k } t r .cancelled = (s₁, .ends .cancelled)) :
    s'.kernel.outcome? t = some .cancelled := by
  cases h with
  | stillborn _ _ hends hafter =>
    subst hafter
    exact hends.self.2.1
  | «begins» _ hidle hmust => cases (hoff.must_of_idle ha hidle).symm.trans hmust
  | @resumes k r g o hbody hwaited ho hdue hafter =>
    have hgiven := hs.given_resume ha hbody hwaited ho hdue
    rw [hoff.told ha hwaited ho] at hgiven hafter
    obtain ⟨hstarts, s₁, hproceed⟩ := hquits hbody (by simp [hwaited]) hdue.roused hgiven
    rw [hafter]
    exact hgiven.cancelled hstarts hproceed

/-- A task that is called off is told of nothing else in its turn, which it has waited for. -/
lemma GoesOn.calledOff {a : Activity Routine} (h : GoesOn t r m input c c') (hs : c.Sound p)
    (ha : c.supervisor.kernel.activity? t = some a) (hoff : c.supervisor.kernel.CalledOff t) :
    ∃ calls limit k s s', c = ⟨s, calls⟩ ∧ c' = ⟨s', calls⟩ ∧ m = { s with kernel := k } ∧
      s.kernel.next? limit = some (k, .resume t r .cancelled) ∧ s.step? limit = some s' ∧
      input = .cancelled ∧ a.body = some r ∧ a.waitingFor ≠ none := by
  cases h with
  | @«begins» s s' calls limit k hnext =>
    have hnext' : Kernel.Next p Routine.Quiet s.kernel k (.begin t r) :=
      Kernel.next_of_next? hs.sound.follows hs.sound.waking hnext
    cases hnext' with
    | «begin» ha' _ hidle hmust =>
      cases (hoff.must_of_idle ha' hidle).symm.trans hmust
  | @resumes s s' calls limit k hnext hstep hstate =>
    have hnext' : Kernel.Next p Routine.Quiet s.kernel k (.resume t r input) :=
      Kernel.next_of_next? hs.sound.follows hs.sound.waking hnext
    generalize hinput : input = input' at hnext'
    cases hnext' with
    | @resume _ g a' _ o ha' hbody hwaited ho =>
      obtain rfl := hinput.trans (hoff.told ha' hwaited ho)
      cases ha.symm.trans ha'
      exact ⟨calls, limit, k, s, s', rfl, rfl, hstate, hnext, hstep, hinput.symm, hbody,
        by simp [hwaited]⟩
  | @entered s calls _ htask =>
    -- a task that is only now made was asked nothing
    exact absurd (Kernel.lt_size_of_activity? ha) (htask ▸ Nat.lt_irrefl _)

end SuggestBridge.Supervisor
