import SuggestBridge.Proofs.Supervisor.Withdrawal

/-!
# Giving up costs nobody else anything

When a request gives up, as its time is over or as its call cannot be encoded, whoever else uses the same
session has what it had (`givesUpAlone_of_withdraws`).  The slots, the child processes and the sessions are
as they were, and the session can be used by later requests.  All other calls go on to wait for the replies
with their own numbers.

The reply to a call that was given up may still come.  By then nobody waits for it: the call has left the
list of its connection, or its future is settled (`Withdraws.past`), and no later call has its number.  So
the reply settles nothing.
-/

namespace SuggestBridge

open SuggestBridge.Task

namespace Supervisor

variable {p p' : Plan} {s s' m : Supervisor} {k : Machine} {t u f g x : Id}
variable {b b' c c' d d' : Scene} {keys : List Text} {n link uid : Nat} {r : Routine}
variable {input o : Outcome Value Failure} {asked : Option Id} {lost : Nat → Nat → Prop}

/-! ## Who calls -/

lemma On.unique {opened : Array Session} {link' : Nat} (h : On opened link n) (h' : On opened link' n) :
    link' = link := by
  obtain ⟨y, hy, rfl⟩ := h
  obtain ⟨z, hz, rfl⟩ := h'
  cases hy.symm.trans hz
  rfl

lemma Calling.attends (h : s.Calling u link uid f) (hall : s.Attentive) :
    s.Attends link uid f ∧ ∃ a, s.kernel.activity? u = some a ∧ a.waitingFor = some f := by
  cases h with
  | intro ha hbody hcall hon =>
    obtain ⟨link', uid', f', hst, hwaits, hon', hattends⟩ := (hall ha hbody).call hcall
    cases hst
    exact ⟨hon.unique hon' ▸ hattends, _, ha, hwaits⟩

/-- Where a task goes on is where it stood, unless it is made in this very step. -/
lemma GoesOn.body (hturn : GoesOn t r m input b b') (hs : b.Sound p) {a : Activity Routine}
    (ha : b.supervisor.kernel.activity? t = some a) : a.body = some r := by
  have hstood : ∀ {a'}, b.supervisor.kernel.activity? t = some a' → a'.body = some r → a.body = some r :=
    fun ha' hbody => by cases ha.symm.trans ha'; exact hbody
  cases hturn with
  | «begins» hnext | resumes hnext =>
    obtain ⟨a', ha', hbody⟩ := (hs.sound.due hnext rfl).stood
    exact hstood ha' hbody
  | entered _ htask => exact absurd (Kernel.lt_size_of_activity? ha) (htask ▸ Nat.lt_irrefl _)

/-- Whoever has its turn is no future that nobody works for. -/
lemma GoesOn.ne (hturn : GoesOn t r m input b b') (hs : b.Sound p)
    (hlt : x < b.supervisor.kernel.futures.size) (hplain : b.supervisor.kernel.activity? x = none) :
    x ≠ t := by
  rintro rfl
  cases hturn with
  | «begins» hnext | resumes hnext =>
    obtain ⟨a, ha, -⟩ := (hs.sound.due hnext rfl).stood
    cases hplain.symm.trans ha
  | entered _ htask => exact absurd hlt (htask ▸ Nat.lt_irrefl _)

namespace Withdraws

lemma happens (h : Withdraws t b b' asked lost) : ∃ keys, Happens b keys b' := by
  cases h with
  | abandons hturn | hurries hturn | cancelled hturn | unsent hturn | ends hturn => exact hturn.happens
  | stillborn hnext hstate =>
    subst hstate
    exact ⟨_, .job (by rw [step?, hnext])⟩

/-- A call of the task itself, or of the one that is asked to cancel, is given up. -/
lemma lost_of_calling (h : Withdraws t b b' asked lost) (hs : b.Sound p) (hu : u = t ∨ asked = some u)
    (hcalling : b.supervisor.Calling u link uid f) : lost link uid := by
  obtain ⟨ha, hbody, hcall, hon⟩ := hcalling
  have hno : ∀ {R m input}, GoesOn t R m input b b' → R.call? = none → asked = none → lost link uid := by
    rintro R m input hturn hR rfl
    obtain rfl : u = t := hu.resolve_right (by simp)
    cases (hturn.body hs ha).symm.trans hbody
    cases hR.symm.trans hcall
  cases h with
  | abandons hturn =>
    rcases hu with rfl | hu
    · cases (hturn.body hs ha).symm.trans hbody
      cases hcall
    · cases hu
      exact ⟨f, .intro ha hbody hcall hon⟩
  | hurries hturn hopens => exact hno hturn (by cases hopens <;> rfl) rfl
  | stillborn _ _ ha' hbody' =>
    obtain rfl : u = t := hu.resolve_right (by simp)
    cases ha.symm.trans ha'
    cases hbody.symm.trans hbody'
    cases hcall
  | cancelled =>
    obtain rfl : u = t := hu.resolve_right (by simp)
    exact ⟨f, .intro ha hbody hcall hon⟩
  | unsent hturn => exact hno hturn rfl rfl
  | ends =>
    obtain rfl : u = t := hu.resolve_right (by simp)
    exact .inl ⟨f, .intro ha hbody hcall hon⟩

/-- A future that nobody works for, that is not settled, and that is not the future of a call that is given
up. -/
lemma others (h : Withdraws t b b' asked lost) (hs : b.Sound p) (hall : b.supervisor.Attentive)
    (hlt : x < b.supervisor.kernel.futures.size) (hplain : b.supervisor.kernel.activity? x = none)
    (hopen : b.supervisor.kernel.outcome? x = none)
    (hcall : ∀ {u link uid}, lost link uid → ¬b.supervisor.Calling u link uid x) :
    b.supervisor.Others t asked lost x := by
  refine ⟨hlt, ?_, ?_, hcall⟩
  · cases h with
    | abandons hturn | hurries hturn | cancelled hturn | unsent hturn | ends hturn =>
      exact hturn.ne hs hlt hplain
    | stillborn _ _ ha =>
      rintro rfl
      cases hplain.symm.trans ha
  · cases h with
    | abandons hturn =>
      rintro heq
      obtain rfl := Option.some.inj heq
      obtain ⟨a, ha, hbody⟩ := hturn.stood hs rfl
      rcases (hall ha hbody).timed rfl with ⟨c, -, hc, -⟩ | ⟨o, ho, -⟩
      · cases hplain.symm.trans hc
      · cases hopen.symm.trans ho
    | _ => simp

/-- Nothing becomes of a startup that is in a slot. -/
lemma startups (h : Withdraws t b b' asked lost) (hs : b.Sound p) (hall : b.supervisor.Attentive)
    {key : Text} (hslot : b.supervisor.slots.get? key = some u) : b.supervisor.Others t asked lost u := by
  have hmark := hs.sound.slots hslot
  have hlt : u < b.supervisor.kernel.futures.size := hs.sound.follows.marks (by simp [hmark])
  have hself : p.mark? t = none → u ≠ t := by
    rintro hnone rfl
    cases hnone.symm.trans hmark
  have hturn : ∀ {R m input}, GoesOn t R m input b b' → R.helps = false → R.starts? = none → u ≠ t :=
    fun hturn hhelps hstarts => by
      obtain ⟨hgiven, -⟩ := hs.goesOn hturn hhelps
      obtain ⟨y, hfits⟩ := hgiven.fits
      exact hself (by rw [hfits.mark, hstarts]; rfl)
  refine ⟨hlt, ?_, ?_, fun hgone hcalling => ?_⟩
  · cases h with
    | abandons hturn' | cancelled hturn' | unsent hturn' => exact hturn hturn' rfl rfl
    | hurries hturn' hopens => cases hopens <;> exact hturn hturn' rfl rfl
    | stillborn _ _ ha hbody => exact hself (by rw [(hs.sound.fits ha hbody).mark]; rfl)
    | ends hturn' hhears => cases hhears <;> exact hturn hturn' rfl rfl
  · cases h with
    | @abandons r session w _ _ _ _ _ hturn' =>
      rintro heq
      obtain rfl := Option.some.inj heq
      obtain ⟨a, ha, hbody⟩ := hturn'.stood hs rfl
      have hknown := (hs.sound.fits ha hbody).refs w.task (by simp [Routine.refs, Asking.refs])
      cases hknown.2.2.symm.trans hmark
    | _ => simp
  · obtain ⟨-, a, ha, hwaits⟩ := hcalling.attends hall
    cases (hs.sound.follows.waiting ha hwaits).2.1.symm.trans hmark

/-- All other calls that wait for a reply go on to do so. -/
lemma calls (h : Withdraws t b b' asked lost) (hs : b.Sound p) (hall : b.supervisor.Attentive)
    {e : PendingCall} (he : e ∈ (b.supervisor.peerOf link).pending) (hlost : ¬lost link e.uid) :
    e ∈ (b'.supervisor.peerOf link).pending ∧
      b'.supervisor.kernel.outcome? e.future = b.supervisor.kernel.outcome? e.future := by
  have hcostless := h.costless hs hall
  refine ⟨hcostless.calls he hlost, ?_⟩
  cases hout : b.supervisor.kernel.outcome? e.future with
  | some o =>
    obtain ⟨keys, hstep⟩ := h.happens
    obtain ⟨p', turn, hstepped, -⟩ := hs.happens hstep
    exact hstepped.onward.outcome hout
  | none =>
    obtain ⟨hlt, hplain, -⟩ := hs.sound.toTidy.loose_of_pending he
    refine (hcostless.kernel.outcome (h.others hs hall hlt hplain hout fun hgone hcalling => ?_)).trans hout
    obtain ⟨rfl, rfl⟩ := ((hcalling.attends hall).1.own he).1 rfl
    exact hlost hgone

/-- Whoever waits for the reply to another call goes on to do so. -/
lemma callers (h : Withdraws t b b' asked lost) (hs : b.Sound p) (hall : b.supervisor.Attentive)
    (hcalling : b.supervisor.Calling u link uid f) (hlost : ¬lost link uid) :
    b'.supervisor.Calling u link uid f := by
  have hcostless := h.costless hs hall
  obtain ⟨ha, hbody, hcall, hon⟩ := id hcalling
  have hother : b.supervisor.Others t asked lost u :=
    { lt := Kernel.lt_size_of_activity? ha
      self := fun hu => hlost (h.lost_of_calling hs (.inl hu) hcalling)
      asked := fun hu => hlost (h.lost_of_calling hs (.inr hu) hcalling)
      call := fun _ hcalls => by cases (hcalls.attends hall).1.leaf.plain.symm.trans ha }
  exact .intro ((hcostless.kernel.activity hother).trans ha) hbody hcall (hcostless.sessions ▸ hon)

end Withdraws

/-! ## Numbers that are given up -/

/-- A call that ends without an answer is no longer on the list. -/
lemma not_pending_resumeCall (hcall : s.resumeCall n (.awaiting uid f) input = (s', .ends o))
    (ho : ∀ v, o ≠ .value v) (hon : On s.opened link n) :
    ∀ e ∈ (s'.peerOf link).pending, e.uid ≠ uid := by
  obtain ⟨y, hy, rfl⟩ := hon
  unfold resumeCall at hcall
  cases hl : s.links[y.link]? with
  | none =>
    simp only [hy, linkOf?, hl, Option.bind_some] at hcall
    cases hcall
    intro e he
    rw [peerOf, hl] at he
    cases he
  | some l =>
    have hforget : ∀ e ∈ ((s.updateLink y.link fun l' => { l' with connection :=
        { l.connection with peer := l.connection.peer.forget uid } }).peerOf y.link).pending,
        e.uid ≠ uid := fun e he => by
      rw [peerOf_updateLink, hl, Option.elim, if_pos rfl] at he
      simpa using (List.mem_filter.1 he).2
    simp only [hy, linkOf?, hl, Option.bind_some] at hcall
    cases input with
    | value v =>
      cases hcall
      exact absurd rfl (ho _)
    | failure e =>
      cases hcall
      exact hforget
    | cancelled =>
      cases hcall
      exact hforget

/-- A number that was used up since has no call any more. -/
lemma UsesUp.past (h : b.supervisor.UsesUp b'.supervisor link uid) (hs : b.Sound p)
    (hcostless : Costless (b.supervisor.Others t asked lost) lost b.supervisor b'.supervisor) :
    b'.supervisor.Past link uid where
  used := h.2
  settled e he huid := by
    have hused := (hs.sound.toTidy.ordered_peerOf link).used e ((hcostless.ends link).subset he)
    exact absurd (huid ▸ hused) (Nat.not_lt.2 h.1)

/-- A call whose entry is gone, or whose future is settled. -/
lemma Attends.past (h : s.Attends link uid f) (hages : (s.peerOf link).nextUid ≤ (s'.peerOf link).nextUid)
    (hends : (s'.peerOf link).pending.Sublist (s.peerOf link).pending)
    (hover : (∀ e ∈ (s'.peerOf link).pending, e.uid ≠ uid) ∨ s'.kernel.isDone f = true) :
    s'.Past link uid where
  used := Nat.lt_of_lt_of_le h.used hages
  settled e he huid := by
    rcases hover with hgone | hdone
    · exact absurd huid (hgone e he)
    · exact ((h.own (hends.subset he)).2 ⟨rfl, huid⟩) ▸ hdone

/-- Nobody waits any more for the reply to a call that is given up. -/
lemma Withdraws.past (h : Withdraws t b b' asked lost) (hs : b.Sound p) (hall : b.supervisor.Attentive)
    (hlost : lost link uid) : b'.supervisor.Past link uid := by
  have hcostless := h.costless hs hall
  obtain ⟨keys, hstep⟩ := h.happens
  obtain ⟨p', turn, hstepped, -⟩ := hs.happens hstep
  have hages := (hstepped.onward.ages.peers link).nextUid
  have hends := hcostless.ends link
  cases h with
  | @abandons r session w w' m input k g hturn hwaits =>
    obtain ⟨f, hcalling⟩ := hlost
    obtain ⟨hattends, c, hc, hwaiting⟩ := hcalling.attends hall
    obtain ⟨hgiven, hafter⟩ := hs.goesOn hturn rfl
    obtain ⟨a, ha, hbody⟩ := hturn.stood hs rfl
    -- the task that calls is not the one that has it call, so it waits as before
    have hne : w.task ≠ t := by
      rcases (hall ha hbody).timed rfl with ⟨c', r', hc', hbody', hover⟩ | ⟨o, ho, -⟩
      · exact ne_of_timed ha hbody rfl hc' hbody' hover
      · cases (hs.sound.waking.unsettled hc).symm.trans ho
    have hdone : k.isDone f = true := Kernel.isDone_resume hwaits ((hgiven.others hne).trans hc)
      hwaiting (hgiven.widens.leaf hattends.leaf)
    refine hattends.past hages hends (.inr ?_)
    rw [hafter, resume_eq, proceed_timed hwaits]
    obtain ⟨o, ho⟩ := Kernel.isDone_eq_true_iff.1 hdone
    have hbears : Kernel.Bears (fun _ => True) (k.waitFor t (.answering (.timed r session w')) g)
        (k.suspend t (.answering (.timed r session w')) g) := Kernel.bears_suspend _ _ _ _
    exact Kernel.isDone_eq_true_iff.2 ⟨o, hbears.outcome (Kernel.outcome?_waitFor.trans ho)⟩
  | hurries | stillborn => exact hlost.elim
  | @cancelled n state m hturn =>
    obtain ⟨f, hcalling⟩ := hlost
    obtain ⟨hattends, -⟩ := hcalling.attends hall
    obtain ⟨hgiven, hafter⟩ := hs.goesOn hturn rfl
    obtain ⟨ha, hbody, hc, hon⟩ := hcalling
    cases (hturn.body hs ha).symm.trans hbody
    cases hc
    have hopened : m.opened = b.supervisor.opened := by rw [hgiven.same]
    obtain ⟨s₁, hcall, hproceed⟩ := proceed_cancelled hgiven.sound.toTidy (hopened ▸ hon) t uid f
    refine hattends.past hages hends (.inl ?_)
    rw [hafter, resume_eq, hproceed, peerOf_follow]
    exact not_pending_resumeCall hcall (fun _ => by simp) (hopened ▸ hon)
  | unsent => exact UsesUp.past hlost hs hcostless
  | @ends R r session reply m input hturn hhears hforgoes =>
    rcases hlost with ⟨f, hcalling⟩ | hused
    swap
    · exact UsesUp.past hused hs hcostless
    obtain ⟨hattends, -⟩ := hcalling.attends hall
    obtain ⟨ha, hbody, hc, hon⟩ := hcalling
    cases (hturn.body hs ha).symm.trans hbody
    cases hhears with
    | @called state s₁ o hcall hresult =>
      cases hc
      obtain ⟨hgiven, hafter⟩ := hs.goesOn hturn rfl
      obtain ⟨log, hpursue⟩ := pursue_of_forgoes hforgoes session s₁ 3
      have hopened : m.opened = b.supervisor.opened := by rw [hgiven.same]
      refine hattends.past hages hends (.inl ?_)
      rw [hafter, resume_eq, proceed_called t r hcall hresult, show needs = 3 + 1 from rfl, hpursue,
        peerOf_follow]
      have ho : ∀ v, o ≠ .value v := fun v hv => by
        subst hv
        obtain rfl := Option.some.inj hresult
        exact hforgoes
      have hgone : ∀ e ∈ (s₁.peerOf link).pending, e.uid ≠ uid :=
        not_pending_resumeCall hcall ho (hopened ▸ hon)
      exact hgone
    | _ => cases hc

/-! ## What giving up leaves to others -/

/-- What whoever else uses the supervisor has when, in a run from `start`, a request gives up in the step
from `b` to `b'`. -/
structure GivesUpAlone (start : Scene) (t : Id) (asked : Option Id) (lost : Nat → Nat → Prop) (b b' : Scene) :
    Prop where
  /-- The slots, the child processes and the sessions are as they were, and nothing is sent. -/
  costless : Costless (b.supervisor.Others t asked lost) lost b.supervisor b'.supervisor
  /-- Whoever asks for a session is given the same one as before, and it can be used if it could. -/
  usable : ∀ key, b'.supervisor.usable? key = b.supervisor.usable? key
  alive : ∀ n, b'.supervisor.isAlive n = b.supervisor.isAlive n
  /-- Every other call is listed as before, and nothing has become of it. -/
  calls : ∀ {link e}, e ∈ (b.supervisor.peerOf link).pending → ¬lost link e.uid →
    e ∈ (b'.supervisor.peerOf link).pending ∧
      b'.supervisor.kernel.outcome? e.future = b.supervisor.kernel.outcome? e.future
  /-- Whoever waits for it goes on to do so. -/
  callers : ∀ {u link uid f}, b.supervisor.Calling u link uid f → ¬lost link uid →
    b'.supervisor.Calling u link uid f
  /-- A reply to a call that was given up settles nothing, however late it comes. -/
  late : ∀ {link uid keys d}, lost link uid → Run b' keys d →
    d.supervisor.Past link uid ∧ d.supervisor.Ignores link uid
  /-- Before and after, replies settle the calls with their own numbers. -/
  heeds : ∀ {u n m input keys d d'}, Run start keys d → GoesOn u (.listen n) m input d d' →
    n < d.supervisor.links.size → (d'.supervisor.peerOf n).closed = false →
    ∃ payloads, Heeded u n d.supervisor d'.supervisor payloads
  /-- Before and after, callers are told of what their own call was settled with. -/
  returns : ∀ {u r n uid f m input keys d d'}, Run start keys d → GoesOn u r m input d d' →
    r.call? = some (n, .awaiting uid f) →
    (input = .cancelled ∨ d.supervisor.kernel.outcome? f = some input) ∧
      ∀ v, input = verdictOutcome v → ∃ s', m.resumeCall n (.awaiting uid f) input = (s', .ends input)

lemma Scene.attentive_fresh (settings : Settings) (cwd : Text) (scripts : List Daemon.Script) :
    (Scene.fresh settings cwd scripts).supervisor.Attentive :=
  fun ha => absurd (Kernel.lt_size_of_activity? ha) (Nat.not_lt_zero _)

deriving instance DecidableEq for Connection.CallState

/-- The next job, if it is the turn of a request that gives up as its time is over, with the task that
calls for it. -/
def abandoned? (s : Supervisor) (limit : Float) : Option (Id × Id) :=
  match s.kernel.next? limit with
  | some (k, .resume t (.answering (.timed _ _ w)) input) =>
    match (Deadline.resume k w input).2 with
    | .waits _ _ => some (t, w.task)
    | .ends _ => none
  | _ => none

lemma withdraws_of_abandoned? {limit : Float} (h : s.abandoned? limit = some (t, u)) (calls : List Id) :
    ∃ b', Withdraws t ⟨s, calls⟩ b' (some u) fun link uid => ∃ f, s.Calling u link uid f := by
  unfold abandoned? at h
  split at h
  · next k t' request session w input hnext =>
    split at h
    · next w' g hwaits =>
      cases h
      have hstep : s.step? limit =
          some (resume { s with kernel := k } t (.answering (.timed request session w)) input) := by
        rw [step?, hnext]
      exact ⟨_, .abandons (.resumes hnext hstep rfl) (Prod.ext rfl hwaits)⟩
    · cases h
  · cases h

/-- A supervisor with a daemon that answers at once, or not at all. -/
def prompt : Scene := Scene.fresh { command := ["nimsuggest"] } "/work" [{ answers := [("def", .list [])] }]

/-- Somebody calls over its session, and waits. -/
def calling : Supervisor :=
  ((prompt.supervisor.enter (.acquire (({ cwd := "/work" } : Client).resolve "/work/p.nim"))).runUntil
    (fun _ => false) 0 13).enter (.call 0 "silent" [])

/-- A client that cannot wait asks for a definition, and gives up when the answer has just arrived. -/
def rash : Supervisor :=
  (calling.enter (.ask { cwd := "/work" }
    { command := .definition, file := "/work/p.nim", timeout := some (.real 1e-10) })).runUntil
    (fun _ => false) 0 3

end Supervisor

end SuggestBridge
