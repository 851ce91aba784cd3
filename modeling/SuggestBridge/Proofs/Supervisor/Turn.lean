import SuggestBridge.Proofs.Supervisor.Soundness

/-!
# The turn of a task

A task that has its turn begins or goes on with its routine, until it waits again or has ended.
`Turned` says what any turn keeps.  Only a caller who finds a slot empty, or with a startup that is
spent, fills it, and only a startup that begins starts a daemon.
-/

namespace SuggestBridge.Supervisor

open SuggestBridge.Task

variable {p p' p'' : Plan} {ω : Warrant} {s s' s'' : Supervisor} {k : Machine} {running turn : Option Id} {t : Id}

/-! ## Onward -/

/-- No task but `turn` waits for a future. -/
def Unwaited (s : Supervisor) (turn : Option Id) (w : Id) : Prop :=
  ∀ {t a}, turn ≠ some t → s.kernel.activity? t = some a → a.waitingFor ≠ some w

/-- The peer of the connection `n`; where there is none, one over which nobody has called yet. -/
def peerOf (s : Supervisor) (n : Nat) : Peer Nat := (s.links[n]?).elim {} (·.connection.peer)

lemma peerOf_eq {n : Nat} {l : Link} (hl : s.links[n]? = some l) : s.peerOf n = l.connection.peer := by
  rw [peerOf, hl, Option.elim]

lemma peerOf_updateLink (s : Supervisor) (m n : Nat) (f : Link → Link) :
    (s.updateLink m f).peerOf n =
      (s.links[n]?).elim {} fun l => (if m = n then f l else l).connection.peer := by
  rw [peerOf, updateLink, Array.getElem?_modify]
  cases s.links[n]? with
  | none => split <;> rfl
  | some l => split <;> rfl

/-- Over every connection calls end and others begin, through futures that nobody but `turn` waits for. -/
structure Ages (turn : Option Id) (s s' : Supervisor) : Prop where
  peers : ∀ n, (s.peerOf n).Later (s.Unwaited turn) (s'.peerOf n)

lemma Ages.of_eq (h : s'.links = s.links) : Ages turn s s' := ⟨fun n => by
  rw [peerOf, peerOf, h]
  exact .refl _⟩

lemma Ages.trans (h : Ages turn s s') (h' : Ages turn s' s'')
    (hkept : ∀ {t a}, turn ≠ some t → s.kernel.activity? t = some a →
      ∃ b, s'.kernel.activity? t = some b ∧ b.waitingFor = a.waitingFor) : Ages turn s s'' := by
  refine ⟨fun n => (h.peers n).trans (h'.peers n) fun {w} hw t a ht ha => ?_⟩
  obtain ⟨b, hb, hwaiting⟩ := hkept ht ha
  exact hwaiting ▸ hw ht hb

lemma Move.ages (h : Move p ω s s') : Ages turn s s' := by
  cases h with
  | link m f _ hstep =>
    refine ⟨fun n => ?_⟩
    rw [peerOf_updateLink]
    cases hl : s.links[n]? with
    | none =>
      rw [peerOf, hl]
      exact .refl _
    | some l =>
      rw [peerOf_eq hl, Option.elim]
      split
      · next hmn =>
        subst hmn
        exact (hstep l hl).ages.later.mono fun {w} hw t a _ ha => hw.tasks ha
      · exact .refl _
  | @connected l _ hpeer _ _ =>
    refine ⟨fun n => ?_⟩
    rw [peerOf, peerOf, Array.getElem?_push]
    split
    · next hn =>
      rw [hn, Array.getElem?_eq_none (Nat.le_refl _), Option.elim, Option.elim, hpeer]
      exact .refl _
    · exact .refl _
  | _ => exact .of_eq rfl

lemma Steps.ages (h : Steps p ω s s') : Ages turn s s' := by
  induction h with
  | refl => exact .of_eq rfl
  | tail hsteps hmove ih =>
    refine ih.trans hmove.ages fun _ ha => ?_
    obtain ⟨b, hb, -, hwaiting, -⟩ := (Steps.grows hsteps).kept ha
    exact ⟨b, hb, hwaiting⟩

/-- Time goes on; at most the task `turn` is somewhere else than before. -/
structure Onward (p p' : Plan) (turn : Option Id) (s s' : Supervisor) : Prop where
  plan : p.Extends p' s.kernel.futures.size
  widens : s.kernel.Widens s'.kernel
  keeps : Keeps s s'
  ages : Ages turn s s'
  outcome : ∀ {x o}, s.kernel.outcome? x = some o → s'.kernel.outcome? x = some o
  kept : ∀ {t a}, turn ≠ some t → s.kernel.activity? t = some a →
    ∃ b, s'.kernel.activity? t = some b ∧ b.body = a.body ∧ b.waitingFor = a.waitingFor ∧
      (a.cancelRequests ≠ 0 → b.cancelRequests ≠ 0)
  self : ∀ {t a}, turn = some t → s.kernel.activity? t = some a → s'.kernel.isDone t = true ∨
    ∃ b, s'.kernel.activity? t = some b ∧ (a.cancelRequests ≠ 0 → b.cancelRequests ≠ 0)
  /-- Whoever has kept a request to cancel still has it. -/
  firm : ∀ {t a}, turn ≠ some t → s.kernel.activity? t = some a → a.mustCancel = true →
    ∃ b, s'.kernel.activity? t = some b ∧ b.mustCancel = true
  /-- A new task is about to begin. -/
  begun : ∀ {t b}, turn ≠ some t → s'.kernel.activity? t = some b →
    (∃ a, s.kernel.activity? t = some a) ∨
      ∃ r, b.body = some r ∧ r.begins = true ∧ b.waitingFor = none
  /-- A new startup has no process yet. -/
  newborn : ∀ {u}, turn ≠ some u → p.mark? u = none → p'.mark? u ≠ none →
    ∃ b r, s'.kernel.activity? u = some b ∧ b.body = some r ∧ r.child? = none

namespace Onward

lemma size (h : Onward p p' turn s s') : s.kernel.futures.size ≤ s'.kernel.futures.size :=
  h.widens.size

lemma isDone (h : Onward p p' turn s s') {x : Id} (hx : s.kernel.isDone x = true) :
    s'.kernel.isDone x = true := by
  obtain ⟨o, ho⟩ := Kernel.isDone_eq_true_iff.1 hx
  exact Kernel.isDone_eq_true_iff.2 ⟨o, h.outcome ho⟩

lemma trans (h : Onward p p' turn s s') (h' : Onward p' p'' turn s' s'') :
    Onward p p'' turn s s'' where
  plan := h.plan.trans h'.plan h.size
  widens := h.widens.trans h'.widens
  keeps := h.keeps.trans h'.keeps
  ages := h.ages.trans h'.ages fun ht ha => by
    obtain ⟨b, hb, -, hwaiting, -⟩ := h.kept ht ha
    exact ⟨b, hb, hwaiting⟩
  outcome ho := h'.outcome (h.outcome ho)
  kept ht ha := by
    obtain ⟨b, hb, hbody, hwaiting, hasked⟩ := h.kept ht ha
    obtain ⟨c, hc, hbody', hwaiting', hasked'⟩ := h'.kept ht hb
    exact ⟨c, hc, hbody'.trans hbody, hwaiting'.trans hwaiting, hasked' ∘ hasked⟩
  self ht ha := by
    rcases h.self ht ha with hdone | ⟨b, hb, hasked⟩
    · exact .inl (h'.isDone hdone)
    · refine (h'.self ht hb).imp id ?_
      rintro ⟨c, hc, hasked'⟩
      exact ⟨c, hc, hasked' ∘ hasked⟩
  firm ht ha hmust := by
    obtain ⟨b, hb, hmust'⟩ := h.firm ht ha hmust
    exact h'.firm ht hb hmust'
  begun ht hc := by
    rcases h'.begun ht hc with ⟨b, hb⟩ | hnew
    · rcases h.begun ht hb with hold | ⟨r, hr, hbegins⟩
      · exact .inl hold
      · obtain ⟨d, hd, hbody, hwaiting, -⟩ := h'.kept ht hb
        cases hc.symm.trans hd
        exact .inr ⟨r, hbody.trans hr, hbegins.1, hwaiting.trans hbegins.2⟩
    · exact .inr hnew
  newborn {u} hu hnone hsome := by
    by_cases hnone' : p'.mark? u = none
    · exact h'.newborn hu hnone' hsome
    · obtain ⟨b, r, hb, hbody, hchild⟩ := h.newborn hu hnone hnone'
      obtain ⟨c, hc, hbody', -⟩ := h'.kept hu hb
      exact ⟨c, r, hc, hbody'.trans hbody, hchild⟩

lemma of_grows {quiet : Routine → Prop} (hp : p.Extends p' s.kernel.futures.size)
    (hkeeps : Keeps s s') (hages : Ages turn s s') (h : Kernel.Grows quiet s.kernel s'.kernel)
    (hquiet : ∀ r, quiet r → r.begins = true)
    (hnewborn : ∀ {u}, p.mark? u = none → p'.mark? u ≠ none →
      ∃ b r, s'.kernel.activity? u = some b ∧ b.body = some r ∧ r.child? = none) :
    Onward p p' turn s s' where
  plan := hp
  widens := h.toWidens
  keeps := hkeeps
  ages := hages
  outcome := h.outcome
  kept _ ha := h.kept ha
  self _ ha := by
    obtain ⟨b, hb, -, -, hasked⟩ := h.kept ha
    exact .inr ⟨b, hb, hasked⟩
  firm _ := h.firm.must
  begun _ hb := (h.begun hb).imp_right fun ⟨_, hidle, r, hr, hr'⟩ => ⟨r, hr, hquiet r hr', hidle⟩
  newborn _ := hnewborn

/-- No startup is begun. -/
lemma of_quiet (hkeeps : Keeps s s') (hages : Ages turn s s')
    (h : Kernel.Grows Routine.Quiet s.kernel s'.kernel) : Onward p p turn s s' :=
  .of_grows (.refl p _) hkeeps hages h (fun _ hr => hr.begins) fun hnone hsome => absurd hnone hsome

lemma refl (s : Supervisor) : Onward p p turn s s :=
  .of_quiet (.refl s) (.of_eq rfl) (.refl s.kernel)

lemma of_kernel (hwide : s.kernel.Widens k)
    (hout : ∀ {x o}, s.kernel.outcome? x = some o → k.outcome? x = some o)
    (hkept : ∀ {u a}, u ≠ t → s.kernel.activity? u = some a → ∃ b, k.activity? u = some b ∧
      b.body = a.body ∧ b.waitingFor = a.waitingFor ∧ (a.cancelRequests ≠ 0 → b.cancelRequests ≠ 0))
    (hself : ∀ {a}, s.kernel.activity? t = some a → k.isDone t = true ∨
      ∃ b, k.activity? t = some b ∧ (a.cancelRequests ≠ 0 → b.cancelRequests ≠ 0))
    (hfirm : ∀ {u a}, u ≠ t → s.kernel.activity? u = some a → a.mustCancel = true →
      ∃ b, k.activity? u = some b ∧ b.mustCancel = true)
    (hold : ∀ {u b}, u ≠ t → k.activity? u = some b → ∃ a, s.kernel.activity? u = some a) :
    Onward p p (some t) s { s with kernel := k } where
  plan := .refl p _
  widens := hwide
  keeps := { Keeps.refl s with }
  ages := .of_eq rfl
  outcome := hout
  kept ht ha := hkept (fun heq => ht (congrArg some heq.symm)) ha
  self ht ha := by
    cases ht
    exact hself ha
  firm ht ha := hfirm (fun heq => ht (congrArg some heq.symm)) ha
  begun ht hb := .inl (hold (fun heq => ht (congrArg some heq.symm)) hb)
  newborn _ hnone hsome := absurd hnone hsome

/-- A task has its turn. -/
lemma of_roused (h : Kernel.Roused s.kernel k t) : Onward p p (some t) s { s with kernel := k } := by
  refine of_kernel h.widens (fun ho => (h.outcome _).trans ho)
    (fun hu ha => ⟨_, (h.other _ hu).trans ha, rfl, rfl, id⟩) (fun {a} ha => .inr ?_)
    (fun hu ha hmust => ⟨_, (h.other _ hu).trans ha, hmust⟩) fun hu hb => ⟨_, (h.other _ hu).symm.trans hb⟩
  obtain ⟨a', b, ha', hb, -, -, -, hasked⟩ := h.self
  cases ha.symm.trans ha'
  exact ⟨b, hb, fun hne => hasked ▸ hne⟩

lemma of_paused {r : Routine} {g : Id} (h : Kernel.Paused s.kernel k t r g) :
    Onward p p (some t) s { s with kernel := k } := by
  refine of_kernel h.widens h.outcome h.kept (fun {a} ha => .inr ?_) h.firm fun _ => h.old
  obtain ⟨a', c, ha', hc, -, -, hasked⟩ := h.self
  cases ha.symm.trans ha'
  exact ⟨c, hc, hasked.2⟩

lemma of_ends {o : Outcome Value Failure} (h : Kernel.Ends s.kernel k t o) :
    Onward p p (some t) s { s with kernel := k } := by
  obtain ⟨hnone, ho, -⟩ := h.self
  refine of_kernel h.widens (fun {x o'} ho' => ?_)
    (fun hu ha => ⟨_, (h.other _ hu).trans ha, rfl, rfl, id⟩)
    (fun _ => .inl (Kernel.isDone_eq_true_iff.2 ⟨o, ho⟩))
    (fun hu ha hmust => ⟨_, (h.other _ hu).trans ha, hmust⟩) fun hu hb => ⟨_, (h.other _ hu).symm.trans hb⟩
  have hne : x ≠ t := by
    rintro rfl
    simp [hnone] at ho'
  exact (h.outcome x hne).trans ho'

end Onward

namespace Moves

lemma onward (h : Moves p ω s s') : Onward p p turn s s' :=
  .of_quiet (Moves.keeps h) (Steps.ages h.steps) (Steps.grows h.steps)

lemma attempts (h : Moves p ω s s') : s'.attempts = s.attempts := by
  obtain ⟨hsteps, -, -⟩ := h
  induction hsteps with
  | refl => rfl
  | tail _ hmove ih =>
    rw [← ih]
    cases hmove <;> rfl

/-- No move fills a slot. -/
lemma slots (h : Moves p ω s s') {key : Text} {u : Id} (hu : s'.slots.get? key = some u) :
    s.slots.get? key = some u := by
  obtain ⟨hsteps, -, -⟩ := h
  induction hsteps with
  | refl => exact hu
  | tail _ hmove ih =>
    refine ih ?_
    cases hmove with
    | vacate _ _ => exact (Slots.get?_erase_eq_some hu).2
    | close _ _ => exact (Slots.get?_erase_eq_some hu).2
    | _ => exact hu

end Moves

/-! ## Slots that may be filled -/

/-- A startup that has ended and can be used no more. -/
inductive Spent (s : Supervisor) (u : Id) : Prop where
  | failed {e : Failure} (outcome : s.kernel.outcome? u = some (.failure e))
  | cancelled (outcome : s.kernel.outcome? u = some .cancelled)
  /-- Its session has a process that has exited. -/
  | exited {n : Nat} {x : Session} {q : Daemon.Process}
      (outcome : s.kernel.outcome? u = some (.value (.session n))) (opened : s.opened[n]? = some x)
      (process : s.process? x.pid = some q) (exit : q.exitCode ≠ none)
  /-- Its session has a peer that is closed. -/
  | closed {n : Nat} {x : Session} {l : Link}
      (outcome : s.kernel.outcome? u = some (.value (.session n))) (opened : s.opened[n]? = some x)
      (link : s.links[x.link]? = some l) (closed : l.connection.peer.closed = true)

/-- The slot of a key is empty, or its startup is spent. -/
def Vacant (s : Supervisor) (key : Text) : Prop := ∀ u, s.slots.get? key = some u → s.Spent u

lemma Spent.of_eq {u : Id} (h : s'.Spent u)
    (hout : ∀ {o}, s'.kernel.outcome? u = some o → s.kernel.outcome? u = some o)
    (hopened : s'.opened = s.opened) (hlinks : s'.links = s.links)
    (hprocesses : s'.processes = s.processes) : s.Spent u := by
  cases h with
  | failed ho => exact .failed (hout ho)
  | cancelled ho => exact .cancelled (hout ho)
  | exited ho hx hq hexit =>
    refine .exited (hout ho) (hopened ▸ hx) ?_ hexit
    rwa [process?, ← hprocesses]
  | closed ho hx hl hclosed => exact .closed (hout ho) (hopened ▸ hx) (hlinks ▸ hl) hclosed

/-- A session that cannot be used has a process that has exited or a peer that is closed. -/
lemma Sound.spent (h : Sound p running s) {key : Text} {u : Id}
    (hslot : s.slots.get? key = some u) (hnone : s.usable? key = none) : s.Spent u := by
  have hdead : s.kernel.isDone u = true ∧ ∀ n, s.sessionOf? u = some n → s.isAlive n = false := by
    rw [usable?, hslot] at hnone
    have hnot := (Option.filter_eq_none_iff.1 hnone) u rfl
    simp only [Bool.or_eq_true, not_or, Bool.not_eq_true', Bool.not_eq_false] at hnot
    refine ⟨hnot.1, fun n hn => ?_⟩
    simpa [hn] using hnot.2
  obtain ⟨hdone, hdead⟩ := hdead
  obtain ⟨o, ho⟩ := Kernel.isDone_eq_true_iff.1 hdone
  cases o with
  | failure e => exact .failed ho
  | cancelled => exact .cancelled ho
  | value v =>
    obtain ⟨n, x, rfl, hx, -⟩ := h.ended (h.slots hslot) ho
    have halive := hdead n (by rw [sessionOf?, ho])
    obtain ⟨hlt, hprocess⟩ := h.opened hx
    obtain ⟨q, hq⟩ := Option.isSome_iff_exists.1 hprocess
    have hl : s.links[x.link]? = some s.links[x.link] := Array.getElem?_eq_getElem hlt
    have hlink : s.linkOf? n = some s.links[x.link] := by rw [linkOf?, hx]; exact hl
    simp only [isAlive, hx, hlink, isRunning, hq, Daemon.Process.isRunning, Bool.and_eq_false_iff]
      at halive
    rcases halive with hexit | hclosed
    · refine .exited ho hx hq fun hrun => ?_
      simp [hrun] at hexit
    · exact .closed ho hx hl (by simpa using hclosed)

lemma Spent.isDone {u : Id} (h : s.Spent u) : s.kernel.isDone u = true := by
  cases h with
  | failed ho => exact Kernel.isDone_eq_true_iff.2 ⟨_, ho⟩
  | cancelled ho => exact Kernel.isDone_eq_true_iff.2 ⟨_, ho⟩
  | exited ho _ _ _ => exact Kernel.isDone_eq_true_iff.2 ⟨_, ho⟩
  | closed ho _ _ _ => exact Kernel.isDone_eq_true_iff.2 ⟨_, ho⟩

/-! ## Where only one task moves -/

/-- The kernel moves one task and no other. -/
structure Shifts (p : Plan) (t : Id) (s : Supervisor) (k : Machine) : Prop where
  follows : k.Follows p
  onward : Onward p p (some t) s { s with kernel := k }
  back : ∀ {u b}, k.activity? u = some b → ∃ a, s.kernel.activity? u = some a ∧
    (u ≠ t → b.body = a.body ∧ b.waitingFor = a.waitingFor) ∧
    (p.mark? u ≠ none → (b.cancelRequests = 0 ↔ a.cancelRequests = 0))

/-- The task `t` may stand at `r` and wait for `x` from now on. -/
structure Stands (p : Plan) (s : Supervisor) (t : Id) (r : Routine) (x : Option Id) : Prop
    extends Fits p s t r x where
  owned : ∀ {pid}, r.child? = some pid → s.OwnedBy t pid
  helper : s.Helper t → r.helps = true
  still : ∀ {g}, r.helps = true → x = some g → s.Still g
  helps : r.child? ≠ none → ∀ y ∈ r.refs, s.Helps y

/-- A task that starts a daemon is waited for by nobody who starts one. -/
lemma Stands.ne_of_refs {r : Routine} {x : Option Id} (h : Stands p s t r x) (hchild : r.child? ≠ none)
    {u : Id} (hu : u ∈ r.refs) : u ≠ t := by
  rintro rfl
  have hnone := h.mark.symm.trans (h.refs u hu).2.2
  exact hchild (Routine.child?_of_starts? (Option.map_eq_none_iff.1 hnone))

lemma Shifts.sound {running' : Option Id} (hk : Shifts p t s k) (h : Sound p running s)
    (hwaking : k.Waking running') (hruns : ∀ u, running' = some u → ∃ a, k.activity? u = some a ∧ a.body = none)
    (hstands : ∀ {a r}, k.activity? t = some a → a.body = some r → Stands p s t r a.waitingFor)
    (hvalue : ∀ {key v}, p.mark? t = some key → s.kernel.outcome? t = none →
      k.outcome? t = some (.value v) →
        ∃ (n : Nat) (x : Session), v = .session n ∧ s.opened[n]? = some x ∧ x.key = key) :
    Sound p running' { s with kernel := k } := by
  have hactive : ∀ {u}, p.mark? u ≠ none → s.kernel.outcome? u = none →
      (∃ b, k.activity? u = some b) ∨ u = t ∧ k.isDone u = true := by
    intro u hu hnone
    obtain ⟨a, ha⟩ := h.active hu (Kernel.isDone_eq_false_iff.2 hnone)
    by_cases hut : u = t
    · rcases hk.onward.self (congrArg some hut.symm) ha with hdone | ⟨b, hb, -⟩
      · exact .inr ⟨hut, hdone⟩
      · exact .inl ⟨b, hb⟩
    · obtain ⟨b, hb, -⟩ := hk.onward.kept (fun heq => hut (Option.some.inj heq).symm) ha
      exact .inl ⟨b, hb⟩
  refine { h.toTidy.of_kernel hk.follows hk.onward.widens with
    waking := hwaking, runs := hruns, fits := ?_, active := ?_, held := ?_, ended := ?_, owned := ?_,
    helpers := ?_, still := ?_ }
  · intro u b r hb hr
    obtain ⟨a, ha, hother, -⟩ := hk.back hb
    have hlt := Kernel.lt_size_of_activity? ha
    have hfits' : Fits p s u r b.waitingFor := by
      by_cases hut : u = t
      · subst hut
        exact (hstands hb hr).toFits
      · obtain ⟨hbody, hwaiting⟩ := hother hut
        rw [hwaiting]
        exact h.fits ha (hbody ▸ hr)
    exact hfits'.extends h.follows hlt hk.onward.widens (.refl p _) hk.onward.keeps
  · intro u hu hnone
    have hbefore : s.kernel.outcome? u = none := by
      by_contra hne
      obtain ⟨o, ho⟩ := Option.ne_none_iff_exists'.1 hne
      rw [Kernel.isDone, hk.onward.outcome ho] at hnone
      cases hnone
    rcases hactive hu hbefore with hb | ⟨-, hdone⟩
    · exact hb
    · exact absurd (hnone.symm.trans hdone) (by simp)
  · intro u key b hu hb
    obtain ⟨a, ha, -, hasked⟩ := hk.back hb
    exact (hasked (by simp [hu])).trans (h.held hu ha)
  · intro u key v hu hv
    cases ho : s.kernel.outcome? u with
    | some o =>
      cases (hk.onward.outcome ho).symm.trans hv
      exact h.ended hu ho
    | none =>
      rcases hactive (by simp [hu]) ho with ⟨b, hb⟩ | ⟨rfl, -⟩
      · cases (hwaking.unsettled hb).symm.trans hv
      · exact hvalue hu ho hv
  · -- whoever has a process has had it before, or is `t`
    have hhad : ∀ {u b r pid}, k.activity? u = some b → b.body = some r → r.child? = some pid →
        s.OwnedBy u pid ∧ (u = t ∨ ∃ a, s.kernel.activity? u = some a ∧ a.body = some r) := by
      intro u b r pid hb hr hpid
      by_cases hut : u = t
      · subst hut
        exact ⟨(hstands hb hr).owned hpid, .inl rfl⟩
      · obtain ⟨a, ha, hother, -⟩ := hk.back hb
        have hr' := (hother hut).1.symm.trans hr
        exact ⟨h.owned ha hr' hpid, .inr ⟨a, ha, hr'⟩⟩
    intro u b r pid hb hr hpid
    obtain ⟨howned, hold⟩ := hhad hb hr hpid
    refine ⟨fun {v c r'} hne hc hr' hpid' => ?_, howned.sessions⟩
    obtain ⟨howned', hold'⟩ := hhad hc hr' hpid'
    rcases hold' with rfl | ⟨a, ha, hbody⟩
    · rcases hold with rfl | ⟨a, ha, hbody⟩
      · exact hne rfl
      · exact howned'.startups (Ne.symm hne) ha hbody hpid
    · exact howned.startups hne ha hbody hpid'
  · intro u hu
    have hold : s.Helps u → (∀ {b r}, u = t → k.activity? u = some b → b.body = some r →
        r.helps = true) → Helps { s with kernel := k } u := fun hhelps hself => by
      refine ⟨?_, fun {b r} hb hr => ?_⟩
      · rcases hhelps.task with hdone | ⟨a, ha⟩
        · exact .inl (hk.onward.isDone hdone)
        · by_cases hut : u = t
          · rcases hk.onward.self (congrArg some hut.symm) ha with hdone | ⟨b, hb, -⟩
            · exact .inl hdone
            · exact .inr ⟨b, hb⟩
          · obtain ⟨b, hb, -⟩ := hk.onward.kept (fun heq => hut (Option.some.inj heq).symm) ha
            exact .inr ⟨b, hb⟩
      · by_cases hut : u = t
        · exact hself hut hb hr
        · obtain ⟨a, ha, hother, -⟩ := hk.back hb
          exact hhelps.kind ha ((hother hut).1.symm.trans hr)
    have hbefore : s.Helper u → Helps { s with kernel := k } u := fun hu =>
      hold (h.helpers hu) fun hut hb hr => by
        subst hut
        exact (hstands hb hr).helper hu
    cases hu with
    | listener hl hlistener => exact hbefore (.listener hl hlistener)
    | @child v c r₁ hc hr₁ hsome hrefs =>
      by_cases hvt : v = t
      · subst hvt
        have hstands' := hstands hc hr₁
        exact hold (hstands'.helps hsome u hrefs) fun hut =>
          absurd hut (hstands'.ne_of_refs hsome hrefs)
      · obtain ⟨d, hd, hother', -⟩ := hk.back hc
        exact hbefore (.child hd ((hother' hvt).1.symm.trans hr₁) hsome hrefs)
  · intro u b r g hb hr hhelps hwait
    obtain ⟨a, ha, hother, -⟩ := hk.back hb
    have hstill : s.Still g := by
      by_cases hut : u = t
      · subst hut
        exact (hstands hb hr).still hhelps hwait
      · obtain ⟨hbody, hwaiting⟩ := hother hut
        exact h.still ha (hbody.symm.trans hr) hhelps (hwaiting.symm.trans hwait)
    exact hstill.widens hk.onward.widens fun l hl hw => ⟨l, hl, hw⟩

/-! ## The end of a turn -/

/-- What a turn of `t` keeps, in which a number of daemons is started and only vacant slots are
filled. -/
structure Turned (p p' : Plan) (t : Id) (starts : Nat) (vacant : Text → Prop) (s s' : Supervisor) :
    Prop where
  sound : Sound p' none s'
  onward : Onward p p' (some t) s s'
  waits : ∀ {a}, s'.kernel.activity? t = some a → a.waitingFor ≠ none
  fills : ∀ {key u}, s'.slots.get? key = some u →
    s.slots.get? key = some u ∨ vacant key ∧ s.kernel.futures.size ≤ u
  attempts : s'.attempts = s.attempts + starts

namespace Turned

variable {m n : Nat} {vacant : Text → Prop}

/-- What comes before the end of the turn. -/
lemma after (h : Turned p' p'' t n vacant s' s'') (hon : Onward p p' (some t) s s')
    (hfills : ∀ {key u}, s'.slots.get? key = some u →
      s.slots.get? key = some u ∨ vacant key ∧ s.kernel.futures.size ≤ u)
    (hattempts : s'.attempts = s.attempts + m) : Turned p p'' t (m + n) vacant s s'' where
  sound := h.sound
  onward := hon.trans h.onward
  waits := h.waits
  fills hu := (h.fills hu).elim hfills fun hv => .inr ⟨hv.1, Nat.le_trans hon.size hv.2⟩
  attempts := by rw [h.attempts, hattempts, Nat.add_assoc]

lemma mono {vacant' : Text → Prop} (h : Turned p p' t n vacant s s')
    (hv : ∀ {key}, vacant key → vacant' key) : Turned p p' t n vacant' s s' :=
  { h with fills := fun hu => (h.fills hu).imp id (And.imp_left hv) }

lemma moves (h : Turned p p' t n vacant s' s'') (hmoves : Moves p ω s s') :
    Turned p p' t n vacant s s'' := by
  have hafter := h.after (m := 0) (Moves.onward hmoves) (fun hu => .inl (Moves.slots hmoves hu))
    (Moves.attempts hmoves)
  rwa [Nat.zero_add] at hafter

end Turned

section Follow

variable {r : Routine} {g : Id} {vacant : Text → Prop}

/-- The turn ends with a wait. -/
lemma Sound.suspend (h : Sound p (some t) s) (hg : g < s.kernel.futures.size)
    (hmark : p.mark? g = none)
    (hrelay : ∀ {c u}, p.relay? g = some (c, u) → c = t ∧ s.kernel.outcome? g = none)
    (hstands : Stands p s t r (some g)) :
    Turned p p t 0 vacant s (s.follow t (.waits r g)) := by
  obtain ⟨a, ha, -⟩ := h.runs t rfl
  obtain ⟨hfollows, hpaused, hmarked⟩ := h.follows.suspend ha r hg hmark hrelay
  obtain ⟨a', c, ha', hc, hbody, hwaiting, hasked⟩ := hpaused.self
  cases ha.symm.trans ha'
  have hshifts : Shifts p t s (s.kernel.suspend t r g) := by
    refine ⟨hfollows, .of_paused hpaused, fun {u b} hb => ?_⟩
    obtain ⟨d, hd⟩ := hpaused.old hb
    refine ⟨d, hd, fun hut => ?_, fun hu => ?_⟩
    · obtain ⟨e, he, hbody', hwaiting', -⟩ := hpaused.kept hut hd
      cases hb.symm.trans he
      exact ⟨hbody', hwaiting'⟩
    · by_cases hut : u = t
      · subst hut
        cases hc.symm.trans hb
        cases ha.symm.trans hd
        exact not_iff_not.1 hasked
      · cases (hmarked hu hut).symm.trans hb |>.symm.trans hd
        exact Iff.rfl
  have hopen := h.waking.suspend r ha hg
  refine ⟨hshifts.sound h hopen nofun (fun {b r'} hb hr' => ?_) (fun _ _ hv => ?_), hshifts.onward,
    fun {b} hb => ?_, .inl, rfl⟩
  · cases hc.symm.trans hb
    cases hbody.symm.trans hr'
    exact hwaiting ▸ hstands
  · cases (hopen.unsettled hc).symm.trans hv
  · cases hc.symm.trans hb
    simp [hwaiting]

lemma Shifts.of_ends {o : Outcome Value Failure} (hfollows : k.Follows p)
    (h : Kernel.Ends s.kernel k t o) : Shifts p t s k := by
  have hne : ∀ {u b}, k.activity? u = some b → u ≠ t := by
    rintro u b hb rfl
    cases h.self.2.2.symm.trans hb
  exact ⟨hfollows, .of_ends h, fun hb =>
    ⟨_, (h.other _ (hne hb)).symm.trans hb, fun _ => ⟨rfl, rfl⟩, fun _ => Iff.rfl⟩⟩

/-- The turn ends with the end of the task. -/
lemma Sound.finish (h : Sound p (some t) s) {o : Outcome Value Failure}
    (hvalue : ∀ {key v}, p.mark? t = some key → o = .value v →
      ∃ (n : Nat) (x : Session), v = .session n ∧ s.opened[n]? = some x ∧ x.key = key) :
    Turned p p t 0 vacant s (s.follow t (.ends o)) := by
  obtain ⟨a, ha, -⟩ := h.runs t rfl
  obtain ⟨o', ho', hfollows, hwaking, hends⟩ := h.follows.finish h.waking ha o
  have hshifts := Shifts.of_ends hfollows hends
  obtain ⟨hnone, hsome, hgone⟩ := hends.self
  refine ⟨hshifts.sound h hwaking nofun (fun hb => ?_) (fun {key v} hmark _ hv => ?_), hshifts.onward,
    fun hb => ?_, .inl, rfl⟩
  · cases hgone.symm.trans hb
  · cases hsome.symm.trans hv
    rcases ho' with rfl | heq
    · exact hvalue hmark rfl
    · cases heq
  · cases hgone.symm.trans hb

end Follow

/-! ## Those that work for others -/

/-- The running task becomes no helper of anybody. -/
lemma Sound.helper_of_grows {quiet : Routine → Prop} (h : Sound p (some t) s) (harises : Arises s s')
    (hgrows : Kernel.Grows quiet s.kernel s'.kernel) (hchild : ∀ r, quiet r → r.child? = none)
    (ht : s'.Helper t) : s.Helper t := by
  obtain ⟨a, ha, hidle⟩ := h.runs t rfl
  cases ht with
  | listener hl hlistener =>
    rcases harises.listeners _ hl t hlistener with ⟨l₀, hl₀, hlistener⟩ | ⟨b, r, hb, hr, -⟩
    · exact .listener hl₀ hlistener
    · cases ha.symm.trans hb
      cases hidle.symm.trans hr
  | child hc hr hsome hrefs =>
    rcases hgrows.begun hc with ⟨b, hb⟩ | ⟨-, -, r', hr', hquiet⟩
    · obtain ⟨d, hd, hbody, -⟩ := hgrows.kept hb
      cases hc.symm.trans hd
      exact .child hb (hbody.symm.trans hr) hsome hrefs
    · cases hr.symm.trans hr'
      exact absurd (hchild _ hquiet) hsome

lemma Sound.helper_of_moves (h : Sound p (some t) s) (hmoves : Moves p ω s s') (ht : s'.Helper t) :
    s.Helper t := by
  obtain ⟨hsteps, -, -⟩ := hmoves
  induction hsteps with
  | refl => exact ht
  | tail hsteps hmove ih =>
    exact ih ((h.steps hsteps).helper_of_grows hmove.arises hmove.grows (fun _ hr => hr.child) ht)

/-- A routine that works for somebody goes on to do so, and waits for a future that concerns no call;
any other routine does not begin to. -/
structure Steady (helps : Bool) (r : Supervisor × Course Routine) : Prop where
  waits : ∀ {r' g}, r.2 = .waits r' g → r'.helps = helps ∧ (helps = true → r.1.Still g)

namespace Steady

variable {helps : Bool}

lemma ends (s : Supervisor) (o : Outcome Value Failure) : Steady helps (s, .ends o) := ⟨nofun⟩

lemma waiting {r : Routine} {g : Id} (hr : r.helps = true) (hg : s.Still g) :
    Steady true (s, .waits r g) := by
  refine ⟨?_⟩
  rintro _ _ ⟨⟩
  exact ⟨hr, fun _ => hg⟩

lemma andThen {part : Supervisor × Course σ} {wrap : σ → Routine}
    {next : Supervisor → Outcome Value Failure → Supervisor × Course Routine}
    (hwrap : ∀ state, (wrap state).helps = false) (hnext : ∀ s o, Steady false (next s o)) :
    Steady false (Progress.andThen part wrap next) := by
  obtain ⟨s', course⟩ := part
  cases course with
  | waits state future =>
    refine ⟨?_⟩
    rintro _ _ ⟨⟩
    exact ⟨hwrap state, nofun⟩
  | ends o => exact hnext s' o

lemma within {part : Supervisor × Course σ} {wrap : σ → Routine}
    (hwrap : ∀ state, (wrap state).helps = false) : Steady false (within wrap part) :=
  .andThen hwrap fun s o => .ends s o

lemma leave (result : Outcome Value Failure) (r : Supervisor × Course Shutdown) :
    Steady false (leave result r) := .andThen (fun _ => rfl) fun s o => by split <;> exact .ends s _

lemma afterAsking (r : Supervisor × Course Asking) : Steady false (afterAsking r) :=
  .andThen (fun _ => rfl) fun _ o => .leave o _

lemma pauseSweeper (s : Supervisor) : Steady false s.pauseSweeper := by
  refine ⟨?_⟩
  rintro _ _ ⟨⟩
  exact ⟨rfl, nofun⟩

lemma afterSweep (r : Supervisor × Course Sweep) : Steady false (afterSweep r) :=
  .andThen (fun _ => rfl) fun s o => by
    split
    · exact .pauseSweeper s
    · exact .pauseSweeper _
    · exact .ends s _

end Steady

/-- A future that has just been made. -/
lemma Tidy.still_fresh (h : Tidy p s) (hkernel : s'.kernel = s.kernel.fresh.1)
    (hcalls : ∀ l ∈ s'.links, ∀ w, l.Calls w → ∃ l₀ ∈ s.links, l₀.Calls w) :
    s'.Still s.kernel.futures.size where
  leaf := by
    rw [hkernel]
    exact Kernel.leaf_fresh _
  uncalled l hl hw := by
    obtain ⟨l₀, hl₀, hw⟩ := hcalls l hl _ hw
    exact (h.unused (Nat.le_refl _)).calls l₀ hl₀ hw

lemma steady_readLine (h : Tidy p s) (pid : Nat) (input : Outcome Value Failure) :
    Steady true (s.readLine pid input) := by
  unfold readLine
  split
  · split
    · dsimp only
      split <;> exact .ends _ _
    · dsimp only
      split
      · exact .ends _ _
      · split
        · exact .ends _ _
        · exact .waiting rfl (h.still_fresh rfl fun l hl _ hw => ⟨l, hl, hw⟩)
  · exact .ends _ _
  · exact .ends _ _

lemma steady_reap (h : Tidy p s) (pid : Nat) (input : Outcome Value Failure) :
    Steady true (s.reap pid input) := by
  unfold reap
  split
  · split
    · exact .ends _ _
    · exact .waiting rfl (h.still_fresh rfl fun l hl _ hw => ⟨l, hl, hw⟩)
  · exact .ends _ _
  · exact .ends _ _

lemma steady_drain (h : Tidy p s) (key : Text) (pid : Nat) (o : Daemon.Output)
    (input : Outcome Value Failure) : Steady true (s.drain key pid o input) := by
  unfold drain
  split
  · next q _ =>
    dsimp only
    split
    · exact .ends _ _
    · have hlog : Moves p .all s _ :=
        moves_report (chunkLines key o (q.output o).buffer.length (q.output o).buffer)
      exact .waiting rfl ((h.moves hlog).still_fresh rfl fun l hl _ hw => ⟨l, hl, hw⟩)
  · exact .ends _ _
  · exact .ends _ _

lemma steady_watch (h : Tidy p s) (n : Nat) (input : Outcome Value Failure) :
    Steady true (s.watch n input) := by
  rw [watch]
  split
  · exact .ends _ _
  · next x _ =>
    have hreap := steady_reap h x.pid input
    generalize s.reap x.pid input = r at hreap ⊢
    obtain ⟨s₁, course⟩ := r
    cases course with
    | waits state future => exact .waiting rfl ((hreap.waits rfl).2 rfl)
    | ends o =>
      dsimp only [Progress.andThen]
      split <;> exact .ends _ _

lemma steady_followListener (h : Tidy p s) {n : Nat} {l : Link} (hl : s.links[n]? = some l)
    {r : Connection Nat × List (Peer.Effect Nat) × Connection.Pause}
    (hr : l.connection.Within (s.Answers p l) r.1 r.2.1)
    (hout : l.connection.peer.Outward r.1.peer r.2.1) : Steady true (s.followListener n r) := by
  obtain ⟨c, effects, why⟩ := r
  have hall : Moves p .all s _ := moves_applyAll h hl hr hout.hands hout.confines
  unfold followListener
  dsimp only
  split
  · refine .waiting rfl ((h.moves hall).still_fresh rfl fun l hl w hw => ?_)
    obtain ⟨i, hi⟩ := Array.getElem?_of_mem hl
    simp only [updateLink, Array.getElem?_modify] at hi
    split at hi
    · obtain ⟨l₀, hl₀, rfl⟩ := Option.map_eq_some_iff.1 hi
      exact ⟨l₀, Array.mem_of_getElem? hl₀, hw⟩
    · exact ⟨l, Array.mem_of_getElem? hi, hw⟩
  · exact .ends _ _

lemma steady_resumeListening (h : Tidy p s) (n : Nat) (input : Outcome Value Failure) :
    Steady true (s.resumeListening n input) := by
  rw [resumeListening]
  split
  · next l hl =>
    exact steady_followListener h hl (Connection.within_resumeListening (h.answers hl) _ _ input)
      (Connection.outward_resumeListening _ _ _ _)
  · exact .ends _ _

lemma steady_beginListening (h : Tidy p s) (n : Nat) : Steady true (s.beginListening n) := by
  rw [beginListening]
  split
  · next l hl =>
    exact steady_followListener h hl (Connection.within_beginListening (h.answers hl) _ _)
      (Connection.outward_beginListening _ _ _)
  · exact .ends _ _

/-- What a routine is for does not change in its turns. -/
lemma steady_proceed (h : Tidy p s) (t : Id) (r : Routine) (hr : r.starts? = none)
    (input : Outcome Value Failure) : Steady r.helps (s.proceed t r input) := by
  cases r with
  | startup | startingUp => cases hr
  | readLine pid => exact steady_readLine h pid input
  | reap pid => exact steady_reap h pid input
  | drain key pid o => exact steady_drain h key pid o input
  | watch n => exact steady_watch h n input
  | listen n => exact steady_resumeListening h n input
  | sweeper => exact .pauseSweeper s
  | sweeperPausing timer =>
    cases input with
    | value v => exact .afterSweep _
    | failure e => exact .ends _ _
    | cancelled => exact .ends _ _
  | sweeperSweeping w => exact .afterSweep _
  | errand c q => exact .afterAsking _
  | asking a => exact .afterAsking _
  | leaving result d => exact .leave result _
  | _ => exact .within fun _ => rfl

/-! ## Turns that make moves only -/

lemma turns_within {σ : Type} {fits : Supervisor → σ → Prop} {wrap : σ → Routine}
    {r : Supervisor × Course σ} (h : Tidy p s) (hr : Turns p ω fits s r)
    (hwrap : ∀ {s state}, fits s state → Plain p s (wrap state)) :
    Turns p ω (Plain p) s (within wrap r) := hr.andThen h hwrap fun _ _ => .ends .refl _

lemma turns_leave (h : Tidy p s) {r : Supervisor × Course Shutdown}
    (hr : Turns p ω (Shutdown.Fits p) s r) (result : Outcome Value Failure) :
    Turns p ω (Plain p) s (leave result r) := by
  refine hr.andThen h (fun hd => ⟨hd, rfl, rfl⟩) fun o h => ?_
  split
  · exact .ends .refl _
  · exact .ends .refl _

lemma turns_afterAsking (h : Tidy p s) {r : Supervisor × Course Asking}
    (hr : Turns p ω (Asking.Fits p) s r) : Turns p ω (Plain p) s (afterAsking r) :=
  hr.andThen h (fun ha => ⟨ha.refs, ha.awaits, rfl⟩) fun o h => turns_leave h (turns_beginShutdown h) o

lemma turns_answered (h : Tidy p s) {r : Supervisor × Course Asking}
    (hr : Turns p ω (Asking.Fits p) s r) : Turns p ω (Plain p) s (within .answering r) := by
  refine turns_within h hr fun {_ a} ha => ⟨ha.refs, ?_, rfl⟩
  cases a with
  | opening r key u => exact absurd ha.awaits nofun
  | _ => rfl

/-- A routine whose turn makes moves only: it asks for no session that it has not asked for, and
starts no daemon. -/
def Routine.isPlain : Routine → Bool
  | .acquire _ | .ask _ _ | .errand _ _ | .startup _ | .startingUp _ _ => false
  | _ => true

/-- The request of a client goes on. -/
lemma turns_asking (h : Tidy p s) {a : Asking} (hrefs : ∀ x ∈ a.refs, s.kernel.Knows p x)
    (hallows : ∀ key, a.key? = some key → Allows p ω s key) (input : Outcome Value Failure) :
    Turns p ω (Asking.Fits p) s (s.resumeAsking t a input) := by
  by_cases hawaits : (Routine.asking a).awaits? = none
  · exact turns_resumeAsking h t ⟨hrefs, hawaits⟩ hallows input
  · cases a with
    | opening request key u =>
      exact turns_resumeOpening h t request (hallows _ rfl) key u input
    | _ => exact absurd rfl hawaits

lemma turns_proceed (h : Tidy p s) {r : Routine} {x : Option Id} (hfits : Fits p s t r x)
    (hplain : r.isPlain = true) (input : Outcome Value Failure) :
    Turns p .all (Plain p) s (s.proceed t r input) := by
  have hrefs := hfits.refs
  cases r with
  | startup | startingUp | acquire | ask | errand => cases hplain
  | readLine pid => exact turns_readLine h pid input
  | reap pid => exact turns_reap h pid input
  | drain key pid o => exact turns_drain h key pid o input
  | watch n => exact turns_watch h n input
  | listen n => exact turns_resumeListening h n input
  | acquiring key u =>
    exact turns_within h (turns_resumeAcquiring t key u input) False.elim
  | call n method args =>
    exact turns_within h (turns_beginCall h n method args) fun hst => ⟨hst, rfl, rfl⟩
  | calling n state =>
    exact turns_within h (turns_resumeCall h n hrefs input) fun hst => ⟨hst, rfl, rfl⟩
  | close key => exact turns_within h (turns_beginClosing h (allows_all key)) fun hc => ⟨hc, rfl, rfl⟩
  | closing c => exact turns_within h (turns_resumeClosing h hrefs input) fun hc => ⟨hc, rfl, rfl⟩
  | sweep now => exact turns_within h (turns_sweepFrom h _ _ _) fun hw => ⟨hw, rfl, rfl⟩
  | sweeping w => exact turns_within h (turns_resumeSweep h hrefs input) fun hw => ⟨hw, rfl, rfl⟩
  | sweeper => exact turns_pauseSweeper h
  | sweeperPausing timer => exact turns_resumeSweeper h timer input
  | sweeperSweeping w => exact turns_afterSweep h (turns_resumeSweep h hrefs input)
  | stop => exact turns_within h (turns_beginStop h) fun _ => ⟨nofun, rfl, rfl⟩
  | stopping => exact turns_within h (turns_resumeStop input) fun _ => ⟨nofun, rfl, rfl⟩
  | shutdown => exact turns_within h (turns_beginShutdown h) fun hd => ⟨hd, rfl, rfl⟩
  | shuttingDown d =>
    exact turns_within h (turns_resumeShutdown h hrefs input) fun hd => ⟨hd, rfl, rfl⟩
  | asking a => exact turns_afterAsking h (turns_asking h hrefs (fun key _ => allows_all key) input)
  | answering a => exact turns_answered h (turns_asking h hrefs (fun key _ => allows_all key) input)
  | leaving result d => exact turns_leave h (turns_resumeShutdown h hrefs input) result

variable {vacant : Text → Prop}

/-- A turn that makes moves only, from its begin to its end. -/
lemma Sound.turned (h : Sound p (some t) s) (hmark : p.mark? t = none)
    {r : Supervisor × Course Routine} (hr : Turns p ω (Plain p) s r) {helps : Bool}
    (hhelper : s.Helper t → helps = true) (hsteady : Steady helps r) :
    Turned p p t 0 vacant s (r.1.follow t r.2) := by
  have hsound := h.moves hr.moves
  obtain ⟨s', course⟩ := r
  refine Turned.moves ?_ hr.moves
  cases course with
  | waits state future =>
    obtain ⟨hfuture, hplain⟩ := hr.waits rfl
    obtain ⟨hkind, hstill⟩ := hsteady.waits rfl
    have hnone := Routine.child?_of_starts? hplain.starts
    exact hsound.suspend hfuture.1 hfuture.2.2 (fun hrelay => by simp [hfuture.2.1] at hrelay)
      { hplain.fits hmark _ with
        owned := fun hpid => absurd (hnone.symm.trans hpid) nofun
        helper := fun ht => hkind.trans (hhelper (h.helper_of_moves hr.moves ht))
        still := by
          rintro g hhelps ⟨⟩
          exact hstill (hkind.symm.trans hhelps)
        helps := fun hsome => absurd hnone hsome }
  | ends o => exact hsound.finish fun hkey => by simp [hmark] at hkey

/-! ## Turns of startups -/

/-- A startup goes on, once its daemon has been started. -/
lemma Sound.startupTurned (h : Sound p (some t) s) {project : Project}
    (hmark : p.mark? t = some (project.key s.cwd)) {child : Option Nat}
    {r : Supervisor × Course Startup} (hr : StartupTurns p ω (project.key s.cwd) child s r)
    (hhelper : ¬s.Helper t) : Turned p p t 0 vacant s
      ((within (.startingUp project) r).1.follow t (within (.startingUp project) r).2) := by
  have hsound := h.moves hr.moves
  have hcwd := (Moves.keeps hr.moves).cwd
  obtain ⟨s', course⟩ := r
  cases course with
  | waits state future =>
    obtain ⟨hfuture, hfits⟩ := hr.waits rfl
    refine Turned.moves ?_ (show Moves p ω s s' from hr.moves)
    exact hsound.suspend (r := .startingUp project state) hfuture.1 hfuture.2.2
      (fun hrelay => by simp [hfuture.2.1] at hrelay)
      { refs := hfits.refs
        mark := by rw [hmark, ← hcwd]; rfl
        child := by
          rintro pid ⟨⟩
          exact hfits.child
        awaits := nofun
        idle := nofun
        owned := by
          rintro pid ⟨⟩
          exact hfits.unowned.ownedBy t
        helper := fun ht => absurd (h.helper_of_moves hr.moves ht) hhelper
        still := nofun
        helps := fun _ => hfits.helps }
  | ends o =>
    refine Turned.moves ?_ (show Moves p ω s s' from hr.moves)
    exact hsound.finish (o := o) fun {key v} hkey ho => by
      cases hmark.symm.trans hkey
      obtain ⟨n, x, hv, hx, hkey, -⟩ := hr.session (congrArg Progress.ends ho)
      exact ⟨n, x, hv, hx, hkey⟩

/-- The process of the next daemon belongs to nobody. -/
lemma Sound.unowned_next (h : Sound p running s) : s.Unowned (firstPid + s.attempts) :=
  ⟨fun ha hr hpid => absurd (h.pid_lt ((h.fits ha hr).child hpid)) (Nat.lt_irrefl _),
    fun hx => Nat.ne_of_lt (h.pid_lt (h.opened hx).2)⟩

/-- The first turn of a startup starts one daemon. -/
lemma Sound.startupBegun (h : Sound p (some t) s) {project : Project}
    (hmark : p.mark? t = some (project.key s.cwd)) (hhelper : ¬s.Helper t) :
    Turned p p t 1 vacant s ((within (.startingUp project) (s.beginStartup project)).1.follow t
      (within (.startingUp project) (s.beginStartup project)).2) := by
  obtain ⟨child, s', hlaunched, hturns⟩ := turns_beginStartup (ω := .all) h.toTidy project h.unowned_next
  have hcwd := hlaunched.keeps.cwd
  have hend : Turned p p t 0 vacant s' _ :=
    (h.launched hlaunched).startupTurned (hcwd ▸ hmark) (hcwd.symm ▸ hturns) fun ht =>
      hhelper (h.helper_of_grows (.of_eq hlaunched.opened hlaunched.links)
        (Kernel.Acts.grows hlaunched.acts) (fun _ hr => hr.child) ht)
  have hon : Onward p p (some t) s s' :=
    .of_quiet hlaunched.keeps (.of_eq hlaunched.links) (Kernel.Acts.grows hlaunched.acts)
  exact hend.after hon (fun hu => .inl (hlaunched.slots ▸ hu)) hlaunched.attempts

/-! ## Turns of those that ask for a session -/

lemma andThen_assoc {ω σ τ υ α β γ ε : Type} (part : ω × Progress σ α ε) (wrap : σ → τ)
    (next : ω → Outcome α ε → ω × Progress τ β ε) (wrap' : τ → υ)
    (next' : ω → Outcome β ε → ω × Progress υ γ ε) :
    Progress.andThen (Progress.andThen part wrap next) wrap' next' =
      Progress.andThen part (wrap' ∘ wrap) fun w o => Progress.andThen (next w o) wrap' next' := by
  obtain ⟨w, course⟩ := part
  cases course <;> rfl

/-- A caller has asked for the session of a project. -/
structure Acquired (p p' : Plan) (t : Id) (s : Supervisor) (r : Supervisor × Course (Text × Id)) :
    Prop where
  sound : Sound p' (some t) r.1
  onward : Onward p p' (some t) s r.1
  waits : ∀ {x g}, r.2 = .waits x g → g < r.1.kernel.futures.size ∧ p'.mark? g = none ∧
    p'.relay? g = some (t, x.2) ∧ r.1.kernel.outcome? g = none ∧ p'.mark? x.2 = some x.1
  fills : ∀ {key u}, r.1.slots.get? key = some u →
    s.slots.get? key = some u ∨ s.Vacant key ∧ s.kernel.futures.size ≤ u
  attempts : r.1.attempts = s.attempts
  helper : r.1.Helper t → s.Helper t

/-- The startup of a project is found, or begun if the slot is vacant. -/
lemma Sound.startupFor (h : Sound p (some t) s) (project : Project) :
    ∃ p', Sound p' (some t) (s.startupFor project).1 ∧
      Onward p p' (some t) s (s.startupFor project).1 ∧
      p'.mark? (s.startupFor project).2 = some (project.key s.cwd) ∧
      (∀ {key u}, (s.startupFor project).1.slots.get? key = some u →
        s.slots.get? key = some u ∨ s.Vacant key ∧ s.kernel.futures.size ≤ u) ∧
      (s.startupFor project).1.attempts = s.attempts ∧ (s.startupFor project).1.cwd = s.cwd ∧
      ((s.startupFor project).1.Helper t → s.Helper t) := by
  rw [startupFor_eq]
  cases husable : s.usable? (project.key s.cwd) with
  | some u =>
    have hslot : s.slots.get? (project.key s.cwd) = some u := (Option.filter_eq_some_iff.1 husable).1
    exact ⟨p, h, .refl s, h.slots hslot, .inl, rfl, rfl, id⟩
  | none =>
    have hvacant : s.Vacant (project.key s.cwd) := fun u hslot => h.spent hslot husable
    refine ⟨_, h.fillSlot project fun u hslot => (hvacant u hslot).isDone,
      .of_grows (extends_marking _ _) (keeps_fillSlot s project) (.of_eq rfl) (grows_fillSlot s project)
        (fun _ => And.right) fun {u} hnone hsome => ?_,
      if_pos rfl, fun {key u} hu => ?_, rfl, rfl,
      h.helper_of_grows (.of_eq rfl rfl) (grows_fillSlot s project) fun _ => And.left⟩
    · by_cases hu : u = s.kernel.futures.size
      · exact ⟨_, _, activity?_fillSlot.trans (if_pos hu), rfl, rfl⟩
      · exact absurd ((if_neg hu).trans hnone) hsome
    · by_cases hkey : key = project.key s.cwd
      · subst hkey
        cases (get?_fillSlot_self s project).symm.trans hu
        exact .inr ⟨hvacant, Nat.le_refl _⟩
      · exact .inl (get?_fillSlot_of_ne hkey ▸ hu)

lemma Sound.beginAcquiring (h : Sound p (some t) s) (project : Project) :
    ∃ p', Acquired p p' t s (s.beginAcquiring project) := by
  obtain ⟨p₁, hsound, hon, hmark, hfills, hattempts, hcwd, hhelper⟩ := h.startupFor project
  rw [Supervisor.beginAcquiring]
  generalize s.startupFor project = r at hsound hon hmark hfills hattempts hcwd hhelper ⊢
  obtain ⟨s₁, u⟩ := r
  dsimp only at hsound hon hmark hfills hattempts hcwd hhelper ⊢
  cases ho : s₁.kernel.outcome? u with
  | some o => exact ⟨p₁, hsound, hon, nofun, hfills, hattempts, hhelper⟩
  | none =>
    have hnone := Kernel.isDone_eq_false_iff.2 ho
    have hfollow := hsound.followOutcome t (by simp [hmark]) hnone
    have hsame : (s₁.followOutcome u).Helper t → s₁.Helper t :=
      hsound.helper_of_grows (.of_eq rfl rfl) (grows_followOutcome s₁ u) fun _ hr => hr.child
    refine ⟨_, hfollow, hon.trans (.of_grows (extends_relaying _ _ _) { Keeps.refl s₁ with }
      (.of_eq rfl) (grows_followOutcome s₁ u) (fun _ hr => hr.begins)
      fun hnone hsome => absurd hnone hsome), ?_, hfills, hattempts, hhelper ∘ hsame⟩
    rintro x g ⟨⟩
    have hfresh := (Kernel.views_of_size_le (Nat.le_refl s₁.kernel.futures.size)).1
    refine ⟨?_, hsound.follows.free_size.2, if_pos rfl, outcome?_followOutcome.trans hfresh, ?_⟩
    · exact Nat.lt_of_lt_of_eq (Nat.lt_succ_self _) size_followOutcome.symm
    · exact hmark.trans (congrArg some (congrArg (project.key ·) hcwd.symm))

/-- A caller waits for a startup, or goes on at once. -/
lemma Sound.acquire (h : Sound p (some t) s) (hmark : p.mark? t = none) (hhelper : ¬s.Helper t)
    (project : Project)
    (wrap : Text × Id → Routine)
    (next : Supervisor → Outcome Value Failure → Supervisor × Course Routine)
    (hawaits : ∀ x, (wrap x).awaits? = some x) (hrefs : ∀ x, (wrap x).refs = [])
    (hstarts : ∀ x, (wrap x).starts? = none) (hhelps : ∀ x, (wrap x).helps = false)
    (hnext : ∀ {p' s'} o, Tidy p' s' → Turns p' ω (Plain p') s' (next s' o))
    (hsteady : ∀ s o, Steady false (next s o)) :
    ∃ p', Turned p p' t 0 s.Vacant s
      ((Progress.andThen (s.beginAcquiring project) wrap next).1.follow t
        (Progress.andThen (s.beginAcquiring project) wrap next).2) := by
  obtain ⟨p', hacquired⟩ := h.beginAcquiring project
  generalize s.beginAcquiring project = r at hacquired ⊢
  obtain ⟨s₁, course⟩ := r
  have hlt := h.lt_size_of_running t rfl
  have hmark' : p'.mark? t = none := (hacquired.onward.plan.mark t hlt).trans hmark
  have hend : Turned p' p' t 0 s.Vacant s₁
      ((Progress.andThen (s₁, course) wrap next).1.follow t
        (Progress.andThen (s₁, course) wrap next).2) := by
    cases course with
    | waits x g =>
      obtain ⟨hg, hmarkg, hrelay, hnone, hkey⟩ := hacquired.waits rfl
      refine hacquired.sound.suspend hg hmarkg (fun hcu => ?_)
        { refs := fun y hy => by simp [hrefs] at hy
          mark := by rw [hmark', hstarts]; rfl
          child := fun hpid => by simp [Routine.child?_of_starts? (hstarts x)] at hpid
          awaits := fun haw => ?_
          idle := fun heq => by simpa [heq, Routine.starts?] using hstarts x
          owned := fun hpid => by simp [Routine.child?_of_starts? (hstarts x)] at hpid
          helper := fun ht => absurd (hacquired.helper ht) hhelper
          still := fun hkind => by simp [hhelps] at hkind
          helps := fun hsome => absurd (Routine.child?_of_starts? (hstarts x)) hsome }
      · cases hrelay.symm.trans hcu
        exact ⟨rfl, hnone⟩
      · cases (hawaits x).symm.trans haw
        exact ⟨g, rfl, hrelay, hkey⟩
    | ends o =>
      exact hacquired.sound.turned hmark' (hnext o hacquired.sound.toTidy)
        (fun ht => absurd (hacquired.helper ht) hhelper) (hsteady s₁ o)
  exact ⟨p', hend.after (m := 0) hacquired.onward hacquired.fills hacquired.attempts⟩

lemma vacant_of_start {key : Text} (h : s.start.Vacant key) : s.Vacant key := by
  rw [start] at h
  split at h
  · exact h
  · exact fun u hu => (h u hu).of_eq (fun ho => Kernel.outcome?_spawn.symm.trans ho) rfl rfl rfl

/-- The request of a client asks for a session in its first turn, if at all. -/
lemma Sound.beginAsking (h : Sound p (some t) s) (hmark : p.mark? t = none) (hhelper : ¬s.Helper t)
    (c : Client) (q : Query) (wrap : Asking → Routine)
    (next : Supervisor → Outcome Value Failure → Supervisor × Course Routine)
    (hawaits : ∀ r x, (wrap (.opening r x.1 x.2)).awaits? = some x)
    (hrefs : ∀ r key u, (wrap (.opening r key u)).refs = [])
    (hstarts : ∀ a, (wrap a).starts? = none) (hhelps : ∀ a, (wrap a).helps = false)
    (hturns : ∀ {p' s'} {r : Supervisor × Course Asking}, Tidy p' s' →
      Turns p' .all (Asking.Fits p') s' r → Turns p' .all (Plain p') s' (Progress.andThen r wrap next))
    (hsteady : ∀ r : Supervisor × Course Asking, Steady false (Progress.andThen r wrap next)) :
    ∃ p', Turned p p' t 0 s.Vacant s
      ((Progress.andThen (s.beginAsking c q) wrap next).1.follow t
        (Progress.andThen (s.beginAsking c q) wrap next).2) := by
  rw [Supervisor.beginAsking]
  rcases Client.Request.begin_eq c q with hnext | hnext
  · have hasking : Turns p .all (Asking.Fits p) s (s.pursue needs (.ends (.ok []), [])) :=
      turns_pursue h.toTidy needs trivial (allows_all [])
    rw [hnext]
    exact ⟨p, h.turned hmark (hturns h.toTidy hasking) (fun ht => absurd ht hhelper) (hsteady _)⟩
  · have hlog : Moves p .all s (s.report []) := moves_report []
    rw [hnext, show needs = 3 + 1 from rfl, pursue_session, andThen_assoc]
    obtain ⟨p', hturned⟩ := (h.moves hlog).acquire hmark
      (fun ht => hhelper (h.helper_of_moves hlog ht)) (c.resolve q.file)
      (wrap ∘ fun x => .opening _ x.1 x.2) (fun s o => Progress.andThen (onOpened _ 3 s o) wrap next)
      (hawaits _) (fun x => hrefs _ x.1 x.2) (fun _ => hstarts _) (fun _ => hhelps _)
      (fun o h => hturns h (turns_onOpened h _ (allows_all _) 3 o)) fun _ _ => hsteady _
    have hvacant : ∀ {key}, (s.report []).Vacant key → s.Vacant key := fun hv u hu =>
      (hv u hu).of_eq id rfl rfl rfl
    exact ⟨p', (hturned.mono hvacant).moves hlog⟩

lemma Sound.ask (h : Sound p (some t) s) (hmark : p.mark? t = none) (hhelper : ¬s.Helper t)
    (c : Client) (q : Query) :
    ∃ p', Turned p p' t 0 s.Vacant s
      ((within .answering (s.beginAsking c q)).1.follow t
        (within .answering (s.beginAsking c q)).2) :=
  h.beginAsking hmark hhelper c q .answering _ (fun _ _ => rfl) (fun _ _ _ => rfl) (fun _ => rfl)
    (fun _ => rfl) (fun h hr => turns_answered h hr) fun _ => .within fun _ => rfl

lemma Sound.errand (h : Sound p (some t) s) (hmark : p.mark? t = none) (hhelper : ¬s.Helper t)
    (c : Client) (q : Query) :
    ∃ p', Turned p p' t 0 s.Vacant s
      ((afterAsking (s.start.beginAsking c q)).1.follow t
        (afterAsking (s.start.beginAsking c q)).2) := by
  have hstart : Moves p .all s s.start := moves_start h.toTidy
  obtain ⟨p', hturned⟩ := (h.moves hstart).beginAsking hmark
    (fun ht => hhelper (h.helper_of_moves hstart ht)) c q .asking _ (fun _ _ => rfl)
    (fun _ _ _ => rfl) (fun _ => rfl) (fun _ => rfl) (fun h hr => turns_afterAsking h hr)
    .afterAsking
  exact ⟨p', (hturned.mono vacant_of_start).moves hstart⟩

/-! ## All turns -/

/-- The keys of the projects whose daemons a task starts in its turn. -/
def Routine.launches (cwd : Text) : Routine → List Text
  | .startup project => [project.key cwd]
  | _ => []

/-- The task `t` has stood at `r`. -/
structure Stood (p : Plan) (s : Supervisor) (t : Id) (r : Routine) : Prop where
  fits : ∃ x, Fits p s t r x
  unowned : ∀ {pid}, r.child? = some pid → s.Unowned pid
  helper : s.Helper t → r.helps = true
  helps : r.child? ≠ none → ∀ y ∈ r.refs, s.Helps y

/-- Whatever a task does in its turn. -/
theorem Sound.proceed (h : Sound p (some t) s) {r : Routine} (hstood : Stood p s t r)
    (input : Outcome Value Failure) :
    ∃ p', Turned p p' t (r.launches s.cwd).length s.Vacant s
      ((s.proceed t r input).1.follow t (s.proceed t r input).2) := by
  obtain ⟨x, hfits⟩ := hstood.fits
  have hmark := hfits.mark
  have hhelper : r.helps = false → ¬s.Helper t := fun hr ht => by simp [hstood.helper ht] at hr
  by_cases hplain : r.isPlain = true
  · have hnone : p.mark? t = none ∧ r.launches s.cwd = [] := by
      cases r <;> first | exact ⟨hmark, rfl⟩ | cases hplain
    rw [hnone.2]
    have hstarts : r.starts? = none := by cases r <;> first | rfl | cases hplain
    exact ⟨p, h.turned hnone.1 (turns_proceed h.toTidy hfits hplain input) hstood.helper
      (steady_proceed h.toTidy t r hstarts input)⟩
  · cases r with
    | startup project => exact ⟨p, h.startupBegun hmark (hhelper rfl)⟩
    | startingUp project state =>
      have hstate : state.Fits p s :=
        ⟨hfits.refs, hfits.child rfl, hstood.unowned rfl, hstood.helps nofun⟩
      have hturns : StartupTurns p .all (project.key s.cwd) (some state.pid) s
          (s.resumeStartup project state input) := turns_resumeStartup h.toTidy project hstate input
      exact ⟨p, h.startupTurned hmark hturns (hhelper rfl)⟩
    | acquire project =>
      exact h.acquire hmark (hhelper rfl) project _ _ (fun _ => rfl) (fun _ => rfl) (fun _ => rfl)
        (fun _ => rfl) (fun _ _ => .ends (Moves.refl : Moves _ .all _ _) _) .ends
    | ask c q => exact h.ask hmark (hhelper rfl) c q
    | errand c q => exact h.errand hmark (hhelper rfl) c q
    | _ => exact absurd rfl hplain

/-- Whatever a task does in its first turn. -/
theorem Sound.begin (h : Sound p (some t) s) {r : Routine} (hstood : Stood p s t r) :
    ∃ p', Turned p p' t (r.launches s.cwd).length s.Vacant s (s.begin t r) := by
  cases r with
  | listen n =>
    obtain ⟨x, hfits⟩ := hstood.fits
    have hturns : Turns p .all (Plain p) s (s.beginListening n) := turns_beginListening h.toTidy n
    exact ⟨p, h.turned hfits.mark hturns hstood.helper (steady_beginListening h.toTidy n)⟩
  | _ => exact h.proceed hstood (.value .unit)

end SuggestBridge.Supervisor
