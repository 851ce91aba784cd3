import SuggestBridge.Proofs.Supervisor.Requests

/-!
# Supervisors in order

`Sound` is what holds of a supervisor at any time: every task stands where the plan puts it, a
startup is in the slot of its key exactly as long as nobody has asked it to cancel, and a startup
that ended well ended with a session of its key.  Moves keep this, and so do the things that moves
leave out: a daemon is started, a startup is put into a slot, somebody begins to wait for it.
-/

namespace SuggestBridge.Supervisor

open SuggestBridge.Task

variable {p p' : Plan} {ω : Warrant} {s s' : Supervisor} {k : Machine} {running : Option Id} {t : Id}

/-- The task `t` stands at `r` and waits for `x`, in line with the plan. -/
structure Fits (p : Plan) (s : Supervisor) (t : Id) (r : Routine) (x : Option Id) : Prop where
  refs : ∀ y ∈ r.refs, s.kernel.Knows p y
  mark : p.mark? t = r.starts?.map (Project.key s.cwd)
  child : ∀ {pid}, r.child? = some pid → (s.process? pid).isSome = true
  awaits : ∀ {key u}, r.awaits? = some (key, u) →
    ∃ g, x = some g ∧ p.relay? g = some (t, u) ∧ p.mark? u = some key
  idle : ∀ {project}, r = .startup project → x = none

/-- A task that somebody else may ask to cancel on the way: it listens on a connection, or a startup
waits for it. -/
inductive Helper (s : Supervisor) (t : Id) : Prop where
  | listener {l : Link} (link : l ∈ s.links) (listener : l.connection.listener = some t)
  | child {u : Id} {a : Activity Routine} {r : Routine} (activity : s.kernel.activity? u = some a)
      (body : a.body = some r) (child : r.child? ≠ none) (refs : t ∈ r.refs)

/-- A future through which no call waits, and which passes a request to cancel on to nobody. -/
structure Still (s : Supervisor) (g : Id) : Prop where
  leaf : s.kernel.Leaf g
  uncalled : Uncalled s.links g

/-- What holds of a supervisor while a task runs, or while none does. -/
structure Sound (p : Plan) (running : Option Id) (s : Supervisor) : Prop extends Tidy p s where
  waking : s.kernel.Waking running
  runs : ∀ t, running = some t → ∃ a, s.kernel.activity? t = some a ∧ a.body = none
  fits : ∀ {t a r}, s.kernel.activity? t = some a → a.body = some r → Fits p s t r a.waitingFor
  active : ∀ {u}, p.mark? u ≠ none → s.kernel.isDone u = false → ∃ a, s.kernel.activity? u = some a
  held : ∀ {u key a}, p.mark? u = some key → s.kernel.activity? u = some a →
    (a.cancelRequests = 0 ↔ s.slots.get? key = some u)
  ended : ∀ {u key v}, p.mark? u = some key → s.kernel.outcome? u = some (.value v) →
    ∃ (n : Nat) (x : Session), v = .session n ∧ s.opened[n]? = some x ∧ x.key = key
  owned : ∀ {t a r pid}, s.kernel.activity? t = some a → a.body = some r → r.child? = some pid →
    s.OwnedBy t pid
  helpers : ∀ {t}, s.Helper t → s.Helps t
  still : ∀ {t a r g}, s.kernel.activity? t = some a → a.body = some r → r.helps = true →
    a.waitingFor = some g → s.Still g

/-! ## Where tasks stand -/

lemma Routine.child?_of_starts? {r : Routine} (h : r.starts? = none) : r.child? = none := by
  cases r <;> first | rfl | cases h

lemma Fits.extends {r : Routine} {x : Option Id} (h : Fits p s t r x) (hf : s.kernel.Follows p)
    (ht : t < s.kernel.futures.size) (hwide : s.kernel.Widens s'.kernel)
    (hp : p.Extends p' s.kernel.futures.size) (hkeeps : Keeps s s') : Fits p' s' t r x where
  refs y hy := (h.refs y hy).extends hwide hp
  mark := by rw [hp.mark t ht, h.mark, hkeeps.cwd]
  child hpid := hkeeps.process (h.child hpid)
  awaits haw := by
    obtain ⟨g, hg, hrelay, hmark⟩ := h.awaits haw
    refine ⟨g, hg, (hp.relay g (hf.relay_lt hrelay)).trans hrelay, ?_⟩
    exact (hp.mark _ (hf.marks (by simp [hmark]))).trans hmark
  idle := h.idle

/-- A task that starts no daemon and waits for no startup. -/
lemma Plain.fits {r : Routine} (h : Plain p s r) (hmark : p.mark? t = none) (x : Option Id) :
    Fits p s t r x where
  refs := h.refs
  mark := by rw [hmark, h.starts]; rfl
  child hpid := by simp [Routine.child?_of_starts? h.starts] at hpid
  awaits haw := by simp [h.awaits] at haw
  idle hr := by simpa [hr, Routine.starts?] using h.starts

lemma Routine.Quiet.plain {r : Routine} (h : r.Quiet) : Plain p s r :=
  ⟨fun y hy => by simp [h.refs] at hy, h.awaits, h.starts⟩

/-- The kernel moves on, and no call waits through other futures than before. -/
lemma Still.widens {g : Id} (h : s.Still g) (hwide : s.kernel.Widens s'.kernel)
    (hcalls : ∀ l ∈ s'.links, l.Calls g → ∃ l₀ ∈ s.links, l₀.Calls g) : s'.Still g where
  leaf := hwide.leaf h.leaf
  uncalled l hl hw := by
    obtain ⟨l₀, hl₀, hw⟩ := hcalls l hl hw
    exact h.uncalled l₀ hl₀ hw

namespace Sound

/-- Those that may be asked to cancel on the way are known. -/
lemma knows_helper (h : Sound p running s) (ht : s.Helper t) : s.kernel.Knows p t := by
  cases ht with
  | listener hl hlistener => exact (h.links _ hl).listener t hlistener
  | child ha hr _ hrefs => exact (h.fits ha hr).refs t hrefs

/-- The running task goes on running. -/
lemma runs_of_grows {quiet : Routine → Prop} (h : Sound p running s)
    (hgrows : Kernel.Grows quiet s.kernel s'.kernel) (t : Id) (ht : running = some t) :
    ∃ a, s'.kernel.activity? t = some a ∧ a.body = none := by
  obtain ⟨a, ha, hbody⟩ := h.runs t ht
  obtain ⟨b, hb, hbody', -⟩ := hgrows.kept ha
  exact ⟨b, hb, hbody'.trans hbody⟩

/-- Tasks are begun and futures settled, and more is planned. -/
lemma replan {quiet : Routine → Prop} {running' : Option Id} (h : Sound p running s)
    (htidy : Tidy p' s') (hwaking : s'.kernel.Waking running')
    (hruns : ∀ t, running' = some t → ∃ a, s'.kernel.activity? t = some a ∧ a.body = none)
    (hp : p.Extends p' s.kernel.futures.size) (hkeeps : Keeps s s') (harises : Arises s s')
    (hgrows : Kernel.Grows quiet s.kernel s'.kernel) (hchild : ∀ r, quiet r → r.child? = none)
    (hnew : ∀ {t a r}, s'.kernel.activity? t = some a → s.kernel.futures.size ≤ t →
      a.body = some r → Fits p' s' t r a.waitingFor)
    (hmarks : ∀ {u}, p'.mark? u ≠ none → s.kernel.futures.size ≤ u →
      ∃ a, s'.kernel.activity? u = some a)
    (hheld : ∀ {u key a}, p'.mark? u = some key → s'.kernel.activity? u = some a →
      (a.cancelRequests = 0 ↔ s'.slots.get? key = some u)) : Sound p' running' s' := by
  have hactive : ∀ {u}, p'.mark? u ≠ none → s'.kernel.isDone u = false →
      ∃ a, s'.kernel.activity? u = some a := by
    intro u hu hnone
    by_cases hlt : u < s.kernel.futures.size
    · rw [hp.mark u hlt] at hu
      have hbefore : s.kernel.isDone u = false := by
        by_contra hdone
        obtain ⟨o, ho⟩ := Kernel.isDone_eq_true_iff.1 (by simpa using hdone)
        rw [Kernel.isDone, hgrows.outcome ho] at hnone
        cases hnone
      obtain ⟨a, ha⟩ := h.active hu hbefore
      obtain ⟨b, hb, -⟩ := hgrows.kept ha
      exact ⟨b, hb⟩
    · exact hmarks hu (Nat.le_of_not_lt hlt)
  have hback : ∀ {t b r pid}, s'.kernel.activity? t = some b → b.body = some r →
      r.child? = some pid → ∃ a, s.kernel.activity? t = some a ∧ a.body = some r := by
    intro t b r pid hb hr hpid
    rcases hgrows.begun hb with ⟨a, ha⟩ | ⟨-, -, r', hr', hquiet⟩
    · obtain ⟨c, hc, hbody, -⟩ := hgrows.kept ha
      cases hb.symm.trans hc
      exact ⟨a, ha, hbody.symm.trans hr⟩
    · cases hr.symm.trans hr'
      simp [hchild r hquiet] at hpid
  refine { htidy with waking := hwaking, runs := hruns, fits := ?_, active := hactive, held := hheld,
                      ended := ?_, owned := ?_, helpers := ?_, still := ?_ }
  · intro t b r hb hbody
    rcases hgrows.begun hb with ⟨a, ha⟩ | ⟨hle, -⟩
    · obtain ⟨c, hc, hbody', hwaiting, -⟩ := hgrows.kept ha
      rw [hb] at hc
      cases hc
      have hfits := h.fits ha (hbody'.symm.trans hbody)
      rw [hwaiting]
      exact hfits.extends h.follows (Kernel.lt_size_of_activity? ha) hgrows.toWidens hp hkeeps
    · exact hnew hb hle hbody
  · intro u key v hu hv
    -- a marked task that has only now an outcome would still be active
    by_cases hlt : u < s.kernel.futures.size
    · rw [hp.mark u hlt] at hu
      cases ho : s.kernel.outcome? u with
      | some o =>
        rw [hgrows.outcome ho] at hv
        cases hv
        obtain ⟨n, x, hn, hx, hkey⟩ := h.ended hu ho
        obtain ⟨y, hy, hkey', -⟩ := hkeeps.opened hx
        exact ⟨n, y, hn, hy, hkey'.trans hkey⟩
      | none =>
        obtain ⟨a, ha⟩ := h.active (by simp [hu]) (Kernel.isDone_eq_false_iff.2 ho)
        obtain ⟨b, hb, -⟩ := hgrows.kept ha
        simp [hwaking.unsettled hb] at hv
    · obtain ⟨a, ha⟩ := hmarks (by simp [hu]) (Nat.le_of_not_lt hlt)
      simp [hwaking.unsettled ha] at hv
  · intro t b r pid hb hr hpid
    obtain ⟨a, ha, hr'⟩ := hback hb hr hpid
    have howned := h.owned ha hr' hpid
    refine ⟨fun {u c r₁} hne hc hr₁ hpid₁ => ?_, fun hy hpid₁ => ?_⟩
    · obtain ⟨d, hd, hr₂⟩ := hback hc hr₁ hpid₁
      exact howned.startups hne hd hr₂ hpid₁
    · rcases harises.sessions hy with ⟨x, hx, heq⟩ | hunowned
      · exact howned.sessions hx (heq.trans hpid₁)
      · exact hunowned.startups ha hr' (hpid₁ ▸ hpid)
  · intro t ht
    have hold : s.Helper t → s'.Helps t := fun ht =>
      (h.helpers ht).of_grows (h.knows_helper ht).1 hgrows
    cases ht with
    | listener hl hlistener =>
      rcases harises.listeners _ hl t hlistener with ⟨l₀, hl₀, hlistener⟩ | ⟨a, r, ha, hr, hhelps⟩
      · exact hold (.listener hl₀ hlistener)
      · obtain ⟨b, hb, hbody, -⟩ := hgrows.kept ha
        exact .of_body hb (hbody.trans hr) hhelps
    | child hb hr hsome hrefs =>
      obtain ⟨pid, hpid⟩ := Option.ne_none_iff_exists'.1 hsome
      obtain ⟨a, ha, hr'⟩ := hback hb hr hpid
      exact hold (.child ha hr' hsome hrefs)
  · intro t b r g hb hr hhelps hwait
    rcases hgrows.begun hb with ⟨a, ha⟩ | ⟨-, hidle, -⟩
    · obtain ⟨c, hc, hbody, hwaiting, -⟩ := hgrows.kept ha
      cases hb.symm.trans hc
      have hwait' := hwaiting.symm.trans hwait
      refine (h.still ha (hbody.symm.trans hr) hhelps hwait').widens hgrows.toWidens fun l hl hw => ?_
      exact (harises.calls l hl g hw).resolve_right fun hunused => hunused.tasks ha hwait'
    · cases hidle.symm.trans hwait

/-- Tasks that start no daemon are begun, and futures settled. -/
lemma grow (h : Sound p running s) (htidy : Tidy p s') (hwaking : s'.kernel.Waking running)
    (hkeeps : Keeps s s') (harises : Arises s s')
    (hgrows : Kernel.Grows Routine.Quiet s.kernel s'.kernel)
    (hheld : ∀ {u key a}, p.mark? u = some key → s'.kernel.activity? u = some a →
      (a.cancelRequests = 0 ↔ s'.slots.get? key = some u)) : Sound p running s' := by
  have hold : ∀ {u}, p.mark? u ≠ none → ¬s.kernel.futures.size ≤ u := fun hu =>
    Nat.not_le.2 (h.follows.marks hu)
  refine h.replan htidy hwaking (h.runs_of_grows hgrows) (.refl p _) hkeeps harises hgrows
    (fun _ hr => hr.child) (fun {t b r} hb hle hbody => ?_)
    (fun hu hle => absurd hle (hold hu)) hheld
  rcases hgrows.begun hb with ⟨a, ha⟩ | ⟨-, hidle, r', hr', hquiet⟩
  · exact absurd hle (Nat.not_le.2 (Kernel.lt_size_of_activity? ha))
  · cases hbody.symm.trans hr'
    have hmark : p.mark? t = none := by
      by_contra hne
      exact hold hne hle
    exact Plain.fits hquiet.plain hmark _

/-- A task of a slot that has ended is active no more. -/
lemma not_active_of_isDone (h : Sound p running s) {u : Id} (hu : s.kernel.isDone u = true)
    (a : Activity Routine) : s.kernel.activity? u ≠ some a := by
  intro ha
  simp [Kernel.isDone, h.waking.unsettled ha] at hu

/-! ## Moves -/

lemma lt_size_of_running (h : Sound p running s) (t : Id) (ht : running = some t) :
    t < s.kernel.futures.size := by
  obtain ⟨a, ha, -⟩ := h.runs t ht
  exact Kernel.lt_size_of_activity? ha

/-- The kernel is used, in such a way that no marked task is concerned. -/
lemma acts (h : Sound p running s) (htidy : Tidy p s') (hkeeps : Keeps s s') (harises : Arises s s')
    (hacts : Kernel.Acts p Routine.Quiet s.kernel s'.kernel) (hslots : s'.slots = s.slots) :
    Sound p running s' := by
  refine h.grow htidy (Kernel.Acts.waking hacts h.waking h.lt_size_of_running) hkeeps harises
    (Kernel.Acts.grows hacts) fun {u key a} hu ha => ?_
  rw [Kernel.Acts.marked hacts h.follows (by simp [hu])] at ha
  rw [hslots]
  exact h.held hu ha

lemma move (h : Sound p running s) (hmove : Move p ω s s') : Sound p running s' := by
  have htidy := h.toTidy.move hmove
  have hkeeps := hmove.keeps
  have harises := hmove.arises
  cases hmove with
  | kernel hacts => exact h.acts htidy hkeeps harises hacts rfl
  | @vacate key u hslot hdone =>
    refine h.grow htidy h.waking hkeeps harises (.refl _) fun {v key' a} hv ha => ?_
    rw [h.held hv ha]
    refine ⟨fun hget => ?_, fun hget => (Slots.get?_erase_eq_some hget).2⟩
    have hne : key' ≠ key := by
      rintro rfl
      rw [hslot] at hget
      cases hget
      exact h.not_active_of_isDone hdone a ha
    rwa [Slots.get?_erase_of_ne _ hne]
  | @close key u hslot hgoing =>
    have hu := h.slots hslot
    refine h.grow htidy h.waking.cancel hkeeps harises (.cancel _ _) fun {v key' b} hv hb => ?_
    by_cases hvu : v = u
    · subst hvu
      cases hu.symm.trans hv
      obtain ⟨a, ha⟩ := h.active (by simp [hu]) hgoing
      obtain ⟨c, hc, hasked⟩ := Kernel.asked_of_cancel ha (Kernel.isDone_eq_false_iff.1 hgoing)
      rw [hb] at hc
      cases hc
      simp [hasked, Slots.get?_erase_self]
    · rw [(h.spares hslot).marked (by simp [hv]) hvu] at hb
      rw [h.held hv hb]
      refine ⟨fun hget => ?_, fun hget => (Slots.get?_erase_eq_some hget).2⟩
      have hne : key' ≠ key := by
        rintro rfl
        rw [hslot] at hget
        cases hget
        exact hvu rfl
      rwa [Slots.get?_erase_of_ne _ hne]
  | _ => exact h.acts htidy hkeeps harises .refl rfl

lemma steps (h : Sound p running s) (hsteps : Steps p ω s s') : Sound p running s' := by
  induction hsteps with
  | refl => exact h
  | tail _ hmove ih => exact ih.move hmove

lemma moves (h : Sound p running s) (hmoves : Moves p ω s s') : Sound p running s' :=
  h.steps hmoves.steps

lemma launched (h : Sound p running s) {child : Option Nat} (hl : Launched p child s s') :
    Sound p running s' :=
  h.acts hl.tidy hl.keeps (.of_eq hl.opened hl.links) hl.acts hl.slots

end Sound

/-! ## A startup is put into a slot -/

/-- The plan in which the task `u` starts the daemon of a key. -/
def marking (p : Plan) (u : Id) (key : Text) : Plan :=
  { p with mark? := fun x => if x = u then some key else p.mark? x }

lemma extends_marking (u : Id) (key : Text) : p.Extends (marking p u key) u where
  relay _ _ := rfl
  mark _ hx := if_neg (Nat.ne_of_lt hx)

/-- A startup is begun and put into the slot of its key. -/
def fillSlot (s : Supervisor) (project : Project) : Supervisor :=
  { s with
    kernel := (s.kernel.spawn (.startup project)).1.watch s.kernel.futures.size
      (.hook (.startupEnded (project.key s.cwd)))
    slots := (s.slots.erase (project.key s.cwd)).fill (project.key s.cwd) s.kernel.futures.size }

lemma startupFor_eq (s : Supervisor) (project : Project) :
    s.startupFor project =
      match s.usable? (project.key s.cwd) with
      | some u => (s, u)
      | none => (s.fillSlot project, s.kernel.futures.size) := rfl

lemma get?_fillSlot_self (s : Supervisor) (project : Project) :
    (s.fillSlot project).slots.get? (project.key s.cwd) = some s.kernel.futures.size :=
  Slots.get?_fill_self _ _ _

lemma get?_fillSlot_of_ne {project : Project} {key : Text} (h : key ≠ project.key s.cwd) :
    (s.fillSlot project).slots.get? key = s.slots.get? key :=
  (Slots.get?_fill_of_ne _ _ h).trans (Slots.get?_erase_of_ne _ h)

lemma activity?_fillSlot {project : Project} {u : Id} :
    (s.fillSlot project).kernel.activity? u =
      if u = s.kernel.futures.size then some { body := some (.startup project) }
      else s.kernel.activity? u := Kernel.activity?_watch.trans Kernel.activity?_spawn

lemma outcome?_fillSlot {project : Project} {u : Id} :
    (s.fillSlot project).kernel.outcome? u = s.kernel.outcome? u :=
  Kernel.outcome?_watch.trans Kernel.outcome?_spawn

lemma keeps_fillSlot (s : Supervisor) (project : Project) : Keeps s (s.fillSlot project) :=
  { Keeps.refl s with }

lemma grows_fillSlot (s : Supervisor) (project : Project) :
    Kernel.Grows (fun r => r.child? = none ∧ r.begins = true) s.kernel (s.fillSlot project).kernel := by
  have hsize : (s.fillSlot project).kernel.futures.size = s.kernel.futures.size + 1 :=
    Kernel.size_watch.trans Kernel.size_spawn
  have hold : ∀ {u}, u < s.kernel.futures.size →
      (s.fillSlot project).kernel.activity? u = s.kernel.activity? u := fun hu => by
    rw [activity?_fillSlot, if_neg (Nat.ne_of_lt hu)]
  refine
    { size := by rw [hsize]; exact Nat.le_succ _
      plain := fun hlt hx => (hold hlt).trans hx
      members := fun _ => Kernel.members_watch.trans Kernel.members_spawn
      outcome := fun ho => outcome?_fillSlot.trans ho
      kept := fun ha => ⟨_, (hold (Kernel.lt_size_of_activity? ha)).trans ha, rfl, rfl, id⟩
      begun := fun {u b} hb => ?_
      firm := .of_lt hold }
  rw [activity?_fillSlot] at hb
  split at hb
  · next hu =>
    cases hb
    exact .inr ⟨Nat.le_of_eq hu.symm, rfl, _, rfl, rfl, rfl⟩
  · exact .inl ⟨b, hb⟩

lemma waking_fillSlot (h : s.kernel.Waking running) (project : Project)
    (hrun : running ≠ some s.kernel.futures.size) : (s.fillSlot project).kernel.Waking running := by
  have hspawn := h.spawn hrun (.startup project)
  refine hspawn.of_rousing Kernel.size_watch (fun _ => Kernel.outcome?_watch)
    (fun _ => Kernel.activity?_watch) (fun _ => Kernel.filter_watchers_watch rfl) ?_
  have hlive : (s.kernel.spawn (.startup project)).1.isDone s.kernel.futures.size = false := by
    rw [Kernel.isDone, Kernel.outcome?_spawn,
      (Kernel.views_of_size_le (Nat.le_refl s.kernel.futures.size)).1]
    rfl
  rw [fillSlot, Kernel.ready_watch, hlive]
  simp

namespace Sound

/-- A slot whose startup can be used no more, or that is empty, gets a new startup. -/
lemma fillSlot (h : Sound p running s) (project : Project)
    (hfree : ∀ u, s.slots.get? (project.key s.cwd) = some u → s.kernel.isDone u = true) :
    Sound (marking p s.kernel.futures.size (project.key s.cwd)) running (s.fillSlot project) := by
  generalize hp' : marking p s.kernel.futures.size (project.key s.cwd) = p'
  have hp : p.Extends p' s.kernel.futures.size := hp' ▸ extends_marking _ _
  have hself : p'.mark? s.kernel.futures.size = some (project.key s.cwd) := by
    rw [← hp']
    exact if_pos rfl
  have hother : ∀ {u}, u ≠ s.kernel.futures.size → p'.mark? u = p.mark? u := fun hu => by
    rw [← hp']
    exact if_neg hu
  have hbeyond : ∀ {u}, s.kernel.futures.size < u → p'.mark? u = none := fun {u} hu => by
    rw [hother (Nat.ne_of_gt hu)]
    by_contra hne
    exact absurd (h.follows.marks hne) (Nat.lt_asymm hu)
  have hspawn : (s.kernel.spawn (.startup project)).1.Follows p' :=
    h.follows.spawnAs _ hp (fun x => by rw [← hp']; rfl) fun u => hbeyond
  have hfollows : (s.fillSlot project).kernel.Follows p' := hspawn.watch nofun
  have hgrows := grows_fillSlot s project
  have hnew := @activity?_fillSlot s project s.kernel.futures.size
  rw [if_pos rfl] at hnew
  have htidy : Tidy p' (s.fillSlot project) := by
    refine { h.toTidy.extends hfollows hgrows.toWidens hp with
      slots := fun {key u} hu => ?_
      distinct := Slots.nodup_fill (Slots.nodup_erase h.distinct _) _ _ }
    by_cases hkey : key = project.key s.cwd
    · subst hkey
      cases (get?_fillSlot_self s project).symm.trans hu
      exact hself
    · have hslot : s.slots.get? key = some u := get?_fillSlot_of_ne hkey ▸ hu
      have hmark := h.slots hslot
      rw [hother (Nat.ne_of_lt (h.follows.marks (by simp [hmark])))]
      exact hmark
  refine h.replan htidy (waking_fillSlot h.waking project fun heq => ?_) (h.runs_of_grows hgrows) hp
    (keeps_fillSlot s project) (.of_eq rfl rfl) hgrows (fun _ => And.left)
    (fun {t a r} ha hle hbody => ?_) (fun {u} hu hle => ?_)
    fun {u key a} hu ha => ?_
  · exact absurd (h.lt_size_of_running _ heq) (Nat.lt_irrefl _)
  · rw [activity?_fillSlot] at ha
    split at ha
    · next ht =>
      cases ha
      cases hbody
      exact ⟨nofun, by rw [ht, hself]; rfl, nofun, nofun, fun _ => rfl⟩
    · exact absurd (Kernel.lt_size_of_activity? ha) (Nat.not_lt.2 hle)
  · rcases Nat.eq_or_lt_of_le hle with heq | hlt
    · exact ⟨_, heq ▸ hnew⟩
    · exact absurd (hbeyond hlt) hu
  · rw [activity?_fillSlot] at ha
    split at ha
    · next heq =>
      cases ha
      rw [heq, hself] at hu
      cases hu
      simp [heq, get?_fillSlot_self]
    · next hne =>
      rw [hother hne] at hu
      rw [h.held hu ha]
      by_cases hkey : key = project.key s.cwd
      · subst hkey
        refine ⟨fun hget => ?_, fun hget => ?_⟩
        · exact absurd ha (h.not_active_of_isDone (hfree u hget) a)
        · rw [get?_fillSlot_self] at hget
          cases hget
          exact absurd rfl hne
      · rw [get?_fillSlot_of_ne hkey]

end Sound

/-! ## A caller waits for a startup -/

/-- The plan in which the future `x` takes over the outcome of `u` for the task `c`. -/
def relaying (p : Plan) (x c u : Id) : Plan :=
  { p with relay? := fun y => if y = x then some (c, u) else p.relay? y }

lemma extends_relaying (x c u : Id) : p.Extends (relaying p x c u) x where
  relay _ hy := if_neg (Nat.ne_of_lt hy)
  mark _ _ := rfl

/-- A future is made that takes over the outcome of a startup. -/
def followOutcome (s : Supervisor) (u : Id) : Supervisor :=
  { s with kernel := s.kernel.fresh.1.watch u (.relay s.kernel.futures.size) }

lemma outcome?_followOutcome {u x : Id} :
    (s.followOutcome u).kernel.outcome? x = s.kernel.outcome? x :=
  Kernel.outcome?_watch.trans (Kernel.outcome?_add rfl)

lemma activity?_followOutcome {u x : Id} :
    (s.followOutcome u).kernel.activity? x = s.kernel.activity? x :=
  Kernel.activity?_watch.trans (Kernel.activity?_add_plain rfl)

lemma size_followOutcome {u : Id} :
    (s.followOutcome u).kernel.futures.size = s.kernel.futures.size + 1 :=
  Kernel.size_watch.trans Kernel.size_add

lemma grows_followOutcome (s : Supervisor) (u : Id) :
    Kernel.Grows Routine.Quiet s.kernel (s.followOutcome u).kernel where
  size := by rw [size_followOutcome]; exact Nat.le_succ _
  plain _ hx := activity?_followOutcome.trans hx
  members _ := Kernel.members_watch.trans (Kernel.members_add rfl)
  outcome ho := outcome?_followOutcome.trans ho
  kept ha := ⟨_, activity?_followOutcome.trans ha, rfl, rfl, id⟩
  begun hb := .inl ⟨_, activity?_followOutcome.symm.trans hb⟩
  firm := .of_activity fun _ => activity?_followOutcome

lemma waking_followOutcome (h : s.kernel.Waking running) {u : Id}
    (hu : s.kernel.isDone u = false) : (s.followOutcome u).kernel.Waking running := by
  refine h.fresh.of_rousing Kernel.size_watch (fun _ => Kernel.outcome?_watch)
    (fun _ => Kernel.activity?_watch) (fun _ => Kernel.filter_watchers_watch rfl) ?_
  have hlive : s.kernel.fresh.1.isDone u = false := by
    rw [Kernel.isDone, Kernel.fresh, Kernel.outcome?_add rfl]
    exact hu
  rw [followOutcome, Kernel.ready_watch, hlive]
  simp

/-- A task makes a future of its own for what comes of a startup. -/
lemma Sound.followOutcome (h : Sound p running s) {u : Id} (c : Id) (hmark : p.mark? u ≠ none)
    (hu : s.kernel.isDone u = false) :
    Sound (relaying p s.kernel.futures.size c u) running (s.followOutcome u) := by
  have hp := extends_relaying (p := p) s.kernel.futures.size c u
  have hgrows := grows_followOutcome s u
  have hfollows : (s.followOutcome u).kernel.Follows (relaying p s.kernel.futures.size c u) :=
    h.follows.relay (h.follows.marks hmark) (Kernel.isDone_eq_false_iff.1 hu) hp (fun _ => rfl)
      (if_pos rfl) fun x hx => by
        refine (if_neg (Nat.ne_of_gt hx)).trans ?_
        cases hrelay : p.relay? x with
        | none => rfl
        | some cv => exact absurd (h.follows.relay_lt hrelay) (Nat.lt_asymm hx)
  refine h.replan (h.toTidy.extends hfollows hgrows.toWidens hp)
    (waking_followOutcome h.waking hu) (h.runs_of_grows hgrows) hp { Keeps.refl s with }
    (.of_eq rfl rfl) hgrows (fun _ hr => hr.child) (fun ha hle _ => ?_)
    (fun hv hle => ?_) fun hv ha => ?_
  · rw [activity?_followOutcome] at ha
    exact absurd (Kernel.lt_size_of_activity? ha) (Nat.not_lt.2 hle)
  · exact absurd (h.follows.marks hv) (Nat.not_lt.2 hle)
  · rw [activity?_followOutcome] at ha
    exact h.held hv ha

end SuggestBridge.Supervisor
