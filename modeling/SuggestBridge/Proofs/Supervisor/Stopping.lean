import SuggestBridge.Proofs.Supervisor.Sweeping

/-!
# What a request stops

The request of a client that failed, or that is told to, closes the session of its project by the key:
it stops whatever the slot holds by then.  `StopsOnly` says that a turn asks no other startup to cancel
and closes no other session, and `stops_of_run` that this holds of every turn of a request, in any
run; what is stopped was in the slot at any earlier time or is newer.  That it is newer than what the
request has waited for happens: `replacement_stopped`.
-/

namespace SuggestBridge.Supervisor

open SuggestBridge.Task

variable {p p' : Plan} {ω : Warrant} {s s' s'' : Supervisor} {k : Machine} {running : Option Id}
variable {t u g : Id} {key : Text} {b c : Scene} {keys more : List Text}

/-! ## Warranted steps -/

/-- Of the marked tasks and the sessions that were there, only those are stopped that may be. -/
structure Warranted (p : Plan) (ω : Warrant) (s s' : Supervisor) : Prop where
  startup : ∀ {u b}, p.mark? u ≠ none → s'.kernel.activity? u = some b →
    ∃ a, s.kernel.activity? u = some a ∧
      (a.cancelRequests = 0 → b.cancelRequests ≠ 0 → ω.startup u)
  session : ∀ {n x}, s.opened[n]? = some x →
    ∃ y, s'.opened[n]? = some y ∧ (x.closing = false → y.closing = true → ω.session n)

namespace Warranted

lemma trans (h : Warranted p ω s s') (h' : Warranted p ω s' s'') : Warranted p ω s s'' where
  startup hu hc := by
    obtain ⟨b, hb, hstop'⟩ := h'.startup hu hc
    obtain ⟨a, ha, hstop⟩ := h.startup hu hb
    refine ⟨a, ha, fun hzero hasked => ?_⟩
    by_cases hb : b.cancelRequests = 0
    · exact hstop' hb hasked
    · exact hstop hzero hb
  session hx := by
    obtain ⟨y, hy, hstop⟩ := h.session hx
    obtain ⟨z, hz, hstop'⟩ := h'.session hy
    refine ⟨z, hz, fun hopen hclosing => ?_⟩
    cases hy : y.closing with
    | false => exact hstop' hy hclosing
    | true => exact hstop hopen hy

/-- Where no marked task and no session is touched. -/
lemma of_eq (hact : ∀ {u}, p.mark? u ≠ none → s'.kernel.activity? u = s.kernel.activity? u)
    (hopened : s'.opened = s.opened) : Warranted p ω s s' where
  startup hu hb := ⟨_, (hact hu).symm.trans hb, fun hzero hne => absurd hzero hne⟩
  session hx := ⟨_, hopened ▸ hx, fun hopen hclosing => by simp [hopen] at hclosing⟩

lemma refl (s : Supervisor) : Warranted p ω s s := .of_eq (fun _ => rfl) rfl

/-- What is planned on top does not matter. -/
lemma of_plan (h : Warranted p' ω s s') (hmarks : ∀ {u}, p.mark? u ≠ none → p'.mark? u ≠ none) :
    Warranted p ω s s' where
  startup hu := h.startup (hmarks hu)
  session := h.session

end Warranted

/-- A session is changed. -/
lemma warranted_updateSession {n : Nat} {f : Session → Session}
    (hf : ∀ x, x.closing = false → (f x).closing = true → ω.session n) :
    Warranted p ω s (s.updateSession n f) where
  startup _ hb := ⟨_, hb, fun hzero hne => absurd hzero hne⟩
  session {m x} hx := by
    rw [updateSession, Array.getElem?_modify]
    split
    · next hnm =>
      subst hnm
      exact ⟨f x, by rw [hx]; rfl, hf x⟩
    · exact ⟨x, hx, fun hopen hclosing => by simp [hopen] at hclosing⟩

lemma Move.warranted (h : Tidy p s) (hmove : Move p ω s s') : Warranted p ω s s' := by
  cases hmove with
  | kernel hacts => exact .of_eq (fun hu => Kernel.Acts.marked hacts h.follows hu) rfl
  | session n f hsame =>
    exact warranted_updateSession fun x hopen hclosing => by
      simp [(hsame x).2.2.2, hopen] at hclosing
  | mark hmay => exact warranted_updateSession fun _ _ _ => hmay
  | opened _ _ =>
    refine ⟨fun _ hb => ⟨_, hb, fun hzero hne => absurd hzero hne⟩, fun {n x} hx => ⟨x, ?_, ?_⟩⟩
    · rw [Array.getElem?_push, if_neg (Nat.ne_of_lt (Array.getElem?_eq_some_iff.1 hx).1), hx]
    · exact fun hopen hclosing => by simp [hopen] at hclosing
  | @close key u hslot _ hmay =>
    refine ⟨fun {v b} hv hb => ?_, fun hx => ⟨_, hx, fun hopen hclosing => ?_⟩⟩
    · by_cases hvu : v = u
      · subst hvu
        obtain ⟨a, ha⟩ : ∃ a, s.kernel.activity? v = some a := by
          have hgrows : Kernel.Grows Routine.Quiet s.kernel (s.kernel.cancel v).1 := .cancel _ _
          refine (hgrows.begun hb).elim id fun hnew => ?_
          exact absurd (h.follows.marks hv) (Nat.not_lt.2 hnew.1)
        exact ⟨a, ha, fun _ _ => hmay⟩
      · rw [(h.spares hslot).marked hv hvu] at hb
        exact ⟨b, hb, fun hzero hne => absurd hzero hne⟩
    · simp [hopen] at hclosing
  | _ => exact .of_eq (fun _ => rfl) rfl

lemma Moves.warranted (h : Tidy p s) (hmoves : Moves p ω s s') : Warranted p ω s s' := by
  obtain ⟨hsteps, -, -⟩ := hmoves
  induction hsteps with
  | refl => exact .refl s
  | tail hsteps hmove ih => exact ih.trans (hmove.warranted (h.steps hsteps))

/-! ## Warranted turns -/

/-- The turn ends with a wait. -/
lemma Sound.warranted_suspend (h : Sound p (some t) s) (hg : g < s.kernel.futures.size)
    (hmark : p.mark? t = none) (hfree : p.mark? g = none)
    (hrelay : ∀ {c u}, p.relay? g = some (c, u) → c = t ∧ s.kernel.outcome? g = none) (r : Routine) :
    Warranted p ω s (s.follow t (.waits r g)) := by
  obtain ⟨a, ha, -⟩ := h.runs t rfl
  obtain ⟨-, -, hmarked⟩ := h.follows.suspend ha r hg hfree hrelay
  exact .of_eq (fun hu => hmarked hu fun hut => hu (hut ▸ hmark)) rfl

/-- The turn ends with the end of the task. -/
lemma Sound.warranted_finish (h : Sound p (some t) s) (hmark : p.mark? t = none)
    (o : Outcome Value Failure) : Warranted p ω s (s.follow t (.ends o)) := by
  obtain ⟨a, ha, -⟩ := h.runs t rfl
  obtain ⟨_, -, -, -, hends⟩ := h.follows.finish h.waking ha o
  exact .of_eq (fun {u} hu => hends.other u fun hut => hu (hut ▸ hmark)) rfl

/-- A turn that makes moves only. -/
lemma Sound.warranted_turn (h : Sound p (some t) s) (hmark : p.mark? t = none)
    {r : Supervisor × Course Routine} (hr : Turns p ω (Plain p) s r) :
    Warranted p ω s (r.1.follow t r.2) := by
  have hsound := h.moves hr.moves
  have hmoves := Moves.warranted h.toTidy hr.moves
  obtain ⟨s', course⟩ := r
  cases course with
  | waits state future =>
    obtain ⟨hfuture, -⟩ := hr.waits rfl
    exact hmoves.trans (hsound.warranted_suspend hfuture.1 hmark hfuture.2.2
      (fun hrelay => by simp [hfuture.2.1] at hrelay) state)
  | ends o => exact hmoves.trans (hsound.warranted_finish hmark o)

/-- Getting a session stops nothing. -/
lemma warranted_beginAcquiring (h : Tidy p s) (project : Project) :
    Warranted p ω s (s.beginAcquiring project).1 := by
  have hfilled : ∀ {u}, p.mark? u ≠ none →
      (s.fillSlot project).kernel.activity? u = s.kernel.activity? u := fun hu => by
    rw [activity?_fillSlot, if_neg (Nat.ne_of_lt (h.follows.marks hu))]
  have hfound : Warranted p ω s (s.startupFor project).1 := by
    rw [startupFor_eq]
    split
    · exact .refl s
    · exact .of_eq hfilled rfl
  rw [beginAcquiring]
  generalize s.startupFor project = r at hfound ⊢
  obtain ⟨s₁, u⟩ := r
  dsimp only
  split
  · exact hfound
  · exact hfound.trans (.of_eq (fun _ => activity?_followOutcome) rfl)

/-- Whoever gets a session at once goes on and makes moves only. -/
lemma Sound.warranted_acquire (h : Sound p (some t) s) (hmark : p.mark? t = none) (project : Project)
    (wrap : Text × Id → Routine)
    (next : Supervisor → Outcome Value Failure → Supervisor × Course Routine)
    (hnext : ∀ o, Turns p ω (Plain p) s (next s o)) :
    Warranted p ω s
      ((Progress.andThen (s.beginAcquiring project) wrap next).1.follow t
        (Progress.andThen (s.beginAcquiring project) wrap next).2) := by
  obtain ⟨p', hacquired⟩ := h.beginAcquiring project
  have hbegun : Warranted p ω s (s.beginAcquiring project).1 :=
    warranted_beginAcquiring h.toTidy project
  have hends := @alive_of_beginAcquiring s project
  generalize s.beginAcquiring project = r at hacquired hbegun hends ⊢
  obtain ⟨s₁, course⟩ := r
  cases course with
  | waits x g =>
    obtain ⟨hg, hfree, hrelay, hnone, -⟩ := hacquired.waits rfl
    have hmark' : p'.mark? t = none :=
      (hacquired.onward.plan.mark t (h.lt_size_of_running t rfl)).trans hmark
    have hsuspended : Warranted p' ω s₁ (s₁.follow t (.waits (wrap x) g)) :=
      hacquired.sound.warranted_suspend hg hmark' hfree (fun hcu => by
        cases hrelay.symm.trans hcu
        exact ⟨rfl, hnone⟩) _
    refine hbegun.trans (hsuspended.of_plan fun hu => ?_)
    rwa [hacquired.onward.plan.mark _ (h.follows.marks hu)]
  | ends o =>
    obtain ⟨rfl, -⟩ := hends rfl
    exact h.warranted_turn hmark (hnext o)

/-! ## Turns of requests -/

/-- What the slots of some keys hold. -/
def holding (s : Supervisor) (keys : Option Text) : Warrant where
  startup u := ∃ key ∈ keys, s.slots.get? key = some u
  session n := ∃ key ∈ keys, ∃ u, s.slots.get? key = some u ∧ s.sessionOf? u = some n

/-- Moves settle no startup. -/
lemma Sound.outcome?_of_moves (h : Sound p running s) (hmoves : Moves p ω s s')
    (hu : p.mark? u ≠ none) : s'.kernel.outcome? u = s.kernel.outcome? u := by
  have hon : Onward p p none s s' := Moves.onward hmoves
  cases ho : s.kernel.outcome? u with
  | some o => exact hon.outcome ho
  | none =>
    obtain ⟨a, ha⟩ := h.active hu (Kernel.isDone_eq_false_iff.2 ho)
    obtain ⟨b, hb, -⟩ := hon.kept nofun ha
    exact (h.moves hmoves).waking.unsettled hb

/-- What is in the slot of a key after some moves was in it before. -/
lemma Sound.allows_holding (h : Sound p running s) {keys : Option Text} (hkey : key ∈ keys) :
    Allows p (s.holding keys) s key where
  startup hmoves hu := ⟨key, hkey, Moves.slots hmoves hu⟩
  session hmoves hu hn := by
    have hslot := Moves.slots hmoves hu
    rw [sessionOf?_eq_some_iff, h.outcome?_of_moves hmoves (by simp [h.slots hslot]),
      ← sessionOf?_eq_some_iff] at hn
    exact ⟨key, hkey, _, hslot, hn⟩

/-- The request of a client, not yet ended, and the key by which it may close a session. -/
def Routine.request? : Routine → Option (Option Text)
  | .ask c q | .errand c q => some (some ((c.resolve q.file).key c.cwd))
  | .asking a | .answering a => some a.key?
  | _ => none

/-- The first turn of a request. -/
lemma Sound.warranted_beginAsking (h : Sound p (some t) s) (hmark : p.mark? t = none) (c : Client)
    (q : Query) (hallows : Allows p ω s ((c.resolve q.file).key c.cwd)) (wrap : Asking → Routine)
    (next : Supervisor → Outcome Value Failure → Supervisor × Course Routine)
    (hturns : ∀ {s'} {r : Supervisor × Course Asking}, Tidy p s' → Turns p ω (Asking.Fits p) s' r →
      Turns p ω (Plain p) s' (Progress.andThen r wrap next)) :
    Warranted p ω s ((Progress.andThen (s.beginAsking c q) wrap next).1.follow t
      (Progress.andThen (s.beginAsking c q) wrap next).2) := by
  rw [Supervisor.beginAsking]
  rcases Client.Request.begin_eq c q with hnext | hnext
  · have hasking : Turns p ω (Asking.Fits p) s (s.pursue needs (.ends (.ok []), [])) :=
      turns_pursue h.toTidy needs trivial hallows
    rw [hnext]
    exact h.warranted_turn hmark (hturns h.toTidy hasking)
  · have hlog : Moves p ω s (s.report []) := moves_report []
    have hlogged := h.moves hlog
    rw [hnext, show needs = 3 + 1 from rfl, pursue_session, andThen_assoc]
    have hkey : Allows p ω (s.report [])
      (Client.Request.key ⟨c, q, c.resolve q.file, .opening⟩) := hallows.moves hlog
    exact (Moves.warranted h.toTidy hlog).trans (hlogged.warranted_acquire hmark _ _ _ fun o =>
      hturns hlogged.toTidy (turns_onOpened hlogged.toTidy _ hkey 3 o))

/-- The turn of a request stops only what is in the slot of its key. -/
lemma Sound.warranted_request (h : Sound p (some t) s) {r : Routine} {x : Option Id}
    (hfits : Fits p s t r x) {keys : Option Text} (hr : r.request? = some keys)
    (input : Outcome Value Failure) :
    Warranted p (s.holding keys) s ((s.proceed t r input).1.follow t (s.proceed t r input).2) := by
  have hmark := hfits.mark
  cases r with
  | asking a =>
    cases hr
    exact h.warranted_turn hmark (turns_afterAsking h.toTidy
      (turns_asking h.toTidy hfits.refs (fun _ hkey => h.allows_holding hkey) input))
  | answering a =>
    cases hr
    exact h.warranted_turn hmark (turns_answered h.toTidy
      (turns_asking h.toTidy hfits.refs (fun _ hkey => h.allows_holding hkey) input))
  | ask c q =>
    cases hr
    exact h.warranted_beginAsking hmark c q (h.allows_holding rfl) .answering _
      fun h hr => turns_answered h hr
  | errand c q =>
    cases hr
    have hstart : ∀ ω, Moves p ω s s.start := fun _ => moves_start h.toTidy
    have hallows : Allows p (s.holding (some ((c.resolve q.file).key c.cwd))) s _ :=
      h.allows_holding rfl
    exact (Moves.warranted h.toTidy (hstart _)).trans ((h.moves (hstart .all)).warranted_beginAsking
      hmark c q (hallows.moves (hstart _)) .asking _ fun h hr => turns_afterAsking h hr)
  | _ => cases hr

/-! ## Requests in a run -/

/-- Of the startups and sessions that were there, only those are stopped that the slots of some keys
hold. -/
structure StopsOnly (keys : Option Text) (s s' : Supervisor) : Prop where
  /-- No other startup is asked to cancel. -/
  startup : ∀ {u a b r}, s.kernel.activity? u = some a → a.body = some r → r.starts? ≠ none →
    a.cancelRequests = 0 → s'.kernel.activity? u = some b → b.cancelRequests ≠ 0 →
      ∃ key ∈ keys, s.slots.get? key = some u
  /-- No other session is closed on purpose. -/
  session : ∀ {n x y}, s.opened[n]? = some x → x.closing = false → s'.opened[n]? = some y →
    y.closing = true → ∃ key ∈ keys, ∃ u, s.slots.get? key = some u ∧ s.sessionOf? u = some n

/-- The task that the next job gives its turn, and where it goes on. -/
def turnNext? (s : Supervisor) (limit : Float) : Option (Id × Routine) :=
  (s.kernel.next? limit).bind fun x => turnOf x.2

/-- The task `t` has its turn at `r`. -/
inductive TakesTurn (s : Supervisor) (t : Id) (r : Routine) : Supervisor → Prop where
  /-- It is the next job. -/
  | job {s' : Supervisor} {limit : Float} (turn : s.turnNext? limit = some (t, r))
      (step : s.step? limit = some s') : TakesTurn s t r s'
  /-- The task is made and runs at once. -/
  | entered (request : r.isRequest = true) (task : t = s.kernel.futures.size) :
      TakesTurn s t r (s.enter r)

/-- What a step does to those that were there before it. -/
lemma Sound.stopsOnly (h : Sound p none s) (m : Supervisor) {keys : Option Text}
    (hact : ∀ {u}, p.mark? u ≠ none → m.kernel.activity? u = s.kernel.activity? u)
    (hout : ∀ u, m.kernel.outcome? u = s.kernel.outcome? u) (hslots : m.slots = s.slots)
    (hopened : m.opened = s.opened) (hstep : Warranted p (m.holding keys) m s') :
    StopsOnly keys s s' where
  startup {u a b r} ha hbody hr hzero hb hasked := by
    have hmark : p.mark? u ≠ none := by
      rw [(h.fits ha hbody).mark]
      simpa using hr
    obtain ⟨a', ha', hstop⟩ := hstep.startup hmark hb
    cases ha.symm.trans ((hact hmark).symm.trans ha')
    obtain ⟨key, hkey, hu⟩ := hstop hzero hasked
    exact ⟨key, hkey, hslots ▸ hu⟩
  session {n x y} hx hopen hy hclosing := by
    obtain ⟨y', hy', hstop⟩ := hstep.session (hopened ▸ hx)
    cases hy.symm.trans hy'
    obtain ⟨key, hkey, u, hu, hn⟩ := hstop hopen hclosing
    rw [sessionOf?_eq_some_iff, hout, ← sessionOf?_eq_some_iff] at hn
    exact ⟨key, hkey, u, hslots ▸ hu, hn⟩

lemma request_begin {r : Routine} {keys : Option Text} (hr : r.request? = some keys) :
    s.begin t r = s.resume t r (.value .unit) := by
  cases r <;> first | rfl | cases hr

lemma Sound.stopsOnly_of_takesTurn (h : Sound p none s) {r : Routine} {keys : Option Text}
    (hr : r.request? = some keys) (hturn : TakesTurn s t r s') : StopsOnly keys s s' := by
  cases hturn with
  | @job _ limit hnext hstep =>
    obtain ⟨⟨k, act⟩, hnext, hturn⟩ := Option.bind_eq_some_iff.1 hnext
    have hdue := h.due hnext hturn
    obtain ⟨x, hfits⟩ := hdue.fits
    have hmark : p.mark? t = none := by
      rw [hfits.mark]
      cases r <;> first | rfl | cases hr
    have hact : ∀ {u}, p.mark? u ≠ none → k.activity? u = s.kernel.activity? u := fun {u} hu =>
      hdue.roused.other u fun hut => hu (hut ▸ hmark)
    have hstops : ∀ input, StopsOnly keys s (Supervisor.resume { s with kernel := k } t r input) :=
      fun input => h.stopsOnly { s with kernel := k } hact hdue.roused.outcome rfl rfl
        (hdue.sound.warranted_request hfits hr input)
    rw [step?, hnext] at hstep
    cases act with
    | «begin» t' r' =>
      cases hturn
      cases hstep
      rw [request_begin hr]
      exact hstops _
    | resume t' r' input =>
      cases hturn
      cases hstep
      exact hstops input
    | _ => cases hturn
  | entered hrequest htask =>
    subst htask
    obtain ⟨hsound, -⟩ := h.added rfl
    have hfits := (Routine.isRequest.quiet hrequest).plain.fits
      (p := p) (s := { s with kernel := (s.kernel.add { activity := some { body := none } }).1 })
      h.follows.free_size.2 none
    have hact : ∀ {u}, p.mark? u ≠ none →
        (s.kernel.add { activity := some { body := none } }).1.activity? u = s.kernel.activity? u :=
      fun hu => by rw [Kernel.activity?_add, if_neg (Nat.ne_of_lt (h.follows.marks hu))]
    rw [enter, request_begin hr]
    exact h.stopsOnly { s with kernel := _ } hact (fun _ => Kernel.outcome?_add rfl) rfl rfl
      (hsound.warranted_request hfits hr _)

/-- In any run, the request of a client stops nothing in a turn but what the slot of its key holds
then, and that was there at any earlier time or is newer. -/
theorem stops_of_run {settings : Settings} {cwd : Text} {scripts : List Daemon.Script}
    (hbefore : Run (Scene.fresh settings cwd scripts) keys b) (hrun : Run b more c)
    {r : Routine} {keys : Option Text} (hr : r.request? = some keys)
    (hturn : TakesTurn c.supervisor t r s') :
    StopsOnly keys c.supervisor s' ∧
      ∀ key ∈ keys, ∀ u, c.supervisor.slots.get? key = some u →
        b.supervisor.slots.get? key = some u ∨ b.supervisor.kernel.futures.size ≤ u := by
  obtain ⟨p, hsound, -⟩ := (Scene.sound_fresh settings cwd scripts).run hbefore
  obtain ⟨p', hsound', -⟩ := hsound.run hrun
  exact ⟨hsound'.sound.stopsOnly_of_takesTurn hr hturn, fun _ _ _ hu => hsound.slot_since hrun hu⟩

/-- A supervisor whose daemons never say anything. -/
def hanging : Scene := Scene.fresh { command := ["nimsuggest"] } "/work" [{ mode := .hang }]

/-- A client has asked for a definition and waits for the startup of the project's daemon. -/
def asked : Supervisor :=
  (hanging.supervisor.launchTask
    (.errand { cwd := "/work" } { command := .definition, file := "/work/p.nim" })).1.settle

/-- The session of the project is to be closed, and then somebody asks for it again. -/
def reopening : Supervisor :=
  ((asked.launchTask (.close "/work/p.nim")).1.launchTask
    (.acquire (Project.ofPath "/work" "p.nim"))).1

/-- The client is about to be told that its startup was cancelled. -/
def replaced : Supervisor := reopening.runUntil (fun _ => false) reopening.kernel.now 16

lemma run_replaced :
    ∃ keys more b c, Run hanging keys b ∧ Run b more c ∧ b.supervisor = asked ∧
      c.supervisor = replaced := by
  have hstart : Run hanging [] ⟨hanging.supervisor, []⟩ := .refl
  obtain ⟨_, hasked⟩ := hstart.launch
    (r := .errand { cwd := "/work" } { command := .definition, file := "/work/p.nim" }) rfl
  obtain ⟨_, hrun⟩ := run_runUntil reopening [0, 10, 11] (fun _ => false) reopening.kernel.now 16
  have hreopening := ((Run.refl (c := ⟨asked, [0]⟩)).tail (.launch (r := .close "/work/p.nim") rfl)).tail
    (.launch (r := .acquire (Project.ofPath "/work" "p.nim")) rfl)
  exact ⟨_, _, _, _, hasked, hreopening.trans hrun, rfl, rfl⟩

/-- The request goes on, and what it may stop is the startup that the slot holds by then. -/
theorem stops_replaced :
    ∃ keys more b c t r s', Run hanging keys b ∧ Run b more c ∧ c.supervisor = replaced ∧
      TakesTurn replaced t r s' ∧ StopsOnly (some "/work/p.nim") replaced s' ∧
      replaced.slots.get? "/work/p.nim" = some 13 ∧ b.supervisor.kernel.futures.size ≤ 13 := by
  obtain ⟨keys, more, b, c, hbefore, hrun, hasked, hreplaced⟩ := run_replaced
  have hrequest : (replaced.turnNext? replaced.kernel.now).bind (fun x => x.2.request?) =
      some (some ("/work/p.nim" : Text)) := by decide +kernel
  obtain ⟨⟨t, r⟩, hturn, hr⟩ := Option.bind_eq_some_iff.1 hrequest
  have hgoes : (replaced.step? replaced.kernel.now).isSome = true := by decide +kernel
  obtain ⟨s', hstep⟩ := Option.isSome_iff_exists.1 hgoes
  have htakes : TakesTurn replaced t r s' := .job hturn hstep
  have hslot : replaced.slots.get? "/work/p.nim" = some 13 := by decide +kernel
  obtain ⟨hstops, hsince⟩ := stops_of_run hbefore hrun hr (hreplaced ▸ htakes)
  have hnew : asked.slots.get? "/work/p.nim" ≠ some 13 := by decide +kernel
  rw [hreplaced] at hstops hsince
  exact ⟨keys, more, b, c, t, r, s', hbefore, hrun, hreplaced, htakes, hstops, hslot,
    (hsince _ rfl 13 hslot).resolve_left (hasked ▸ hnew)⟩

/-- The request has waited for the startup 2, which was closed.  When it is told so, it asks the
startup 13 to cancel, which somebody else has begun since. -/
theorem replacement_stopped :
    (∃ keys more b c, Run hanging keys b ∧ Run b more c ∧ c.supervisor = replaced) ∧
      (replaced.turnNext? replaced.kernel.now).map (fun x => (x.1, x.2.awaits?)) =
        some (0, some (("/work/p.nim" : Text), 2)) ∧
      replaced.slots.get? "/work/p.nim" = some 13 ∧
      (replaced.kernel.activity? 13).map (·.cancelRequests) = some 0 ∧
      ((replaced.step? replaced.kernel.now).bind fun s => s.kernel.activity? 13).map
        (·.cancelRequests) = some 1 := by
  refine ⟨?_, by decide +kernel⟩
  obtain ⟨keys, more, b, c, hbefore, hrun, -, hreplaced⟩ := run_replaced
  exact ⟨keys, more, b, c, hbefore, hrun, hreplaced⟩

end SuggestBridge.Supervisor
