import SuggestBridge.Proofs.Supervisor.Answering

/-!
# Sessions that have failed

When the call of a request fails, or the daemon answers that it has lost its connection, the request
closes the session of its project, by the key of the project.  By then the slot of the key may hold
another session, or a startup, or nothing, since other requests close and open sessions in the meantime.
Still the session that has failed is never handed out again.

The argument is about the startup that the session came of.  A session comes of one startup only
(`Sole`), which was put into the slot of its key when it was begun, and a startup is never put into a
slot again: only new ones are.  So if the startup is in no slot once, it is in none from then on
(`Discarded`), and whoever begins to ask for a session afterwards finds another startup in the slot and
is told what comes of that one.
-/

namespace SuggestBridge

open SuggestBridge.Task

/-! ## Replies that are held against a session -/

namespace Client.Request

/-- The daemon answers that it has lost its connection, or the call fails, but neither because its
arguments cannot be sent nor because the time of the request is over. -/
def Blames (r : Request) : Reply → Prop
  | .value v => v = .string lostConnection
  | .failure e => (∀ m, e ≠ .unencodable m) ∧ (isTimeout e = true → r.timeout = none)
  | .expired => r.timeout = none

lemma fail_of_ne_unencodable (r : Request) {e : Failure} (h : ∀ m, e ≠ .unencodable m) :
    ∃ log, r.fail e = (r.close [], log) := by
  unfold fail
  split
  · next m => exact absurd rfl (h m)
  · exact ⟨_, rfl⟩

/-- The session of the project is closed, and there will be no rows. -/
lemma onReply_of_blames (r : Request) (session : SessionRef) {reply : Reply} (h : r.Blames reply) :
    ∃ log, r.onReply session reply = (r.close [], log) := by
  cases reply with
  | value v =>
    obtain rfl : v = .string lostConnection := h
    unfold onReply
    dsimp only
    unfold onAnswer
    split
    · exact r.fail_of_ne_unencodable fun m heq => by cases heq
    · simp
  | failure e =>
    obtain ⟨hsent, htime⟩ := h
    obtain ⟨log, hfail⟩ := r.fail_of_ne_unencodable hsent
    refine ⟨log, ?_⟩
    unfold onReply
    cases ht : r.timeout with
    | none => exact hfail
    | some t =>
      have hkind : isTimeout e ≠ true := fun hkind => by simp [ht] at htime; simp [htime] at hkind
      simp [hkind, hfail]
  | expired =>
    have hnone : r.timeout = none := h
    unfold onReply
    simp only [hnone]
    exact r.fail_of_ne_unencodable fun m heq => by cases heq

end Client.Request

namespace Supervisor

variable {p p' : Plan} {ω : Warrant} {s s' m : Supervisor} {turn : Option Id} {t u v : Id}
variable {b c c' d e : Scene} {keys more : List Text} {key : Text} {n : Nat} {r : Routine}
variable {input : Outcome Value Failure} {running : Option Id}

/-! ## Closing by a key -/

lemma GivesUp.refl (n : Nat) (s : Supervisor) : GivesUp p ω n s s :=
  ⟨.refl, id, fun hg => hg.mono (fun _ => .inl) fun _ => id⟩

/-- Closing empties the slot in the same turn. -/
lemma slot_beginClosing (h : Tidy p s) (key : Text) : (s.beginClosing key).1.slots.get? key = none := by
  rw [beginClosing]
  split
  · next hslot => exact hslot
  · next u hslot =>
    dsimp only
    split
    · exact Slots.get?_erase_self _ _
    · next hdone =>
      have hvacate : Move p .all s { s with slots := s.slots.erase key } :=
        .vacate hslot (by simpa using hdone)
      split
      · exact Slots.get?_erase_self _ _
      · next n hsession =>
        split
        · exact Slots.get?_erase_self _ _
        · next x hx =>
          have hlog : Moves p .all { s with slots := s.slots.erase key } _ := moves_report
            [Log.info ("Closing nimsuggest for " ++ key ++ " (pid " ++ Text.ofNat x.pid ++ ")")]
          have hturns := turns_terminate ((h.move hvacate).moves hlog) trivial hx
            ((GivesUp.refl n _).andThen hlog)
          cases hslot' : (terminate _ n x).1.slots.get? key with
          | none => rfl
          | some w =>
            have hw := Moves.slots hturns.moves hslot'
            simp [Slots.get?_erase_self] at hw

/-! ## Turns in which a request learns what came of its call -/

/-- With a session at hand, a request calls over it, and the call ends at once. -/
inductive CallsAtOnce (s : Supervisor) (r₀ r : Client.Request) (session : SessionRef)
    (reply : Client.Reply) : Prop where
  | intro {method : Text} {args : List Sexp} {log : List LogLine} {s' : Supervisor}
      {o : Outcome Value Failure}
      (next : r₀.onSession (.ok session) = (.needs r (.call session method args none), log))
      (call : (s.report log).beginCall session.handle method args = (s', .ends o))
      (result : callResult (.settled o) = some reply) : CallsAtOnce s r₀ r session reply

/-- In the turn of the task `t` that begins in `m`, the request `r` learns what came of its call over a
session. -/
inductive Hears (m : Supervisor) (t : Id) (input : Outcome Value Failure) (r : Client.Request)
    (session : SessionRef) (reply : Client.Reply) : Routine → Prop where
  | called {state : Connection.CallState} {s : Supervisor} {o : Outcome Value Failure}
      (call : m.resumeCall session.handle state input = (s, .ends o))
      (result : callResult (.settled o) = some reply) :
      Hears m t input r session reply (.answering (.calling r session state))
  | timed {w : Deadline} {k : Machine} {e : Deadline.Ending Value Failure}
      (call : Deadline.resume m.kernel w input = (k, .ends e)) (result : callResult e = some reply) :
      Hears m t input r session reply (.answering (.timed r session w))
  | opened {r₀ : Client.Request} {key : Text} {u : Id} {s : Supervisor} {o : Outcome Value Failure}
      (acquired : m.resumeAcquiring t key u input = (s, .ends o))
      (opened : s.sessionResult o = some (.ok session)) (calls : s.CallsAtOnce r₀ r session reply) :
      Hears m t input r session reply (.answering (.opening r₀ key u))
  | begun {c : Client} {q : Query} {r₀ : Client.Request} {project : Project} {s : Supervisor}
      {o : Outcome Value Failure} (asks : Client.Request.begin c q = .needs r₀ (.session project))
      (acquired : m.beginAcquiring project = (s, .ends o))
      (opened : s.sessionResult o = some (.ok session)) (calls : s.CallsAtOnce r₀ r session reply) :
      Hears m t input r session reply (.ask c q)

lemma report_nil (s : Supervisor) : s.report [] = s := by
  simp [report]

/-- What has become of a supervisor when a request learns what came of its call. -/
inductive Learned (m : Supervisor) (input : Outcome Value Failure) (session : SessionRef)
    (reply : Client.Reply) : Routine → Supervisor → Prop where
  | called {r : Client.Request} {state : Connection.CallState} {s : Supervisor}
      {o : Outcome Value Failure} (call : m.resumeCall session.handle state input = (s, .ends o))
      (result : callResult (.settled o) = some reply) :
      Learned m input session reply (.answering (.calling r session state)) s
  | timed {r : Client.Request} {w : Deadline} {k : Machine} {e : Deadline.Ending Value Failure}
      (call : Deadline.resume m.kernel w input = (k, .ends e)) :
      Learned m input session reply (.answering (.timed r session w)) { m with kernel := k }
  | atOnce {R : Routine} {log : List LogLine} {method : Text} {args : List Sexp} {s : Supervisor}
      {o : Outcome Value Failure}
      (call : (m.report log).beginCall session.handle method args = (s, .ends o)) :
      Learned m input session reply R s

/-- It has made moves only. -/
lemma Learned.moves {session : SessionRef} {reply : Client.Reply} {R : Routine}
    (h : Learned m input session reply R s') (hgiven : Given p s t R m input) : Moves p .all m s' := by
  have htidy := hgiven.sound.toTidy
  obtain ⟨x, hfits⟩ := hgiven.fits
  cases h with
  | called hcall =>
    have hmoves := (turns_resumeCall (ω := .all) htidy session.handle hfits.refs input).moves
    rw [hcall] at hmoves
    exact hmoves
  | @timed r w k e hcall =>
    obtain ⟨hmoves, -⟩ : Moves p .all m _ ∧ _ :=
      moves_resumeWait htidy (hfits.refs w.task (by simp [Routine.refs, Asking.refs])) input
    rw [hcall] at hmoves
    exact hmoves
  | @atOnce R log method args _ o hcall =>
    have hlog : Moves p .all m (m.report log) := moves_report log
    have hmoves := (turns_beginCall (ω := .all) (htidy.moves hlog) session.handle method args).moves
    rw [hcall] at hmoves
    exact hlog.trans hmoves

/-- A call that ends at once is one of the things that a request does in a turn. -/
lemma CallsAtOnce.pursue {r₀ r : Client.Request} {session : SessionRef} {reply : Client.Reply}
    (h : m.CallsAtOnce r₀ r session reply) (input : Outcome Value Failure) (R : Routine) (fuel : Nat) :
    ∃ s', Learned m input session reply R s' ∧
      m.pursue (fuel + 1) (r₀.onSession (.ok session)) = s'.pursue fuel (r.onReply session reply) := by
  obtain ⟨hnext, hcall, hresult⟩ := h
  refine ⟨_, .atOnce hcall, ?_⟩
  rw [hnext, Supervisor.pursue]
  simp only [hcall, Progress.andThen, hresult]

/-- Whoever called itself goes on with what came of it. -/
lemma proceed_called (t : Id) (r : Client.Request) {session : SessionRef} {reply : Client.Reply}
    {state : Connection.CallState} {o : Outcome Value Failure}
    (hcall : m.resumeCall session.handle state input = (s', .ends o))
    (hresult : callResult (.settled o) = some reply) :
    m.proceed t (.answering (.calling r session state)) input =
      within .answering (s'.pursue needs (r.onReply session reply)) := by
  rw [Supervisor.proceed, resumeAsking]
  simp only [hcall, Progress.andThen, hresult]

/-- Whoever hears of its call goes on with it in the same turn. -/
lemma Hears.proceed {r : Client.Request} {session : SessionRef} {reply : Client.Reply} {R : Routine}
    (h : Hears m t input r session reply R) :
    ∃ s' fuel, Learned m input session reply R s' ∧
      m.proceed t R input = within .answering (s'.pursue (fuel + 1) (r.onReply session reply)) := by
  cases h with
  | called hcall hresult => exact ⟨_, 3, .called hcall hresult, proceed_called t r hcall hresult⟩
  | @timed w k e hcall hresult =>
    refine ⟨_, 3, .timed hcall, ?_⟩
    rw [Supervisor.proceed, resumeAsking]
    simp only [hcall, hresult]
    rfl
  | @opened r₀ key u s' o hacquired hopened hcalls =>
    obtain ⟨o', hend, -⟩ := resumeAcquiring_ends m t key u input
    cases hend.symm.trans hacquired
    obtain ⟨s', hlearned, hpursue⟩ := hcalls.pursue input _ 3
    refine ⟨s', 2, hlearned, ?_⟩
    rw [Supervisor.proceed, resumeAsking_opening, hend]
    simp only [Progress.andThen, onOpened, hopened]
    exact congrArg _ hpursue
  | @begun c q r₀ project s' o hasks hacquired hopened hcalls =>
    obtain ⟨hsame, -⟩ := alive_of_beginAcquiring (congrArg Prod.snd hacquired)
    rw [hacquired] at hsame
    cases hsame
    obtain ⟨s', hlearned, hpursue⟩ := hcalls.pursue input _ 2
    refine ⟨s', 1, hlearned, ?_⟩
    rw [Supervisor.proceed, Supervisor.beginAsking, hasks, show needs = 3 + 1 from rfl, pursue_session,
      report_nil, hacquired]
    simp only [Progress.andThen, onOpened, hopened]
    exact congrArg _ hpursue

/-- In the turn in which a request holds a reply against its session, the slot of its key is emptied. -/
lemma Hears.slot {r : Client.Request} {session : SessionRef} {reply : Client.Reply} {R : Routine}
    (h : Hears m t input r session reply R) (hgiven : Given p s t R m input)
    (hblames : r.Blames reply) : (m.resume t R input).slots.get? r.key = none := by
  obtain ⟨s', fuel, hlearned, hproceed⟩ := h.proceed
  have hmoves := hlearned.moves hgiven
  obtain ⟨log, hclose⟩ := r.onReply_of_blames session hblames
  have hlog : Moves p .all s' (s'.report log) := moves_report log
  have htidy := hgiven.sound.toTidy.moves (hmoves.trans hlog)
  have hslot := slot_beginClosing htidy r.key
  have hpursue : (m.proceed t R input).1.slots = ((s'.report log).beginClosing r.key).1.slots := by
    rw [hproceed, hclose, Client.Request.close, Supervisor.pursue]
    dsimp only
    generalize (s'.report log).beginClosing r.key = part
    obtain ⟨s₁, course⟩ := part
    cases course with
    | waits state g => rfl
    | ends o => cases o <;> rfl
  rw [resume_eq, slots_follow, hpursue, hslot]

/-! ## Startups that have lost their slot -/

/-- The startup `v` has ended with the session `n` and is in no slot. -/
structure Discarded (p : Plan) (v : Id) (n : Nat) (s : Supervisor) : Prop where
  marked : p.mark? v ≠ none
  session : s.sessionOf? v = some n
  slots : ∀ key, s.slots.get? key ≠ some v
  sole : Sole p s

/-- No other startup has ended with the session. -/
lemma Discarded.eq_of_session (h : Discarded p v n s) (hs : Sound p running s)
    (hmark : p.mark? u ≠ none) (hu : s.sessionOf? u = some n) : u = v := by
  obtain ⟨key, hkey⟩ := Option.ne_none_iff_exists'.1 hmark
  obtain ⟨n', x, hn', hx, -⟩ := hs.ended hkey (sessionOf?_eq_some_iff.1 hu)
  cases hn'
  exact h.sole hmark h.marked (.started hu hx rfl) (.started h.session hx rfl)

lemma Discarded.not_in_slot (h : Discarded p v n s) (hs : Sound p running s)
    (hslot : s.slots.get? key = some u) : s.sessionOf? u ≠ some n := by
  intro hu
  obtain rfl := h.eq_of_session hs (by simp [hs.slots hslot]) hu
  exact h.slots key hslot

/-- Only new startups are put into slots. -/
lemma Stepped.discarded (hstepped : Stepped p p' turn keys s s') (hs : Sound p none s)
    (hturn : ∀ {t a}, turn = some t → s.kernel.activity? t = some a → HasTurn p s s' t a)
    (h : Discarded p v n s) : Discarded p' v n s' where
  marked := by
    rw [hstepped.onward.plan.mark v (hs.follows.marks h.marked)]
    exact h.marked
  session :=
    sessionOf?_eq_some_iff.2 (hstepped.onward.outcome (sessionOf?_eq_some_iff.1 h.session))
  slots key hslot := by
    rcases hstepped.fills hslot with hbefore | ⟨-, hnew⟩
    · exact h.slots key hbefore
    · exact absurd (hs.follows.marks h.marked) (Nat.not_lt.2 hnew)
  sole := hstepped.sole hs hturn h.sole

lemma Scene.Sound.discarded (hsound : c.Sound p) (h : Discarded p v n c.supervisor)
    (hrun : Run c keys d) : ∃ p', d.Sound p' ∧ Discarded p' v n d.supervisor := by
  induction hrun with
  | refl => exact ⟨p, hsound, h⟩
  | tail _ hstep ih =>
    obtain ⟨p₁, hsound₁, h₁⟩ := ih
    obtain ⟨p₂, turn, hstepped, hsound₂, hturn⟩ := hsound₁.happens hstep
    exact ⟨p₂, hsound₂, hstepped.discarded hsound₁.sound hturn h₁⟩

/-! ## Those who ask for a session -/

/-- What asks for the session of a project. -/
def Routine.asks : Routine → Bool
  | .acquire _ | .ask _ _ | .errand _ _ => true
  | _ => false

/-- In a turn that begins in `m`, the session `n` is handed to whoever asked for one: at once, or after
a startup has ended with it. -/
def Routine.Gets (n : Nat) (m : Supervisor) (input : Outcome Value Failure) : Routine → Prop
  | .acquire project => (m.beginAcquiring project).2 = .ends (.value (.session n))
  | .ask c q => (m.beginAcquiring (c.resolve q.file)).2 = .ends (.value (.session n))
  | .errand c q => (m.start.beginAcquiring (c.resolve q.file)).2 = .ends (.value (.session n))
  | .acquiring _ _ | .answering (.opening _ _ _) | .asking (.opening _ _ _) =>
    input = .value (.session n)
  | _ => False

/-- Somebody who wants a session only to have it. -/
def Routine.isDirect : Routine → Bool
  | .acquire _ | .acquiring _ _ => true
  | _ => false

/-- Whoever waits for a startup waits for another one than `v`. -/
structure Elsewhere (v : Id) (direct : Prop) (r : Routine) : Prop where
  starts : r.starts? = none
  helps : r.helps = false
  awaits : ∀ {key u}, r.awaits? = some (key, u) → u ≠ v
  kind : direct → r.isDirect = true

lemma Routine.asks.elsewhere (h : r.asks = true) (v : Id) :
    Elsewhere v (r.isDirect = true) r := by
  cases r with
  | acquire | ask | errand => exact ⟨rfl, rfl, fun haw => by simp [Routine.awaits?] at haw, id⟩
  | _ => cases h

variable {direct : Prop}

/-- Nobody is handed a session whose startup is in no slot, unless it has waited for that startup. -/
lemma Given.not_gets (h : Given p s t r m input) (hs : Sound p none s) (hr : Elsewhere v direct r)
    (hgone : Discarded p v n s) : ¬r.Gets n m input := by
  have hslots : m.slots = s.slots := by rw [h.same]
  have hsession : ∀ u, m.sessionOf? u = s.sessionOf? u := fun u => by
    rw [sessionOf?, sessionOf?, h.outcome]
  -- whoever gets a session at once has found its startup in a slot
  have atOnce : ∀ {s₁ : Supervisor} {project : Project}, s₁.slots = m.slots →
      (∀ u, s₁.sessionOf? u = m.sessionOf? u) →
      (s₁.beginAcquiring project).2 ≠ .ends (.value (.session n)) := fun hslots₁ hsession₁ hends => by
    obtain ⟨u, hslot, hu⟩ := slot_of_beginAcquiring_ends hends
    rw [hsession₁, hsession] at hu
    rw [hslots₁, hslots] at hslot
    exact hgone.not_in_slot hs hslot hu
  -- whoever has waited is told what came of another startup
  have later : ∀ {key u}, r.awaits? = some (key, u) → input ≠ .value (.session n) :=
    fun haw htold => by
      obtain ⟨x, hfits⟩ := h.fits
      obtain ⟨-, -, -, hmark⟩ := hfits.awaits haw
      exact hr.awaits haw (hgone.eq_of_session hs (by simp [hmark])
        (sessionOf?_eq_some_iff.2 (h.told haw htold)))
  intro hgets
  cases r with
  | acquire project => exact atOnce rfl (fun _ => rfl) hgets
  | ask c q => exact atOnce rfl (fun _ => rfl) hgets
  | errand c q =>
    refine atOnce ?_ (fun u => ?_) hgets
    · rw [start]
      split <;> rfl
    · rw [start]
      split
      · rfl
      · simp only [sessionOf?, Kernel.outcome?_spawn]
  | acquiring key u => exact later rfl hgets
  | answering a =>
    cases a with
    | opening r key u => exact later rfl hgets
    | calling | timed | closing => exact hgets
  | asking a =>
    cases a with
    | opening r key u => exact later rfl hgets
    | calling | timed | closing => exact hgets
  | _ => exact hgets

/-- Whoever waits elsewhere does not get the session, and afterwards it waits elsewhere again. -/
lemma Given.stays_elsewhere (h : Given p s t r m input) (hs : Sound p none s)
    (hr : Elsewhere v direct r) (hgone : Discarded p v n s)
    (hafter : Discarded p' v n (m.resume t r input)) :
    Stays (fun _ _ => Elsewhere v direct) (fun o => direct → o ≠ .value (.session n)) p'
      (m.resume t r input) t := by
  have hrests := h.rests hr.starts
  have hsteady := steady_proceed h.sound.toTidy t r hr.starts input
  have hgets := h.not_gets hs hr hgone
  obtain ⟨p₁, hsound⟩ := hrests.sound
  rw [resume_eq] at hafter ⊢
  refine hsound.stays_follow (fun {r' g} hwaits => ?_) (fun {o} hends hdirect => ?_)
    fun _ ho => by cases ho
  · refine ⟨hrests.starts hwaits, (hsteady.waits hwaits).1.trans hr.helps, fun haw => ?_, fun hd => ?_⟩
    · rintro rfl
      have hslot := hrests.slot hwaits haw
      rw [← slots_follow _ t (m.proceed t r input).2] at hslot
      exact hafter.slots _ hslot
    · have hkind := hr.kind hd
      cases r with
      | acquire project =>
        rw [proceed, within] at hwaits
        generalize m.beginAcquiring project = part at hwaits
        obtain ⟨s₁, course⟩ := part
        cases course with
        | waits x g => cases hwaits; rfl
        | ends o => cases hwaits
      | acquiring key u =>
        obtain ⟨o, hend, -⟩ := resumeAcquiring_ends m t key u input
        rw [proceed, hend] at hwaits
        cases hwaits
      | _ => cases hkind
  · rintro rfl
    have hkind := hr.kind hdirect
    cases r with
    | acquire project =>
      refine hgets ?_
      rw [proceed, within] at hends
      rw [Routine.Gets]
      generalize m.beginAcquiring project = part at hends ⊢
      obtain ⟨s₁, course⟩ := part
      cases course with
      | waits x g => cases hends
      | ends o => cases hends; rfl
    | acquiring key u =>
      obtain ⟨o, hend, hvalue⟩ := resumeAcquiring_ends m t key u input
      rw [proceed, hend] at hends
      cases hends
      exact hgets (hvalue _ rfl)
    | _ => cases hkind

/-- From the first turn on, whoever asks for a session after its startup has lost its slot waits
elsewhere. -/
lemma Scene.Sound.elsewhere (h : d.Sound p) (hgone : Discarded p v n d.supervisor)
    (hstays : Stays (fun _ _ => Elsewhere v direct) (fun o => direct → o ≠ .value (.session n)) p
      d.supervisor t) (hrun : Run d keys e) :
    ∃ p', e.Sound p' ∧ Discarded p' v n e.supervisor ∧
      Stays (fun _ _ => Elsewhere v direct) (fun o => direct → o ≠ .value (.session n)) p'
        e.supervisor t := by
  induction hrun with
  | refl => exact ⟨p, h, hgone, hstays⟩
  | tail _ hstep ih =>
    obtain ⟨p₁, hsound, hgone₁, hstays₁⟩ := ih
    obtain ⟨p₂, turn, hstepped, hsound₂, hturn⟩ := hsound.happens hstep
    have hgone₂ := hstepped.discarded hsound.sound hturn hgone₁
    refine ⟨p₂, hsound₂, hgone₂, ?_⟩
    refine hstepped.stays hsound.sound hturn hstays₁ Elsewhere.helps (fun _ ho => by cases ho) id ?_
    rintro r m input hr hgiven hafter
    rw [hafter] at hgone₂ ⊢
    exact hgiven.stays_elsewhere hsound.sound hr hgone₁ hgone₂

/-! ## No session that has failed is handed out again -/

/-- The session `n` is never handed out from the scene `d` on. -/
structure Shunned (n : Nat) (d : Scene) : Prop where
  /-- It is in no slot. -/
  slots : ∀ {key u}, d.supervisor.slots.get? key = some u → d.supervisor.sessionOf? u ≠ some n
  /-- Whoever begins to ask for a session does not get this one, at once or in any later turn. -/
  withheld : ∀ {keys e f t r m input}, Run d keys e → GoesOn t r m input e f → r.asks = true →
    ¬r.Gets n m input ∧ ∀ {more e' f' r' m' input'}, Run f more e' →
      GoesOn t r' m' input' e' f' → ¬r'.Gets n m' input'
  /-- Nor is this one what comes of asking. -/
  returned : ∀ {keys e f t project m input more g}, Run d keys e →
    GoesOn t (.acquire project) m input e f → Run f more g →
      g.supervisor.kernel.outcome? t ≠ some (.value (.session n))

lemma Scene.Sound.shunned (h : d.Sound p) (hgone : Discarded p v n d.supervisor) : Shunned n d := by
  -- the turn in which somebody begins to ask, and all that follows
  have asking : ∀ {keys e f t r m input}, Run d keys e → GoesOn t r m input e f → r.asks = true →
      ¬r.Gets n m input ∧ ∃ p', f.Sound p' ∧ Discarded p' v n f.supervisor ∧
        Stays (fun _ _ => Elsewhere v (r.isDirect = true))
          (fun o => r.isDirect = true → o ≠ .value (.session n)) p' f.supervisor t := by
    intro keys e f t r m input hrun hturn hasks
    obtain ⟨p₁, hsound, hgone₁⟩ := h.discarded hgone hrun
    have hr := Routine.asks.elsewhere hasks v
    obtain ⟨hgiven, hafter⟩ := hsound.goesOn hturn hr.helps
    refine ⟨hgiven.not_gets hsound.sound hr hgone₁, ?_⟩
    obtain ⟨now, hstep⟩ := hturn.happens
    obtain ⟨p₂, turn, hstepped, hsound₂, hturn₂⟩ := hsound.happens hstep
    have hgone₂ := hstepped.discarded hsound.sound hturn₂ hgone₁
    refine ⟨p₂, hsound₂, hgone₂, ?_⟩
    rw [hafter] at hgone₂ ⊢
    exact hgiven.stays_elsewhere hsound.sound hr hgone₁ hgone₂
  refine ⟨hgone.not_in_slot h.sound, fun hrun hturn hasks => ?_, fun hrun hturn hrest ho => ?_⟩
  · obtain ⟨hnot, p₁, hsound, hgone₁, hstays⟩ := asking hrun hturn hasks
    refine ⟨hnot, fun hmore hturn' => ?_⟩
    obtain ⟨p₂, hsound₂, hgone₂, hstays₂⟩ := hsound.elsewhere hgone₁ hstays hmore
    have hr' := hsound₂.good_of_goesOn hstays₂ hturn'
    obtain ⟨hgiven, -⟩ := hsound₂.goesOn hturn' hr'.helps
    exact hgiven.not_gets hsound₂.sound hr' hgone₂
  · obtain ⟨-, p₁, hsound, hgone₁, hstays⟩ := asking hrun hturn rfl
    obtain ⟨p₂, hsound₂, -, hstays₂⟩ := hsound.elsewhere hgone₁ hstays hrest
    rcases hstays₂ with ⟨a, r, ha, -⟩ | ⟨o, ho', hother⟩
    · cases (hsound₂.sound.waking.unsettled ha).symm.trans ho
    · cases ho'.symm.trans ho
      exact hother rfl rfl

/-- Whoever hears of its call carries its question, and the session came of a startup for its key. -/
lemma Hears.based {r : Client.Request} {session : SessionRef} {reply : Client.Reply} {R : Routine}
    {client : Client} {q : Query} (h : Hears m t input r session reply R)
    (hgiven : Given p s t R m input) (hs : Sound p none s) (hR : AtRequest client q p s R) :
    r.Carries client q ∧ OpenedFor p s ((client.resolve q.file).key s.cwd) session.handle := by
  cases h with
  | called => exact hR
  | timed => exact hR
  | opened hacquired hopened hcalls =>
    obtain ⟨hcarries, rfl⟩ := hR
    obtain ⟨x, hfits⟩ := hgiven.fits
    obtain ⟨-, -, -, hmark⟩ := hfits.awaits rfl
    obtain ⟨o, hend, hvalue⟩ := resumeAcquiring_ends m t ((client.resolve q.file).key s.cwd) _ input
    cases hend.symm.trans hacquired
    cases sessionResult_eq_ok hopened
    obtain ⟨hnext, -, -⟩ := hcalls
    exact ⟨hcarries.onSession hnext, _, hmark,
      sessionOf?_eq_some_iff.2 (hgiven.told rfl (hvalue _ rfl))⟩
  | begun hasks hacquired hopened hcalls =>
    obtain ⟨rfl, rfl⟩ := hR
    rcases Client.Request.begin_eq _ _ with hnext | hnext
    · cases hnext.symm.trans hasks
    · cases hnext.symm.trans hasks
      cases sessionResult_eq_ok hopened
      obtain ⟨u, hslot, hu⟩ := slot_of_beginAcquiring_ends (congrArg Prod.snd hacquired)
      have hcwd : m.cwd = s.cwd := by rw [hgiven.same]
      have hslots : m.slots = s.slots := by rw [hgiven.same]
      rw [hcwd, hslots] at hslot
      obtain ⟨hcall, -, -⟩ := hcalls
      refine ⟨.onSession ⟨rfl, rfl, rfl⟩ hcall, u, hs.slots hslot, sessionOf?_eq_some_iff.2 ?_⟩
      exact (hgiven.outcome u).symm.trans (sessionOf?_eq_some_iff.1 hu)

/-- The next task to go on is told that its call over a session was answered by a text. -/
def textHeard? (s : Supervisor) (limit : Float) : Option (Id × Nat × Text) :=
  match s.kernel.next? limit with
  | some (k, .resume t (.answering (.calling _ session state)) input) =>
    match (resumeCall { s with kernel := k } session.handle state input).2 with
    | .ends (.value (.reply (.string v))) => some (t, session.handle, v)
    | _ => none
  | _ => none

/-- A request is told that the daemon has lost its connection. -/
lemma hears_of_textHeard? {limit : Float} (h : s.textHeard? limit = some (t, n, lostConnection))
    (calls : List Id) :
    ∃ m input request session reply a s', GoesOn t (.answering a) m input ⟨s, calls⟩ ⟨s', calls⟩ ∧
      Hears m t input request session reply (.answering a) ∧ request.Blames reply ∧
      session.handle = n := by
  unfold textHeard? at h
  split at h
  · next k t' request session state input hnext =>
    split at h
    · next v hcall =>
      cases h
      have hstep : s.step? limit =
          some (resume { s with kernel := k } t (.answering (.calling request session state)) input) := by
        rw [step?, hnext]
      exact ⟨_, input, request, session, .value (.string lostConnection), _, _,
        .resumes hnext hstep rfl, .called (Prod.ext rfl hcall) rfl, rfl, rfl⟩
    · cases h
  · cases h

/-- A supervisor whose daemons have lost their connections. -/
def disowning : Scene := Scene.fresh { command := ["nimsuggest"] } "/work"
  [{ answers := [("def", .string lostConnection)] }]

/-- A client asks one of them for a definition, and is about to be told. -/
def disowned : Supervisor :=
  (disowning.supervisor.enter
    (.ask { cwd := "/work" } { command := .definition, file := "/work/p.nim" })).runUntil
    (fun _ => false) 0 14

end Supervisor

end SuggestBridge
