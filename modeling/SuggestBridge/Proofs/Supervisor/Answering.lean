import SuggestBridge.Proofs.Supervisor.Belonging
import SuggestBridge.Proofs.Supervisor.Tracking

/-!
# Requests along a run

A request of a client is one task.  It gets the session of its project, calls the daemon over that
session, and at most closes something before it ends.  `Asking.Based` says what is known of it wherever
it waits: it still carries the question that it began with, and the session that it calls over came of a
startup for the key of that question's project.  It is kept by every turn of the request, at whatever
point of a run it comes, so it holds whenever the turn of a request has come (`Requests.place`).
-/

namespace SuggestBridge

open SuggestBridge.Task

/-! ## What belongs to a question -/

namespace Client

/-- A request under way for a question of a client. -/
structure Request.Carries (r : Request) (c : Client) (q : Query) : Prop where
  client : r.client = c
  query : r.query = q
  project : r.project = c.resolve q.file

variable {c : Client} {q : Query} {r : Request} {ok : SessionRef → Prop}

lemma Request.Carries.key (h : r.Carries c q) : r.key = (c.resolve q.file).key c.cwd := by
  rw [Request.key, h.client, h.project]

/-- The next call is for a question, and over a session that is in order; no session is asked for. -/
def Next.About (c : Client) (q : Query) (ok : SessionRef → Prop) : Next → Prop
  | .ends _ => True
  | .needs _ (.session _) => False
  | .needs r (.call session _ _ _) => r.Carries c q ∧ ok session
  | .needs _ (.close _) => True

lemma Next.Closes.about {key : Text} {next : Next} (h : next.Closes key) : next.About c q ok := by
  cases next with
  | ends result => trivial
  | needs r n =>
    cases n with
    | close key' => trivial
    | session | call => exact h.elim

lemma Request.Carries.about (h : r.Carries c q) {session : Except Failure SessionRef}
    (hok : ∀ ref, session = .ok ref → ok ref) : (r.onSession session).1.About c q ok := by
  unfold Request.onSession
  split
  · exact (r.closes_fail _).about
  · next ref =>
    split
    · exact (r.closes_fail _).about
    · exact ⟨⟨h.client, h.query, h.project⟩, hok ref rfl⟩

/-- A request goes on as one for its question. -/
lemma Request.Carries.onSession (h : r.Carries c q) {session : SessionRef} {r' : Request} {n : Need}
    {log : List LogLine} (hnext : r.onSession (.ok session) = (.needs r' n, log)) :
    r'.Carries c q := by
  unfold Request.onSession at hnext
  dsimp only at hnext
  split at hnext
  · cases hnext
    exact ⟨h.client, h.query, h.project⟩
  · cases hnext
    exact ⟨h.client, h.query, h.project⟩

end Client

namespace Supervisor

variable {p p' : Plan} {ω : Warrant} {s s' m : Supervisor} {turn : Option Id} {t : Id}
variable {b b' d : Scene} {keys : List Text} {key : Text} {n : Nat} {input : Outcome Value Failure}
variable {c : Client} {q : Query} {ok : SessionRef → Prop} {a : Asking}

/-- The call that a request waits for is for a question, and over a session that is in order. -/
def Asking.About (c : Client) (q : Query) (ok : SessionRef → Prop) : Asking → Prop
  | .opening _ _ _ => False
  | .calling r session _ | .timed r session _ => r.Carries c q ∧ ok session
  | .closing _ _ => True

/-- Whatever a request needs next, it waits for just that. -/
lemma about_pursue {fuel : Nat} {next : Client.Next} {log : List LogLine} {g : Id}
    (h : next.About c q ok) (hwaits : (s.pursue fuel (next, log)).2 = .waits a g) :
    a.About c q ok := by
  induction fuel generalizing s next log with
  | zero => cases hwaits
  | succ fuel ih =>
    unfold pursue at hwaits
    dsimp only at hwaits
    split at hwaits
    · cases hwaits
    · cases hwaits
    · exact h.elim
    · next r session method args =>
      generalize (s.report log).beginCall session.handle method args = part at hwaits
      obtain ⟨s₁, course⟩ := part
      cases course with
      | waits state future =>
        cases hwaits
        exact h
      | ends o =>
        dsimp only [Progress.andThen] at hwaits
        split at hwaits
        · exact ih (r.closes_onReply session _).about hwaits
        · cases hwaits
    · next r session method args timeout =>
      split at hwaits
      · cases hwaits
        exact h
      · split at hwaits
        · exact ih (r.closes_onReply session _).about hwaits
        · cases hwaits
    · next r key' =>
      generalize (s.report log).beginClosing key' = part at hwaits
      obtain ⟨s₁, course⟩ := part
      cases course with
      | waits state future =>
        cases hwaits
        trivial
      | ends o =>
        dsimp only [Progress.andThen] at hwaits
        split at hwaits <;> cases hwaits

/-! ## Where a request waits -/

/-- A session came of a startup for a key. -/
def OpenedFor (p : Plan) (s : Supervisor) (key : Text) (n : Nat) : Prop :=
  ∃ v, p.mark? v = some key ∧ s.sessionOf? v = some n

lemma OpenedFor.onward (h : OpenedFor p s key n) (hf : s.kernel.Follows p)
    (hon : Onward p p' turn s s') : OpenedFor p' s' key n := by
  obtain ⟨v, hmark, hsession⟩ := h
  refine ⟨v, (hon.plan.mark v (hf.marks (by simp [hmark]))).trans hmark, ?_⟩
  exact sessionOf?_eq_some_iff.2 (hon.outcome (sessionOf?_eq_some_iff.1 hsession))

/-- The request of a client waits for the startup of its project, or it calls over a session that came
of one. -/
def Asking.Based (p : Plan) (s : Supervisor) (c : Client) (q : Query) : Asking → Prop
  | .opening r key _ => r.Carries c q ∧ key = (c.resolve q.file).key s.cwd
  | .calling r session _ | .timed r session _ =>
    r.Carries c q ∧ OpenedFor p s ((c.resolve q.file).key s.cwd) session.handle
  | .closing _ _ => True

lemma Asking.About.based
    (h : a.About c q fun session => OpenedFor p s ((c.resolve q.file).key s.cwd) session.handle) :
    a.Based p s c q := by
  cases a with
  | opening => exact h.elim
  | calling | timed => exact h
  | closing => trivial

lemma Asking.Based.onward (h : a.Based p s c q) (hf : s.kernel.Follows p)
    (hon : Onward p p' turn s s') : a.Based p' s' c q := by
  have hcwd := hon.keeps.cwd
  cases a with
  | opening => exact ⟨h.1, hcwd ▸ h.2⟩
  | calling => exact ⟨h.1, hcwd ▸ h.2.onward hf hon⟩
  | timed => exact ⟨h.1, hcwd ▸ h.2.onward hf hon⟩
  | closing => trivial

lemma handle_refOf (s : Supervisor) (n : Nat) : (s.refOf n).handle = n := by
  unfold refOf
  split <;> rfl

/-- Whoever was waiting for a session is told of one only if that is what came of the startup. -/
lemma sessionResult_eq_ok {o : Outcome Value Failure} {session : SessionRef}
    (h : s.sessionResult o = some (.ok session)) : o = .value (.session session.handle) := by
  unfold sessionResult at h
  split at h
  · next n =>
    cases h
    rw [handle_refOf]
  · cases h
  · cases h
  · cases h

/-- The first turn of a request. -/
lemma Given.based_beginAsking (h : Given p s t (.ask c q) m input) {g : Id}
    (hwaits : (m.beginAsking c q).2 = .waits a g) : a.Based p s c q := by
  have hcwd : m.cwd = s.cwd := by rw [h.same]
  rw [Supervisor.beginAsking] at hwaits
  rcases Client.Request.begin_eq c q with hnext | hnext
  · rw [hnext] at hwaits
    cases hwaits
  · rw [hnext, show needs = 3 + 1 from rfl, pursue_session] at hwaits
    have hlog : Moves p .all m (m.report []) := moves_report []
    have hwaiting := @slot_of_beginAcquiring (m.report []) (c.resolve q.file)
    have hends := @slot_of_beginAcquiring_ends (m.report []) (c.resolve q.file)
    generalize (m.report []).beginAcquiring (c.resolve q.file) = part at hwaits hwaiting hends
    obtain ⟨s₁, course⟩ := part
    cases course with
    | waits x future =>
      obtain ⟨hkey, -⟩ := hwaiting rfl
      cases hwaits
      exact ⟨⟨rfl, rfl, rfl⟩, hkey.trans (congrArg (c.resolve q.file).key hcwd)⟩
    | ends o =>
      dsimp only [Progress.andThen, onOpened] at hwaits
      split at hwaits
      · next session hsession =>
        have hcarries : Client.Request.Carries ⟨c, q, c.resolve q.file, .opening⟩ c q := ⟨rfl, rfl, rfl⟩
        refine (about_pursue (hcarries.about fun ref href => ?_) hwaits).based
        subst href
        cases sessionResult_eq_ok hsession
        obtain ⟨u, hslot, hn⟩ := hends rfl
        refine ⟨u, hcwd ▸ (h.sound.moves hlog).slots hslot, sessionOf?_eq_some_iff.2 ?_⟩
        exact (h.outcome u).symm.trans (sessionOf?_eq_some_iff.1 hn)
      · cases hwaits

/-- Any later turn of a request. -/
lemma Given.based_resumeAsking (h : Given p s t (.answering a) m input) (ha : a.Based p s c q)
    {a' : Asking} {g : Id} (hwaits : (m.resumeAsking t a input).2 = .waits a' g) :
    a'.Based p s c q := by
  cases a with
  | opening r key u =>
    obtain ⟨hcarries, rfl⟩ := ha
    obtain ⟨x, hfits⟩ := h.fits
    obtain ⟨-, -, -, hmark⟩ := hfits.awaits rfl
    obtain ⟨o, hend, hvalue⟩ := resumeAcquiring_ends m t ((c.resolve q.file).key s.cwd) u input
    rw [resumeAsking_opening, hend] at hwaits
    dsimp only [Progress.andThen, onOpened] at hwaits
    split at hwaits
    · next session hsession =>
      refine (about_pursue (hcarries.about fun ref href => ?_) hwaits).based
      subst href
      cases sessionResult_eq_ok hsession
      exact ⟨u, hmark, sessionOf?_eq_some_iff.2 (h.told rfl (hvalue _ rfl))⟩
    · cases hwaits
  | calling r session state =>
    rw [resumeAsking] at hwaits
    generalize m.resumeCall session.handle state input = part at hwaits
    obtain ⟨s₁, course⟩ := part
    cases course with
    | waits st future =>
      cases hwaits
      exact ha
    | ends o =>
      dsimp only [Progress.andThen] at hwaits
      split at hwaits
      · exact (about_pursue (r.closes_onReply session _).about hwaits).based
      · cases hwaits
  | timed r session w =>
    rw [resumeAsking] at hwaits
    dsimp only at hwaits
    split at hwaits
    · cases hwaits
      exact ha
    · split at hwaits
      · exact (about_pursue (r.closes_onReply session _).about hwaits).based
      · cases hwaits
  | closing rows w =>
    rw [resumeAsking] at hwaits
    generalize m.resumeClosing w input = part at hwaits
    obtain ⟨s₁, course⟩ := part
    cases course with
    | waits st future =>
      cases hwaits
      trivial
    | ends o =>
      dsimp only [Progress.andThen] at hwaits
      split at hwaits <;> cases hwaits

/-! ## Requests in a run -/

/-- A request for a question, about to begin or somewhere on its way. -/
def AtRequest (c : Client) (q : Query) (p : Plan) (s : Supervisor) : Routine → Prop
  | .ask c' q' => c' = c ∧ q' = q
  | .answering a => a.Based p s c q
  | _ => False

lemma AtRequest.helps {r : Routine} (h : AtRequest c q p s r) : r.helps = false := by
  cases r <;> first | rfl | exact h.elim

lemma AtRequest.onward {r : Routine} (h : AtRequest c q p s r) (hf : s.kernel.Follows p)
    (hon : Onward p p' turn s s') : AtRequest c q p' s' r := by
  cases r with
  | ask => exact h
  | answering a => exact Asking.Based.onward h hf hon
  | _ => exact h.elim

/-- A request stays one in its turns. -/
lemma Given.stays_atRequest {r : Routine} (h : Given p s t r m input) (hr : AtRequest c q p s r)
    (hf : s.kernel.Follows p) (hon : Onward p p' turn s (m.resume t r input)) :
    Stays (AtRequest c q) (fun _ => True) p' (m.resume t r input) t := by
  have hstarts : r.starts? = none := by cases r <;> first | rfl | exact hr.elim
  obtain ⟨p₁, hsound⟩ := (h.rests hstarts).sound
  rw [resume_eq] at hon ⊢
  refine hsound.stays_follow (fun {r' g} hwaits => ?_) (fun _ => trivial) trivial
  -- the place where the turn ends is that of the request, put into its routine
  have place : ∀ {part : Supervisor × Course Asking}, m.proceed t r input = within .answering part →
      (∀ {a' g}, part.2 = .waits a' g → a'.Based p s c q) →
      AtRequest c q p' ((m.proceed t r input).1.follow t (m.proceed t r input).2) r' := by
    rintro ⟨s₁, course⟩ heq hbased
    rw [heq] at hwaits
    cases course with
    | waits a' future =>
      cases hwaits
      exact (hbased rfl).onward hf hon
    | ends o => cases hwaits
  cases r with
  | ask c' q' =>
    obtain ⟨rfl, rfl⟩ := hr
    exact place rfl h.based_beginAsking
  | answering a => exact place rfl (h.based_resumeAsking hr)
  | _ => exact hr.elim

/-- The task `t` carries out a question in the scene `b` of a run from `origin`; it stands where it is
to begin or to go on. -/
inductive Requests (origin : Scene) (c : Client) (q : Query) (t : Id) (b : Scene) : Routine → Prop where
  | first {keys : List Text} (run : Run origin keys b) : Requests origin c q t b (.ask c q)
  | later {keys more : List Text} {d d' : Scene} {m : Supervisor} {input : Outcome Value Failure}
      {a : Asking} (run : Run origin keys d) (begun : GoesOn t (.ask c q) m input d d')
      (rest : Run d' more b) : Requests origin c q t b (.answering a)

/-- From its first turn on, a task that carries out a question goes on to do so. -/
lemma Scene.Sound.requests (h : d.Sound p) (hsole : Sole p d.supervisor)
    (hstays : Stays (AtRequest c q) (fun _ => True) p d.supervisor t) (hrun : Run d keys b) :
    ∃ p', b.Sound p' ∧ Sole p' b.supervisor ∧
      Stays (AtRequest c q) (fun _ => True) p' b.supervisor t := by
  induction hrun with
  | refl => exact ⟨p, h, hsole, hstays⟩
  | tail _ hstep ih =>
    obtain ⟨p₁, hsound, hsole₁, hstays₁⟩ := ih
    obtain ⟨p₂, turn, hstepped, hsound₂, hturn⟩ := hsound.happens hstep
    refine ⟨p₂, hsound₂, hstepped.sole hsound.sound hturn hsole₁, ?_⟩
    have hfollows := hsound.sound.follows
    refine hstepped.stays hsound.sound hturn hstays₁ AtRequest.helps trivial
      (fun hr => hr.onward hfollows hstepped.onward) ?_
    rintro r m input hr hgiven hafter
    rw [hafter]
    exact hgiven.stays_atRequest hr hfollows (hafter ▸ hstepped.onward)

/-- When the turn of a request has come in a run, it is known where the request stands. -/
theorem Requests.place {settings : Settings} {cwd : Text} {scripts : List Daemon.Script} {R : Routine}
    (h : Requests (Scene.fresh settings cwd scripts) c q t b R) (hturn : GoesOn t R m input b b') :
    ∃ p, b.Sound p ∧ Sole p b.supervisor ∧ b.supervisor.cwd = cwd ∧ AtRequest c q p b.supervisor R := by
  have hfresh := Scene.sound_fresh settings cwd scripts
  have hsole : Sole {} (Scene.fresh settings cwd scripts).supervisor := fun hu => absurd rfl hu
  cases h with
  | first hrun =>
    obtain ⟨p, hsound, hsole₁, -⟩ := hfresh.owns_back hsole hrun
    exact ⟨p, hsound, hsole₁, hfresh.cwd hrun, rfl, rfl⟩
  | @later keys more d d' m' input' a hrun hbegun hrest =>
    obtain ⟨p, hsound, hsole₁, -⟩ := hfresh.owns_back hsole hrun
    obtain ⟨now, hhappens⟩ := hbegun.happens
    obtain ⟨hgiven, hafter⟩ := hsound.goesOn hbegun rfl
    obtain ⟨p₁, turn, hstepped, hsound₁, hturn₁⟩ := hsound.happens hhappens
    have hsole₂ : Sole p₁ d'.supervisor := hstepped.sole hsound.sound hturn₁ hsole₁
    have hstays : Stays (AtRequest c q) (fun _ => True) p₁ d'.supervisor t := by
      rw [hafter]
      exact hgiven.stays_atRequest ⟨rfl, rfl⟩ hsound.sound.follows (hafter ▸ hstepped.onward)
    obtain ⟨p₂, hsound₂, hsole₃, hstays₂⟩ := hsound₁.requests hsole₂ hstays hrest
    exact ⟨p₂, hsound₂, hsole₃, hfresh.cwd ((hrun.tail hhappens).trans hrest),
      hsound₂.good_of_goesOn hstays₂ hturn⟩

end Supervisor

end SuggestBridge
