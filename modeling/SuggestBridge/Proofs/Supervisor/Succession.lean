import SuggestBridge.Proofs.Supervisor.Belonging
import SuggestBridge.Proofs.Supervisor.SparingTurns

/-!
# What comes late

A startup that has lost its slot lives on for a while: its task is still to end, its process to exit, its
connection to close, its watcher to be told.  `Late` lists what can still happen to it and to what it has
had, and `spares_of_stale` says that whatever holds the slot by then is left alone: it keeps the slot, its
task is not concerned, its process runs as before, and the calls that wait over its connection wait on.
No two startups that have held slots have the same process (`Run.ne_of_owns`), so nothing that is looked
up by the process or by the key is ever taken for something else.
-/

namespace SuggestBridge.Supervisor

open SuggestBridge.Task

variable {p : Plan} {s s' : Supervisor} {k : Machine} {running : Option Id} {t u v : Id} {pid n m : Nat}
variable {key : Text} {start b c d e : Scene} {w w' : Ward} {r : Routine}

/-! ## The ward in a slot -/

/-- A startup has ended with a session that uses a connection. -/
def Reaches (s : Supervisor) (u : Id) (n : Nat) : Prop :=
  ∃ m, s.sessionOf? u = some m ∧ On s.opened n m

/-- A startup in the slot of a key, and all that it has. -/
def wardOf (s : Supervisor) (key : Text) (v : Id) : Ward where
  key := key
  startup := v
  futures x := x = v ∨ ∃ n l, s.Reaches v n ∧ s.links[n]? = some l ∧ l.Calls x
  process := s.Owns v
  session n := s.sessionOf? v = some n
  link := s.Reaches v
  line n := s.Reaches v n ∧ ∀ pid, s.Serves pid n → s.Owns v pid
  lines := And.left

lemma Sound.secure (h : Sound p running s) (hslot : s.slots.get? key = some v) :
    Secure p (s.wardOf key v) running s where
  sound := h
  slot := hslot
  startup := .inl rfl
  futures := by
    rintro x (rfl | ⟨n, l, hn, hl, hcall⟩)
    · exact .inl (by simp [h.slots hslot])
    · exact .inr ⟨n, l, hn, hl, hcall⟩
  processes := h.lt_of_owns
  sessions hn := by
    obtain ⟨m, x, hm, hx, -⟩ := h.ended (h.slots hslot) (sessionOf?_eq_some_iff.1 hn)
    cases hm
    exact (Array.getElem?_eq_some_iff.1 hx).1
  links := by
    rintro n ⟨m, -, x, hx, rfl⟩
    exact (h.opened hx).1

/-- A part of a ward. -/
structure Ward.Part (w w' : Ward) : Prop where
  futures : ∀ {x}, w.futures x → w'.futures x
  process : ∀ {pid}, w.process pid → w'.process pid
  session : ∀ {n}, w.session n → w'.session n
  link : ∀ {n}, w.link n → w'.link n
  line : ∀ {n}, w.line n → w'.line n

lemma Spares.part (h : Spares w' s s') (hpart : w.Part w') : Spares w s s' where
  slots := h.slots
  kernel :=
    { outcome := fun hx => h.kernel.outcome (hpart.futures hx)
      activity := fun hx => h.kernel.activity (hpart.futures hx)
      due := fun {hook} hh => by
        refine h.kernel.due ?_
        cases hook with
        | exit pid code => exact hpart.process hh
        | _ => exact hh }
  running hpid := h.running (hpart.process hpid)
  sessions hn := h.sessions (hpart.session hn)
  peers hn := h.peers (hpart.link hn)
  lines hn := h.lines (hpart.line hn)
  serves hn := h.serves (hpart.line hn)

/-- A startup that was left alone has what it had. -/
lemma Spares.wardOf (h : Spares (s.wardOf key v) s s') (hkeeps : Keeps s s') :
    (s.wardOf key v).Part (s'.wardOf key v) := by
  have hout : s'.kernel.outcome? v = s.kernel.outcome? v := h.kernel.outcome (.inl rfl)
  have hsession : ∀ {n}, s.sessionOf? v = some n → s'.sessionOf? v = some n := fun hn =>
    sessionOf?_eq_some_iff.2 (hout.trans (sessionOf?_eq_some_iff.1 hn))
  have howns : ∀ {pid}, s.Owns v pid → s'.Owns v pid := fun hown => by
    cases hown with
    | starting ha hr hchild =>
      exact .starting ((h.kernel.activity (.inl rfl)).trans ha) hr hchild
    | started hn hx hpid => exact .started (hsession hn) ((h.sessions hn).trans hx) hpid
  have hreaches : ∀ {n}, s.Reaches v n → s'.Reaches v n := by
    rintro n ⟨m, hm, x, hx, hn⟩
    exact ⟨m, hsession hm, x, (h.sessions hm).trans hx, hn⟩
  refine ⟨?_, howns, hsession, hreaches, fun hn => ⟨hreaches hn.1, fun pid hserves => ?_⟩⟩
  · rintro x (rfl | ⟨n, l, hn, hl, hcall⟩)
    · exact .inl rfl
    · have hl' := Array.getElem?_eq_getElem
        (Nat.lt_of_lt_of_le (Array.getElem?_eq_some_iff.1 hl).1 hkeeps.links)
      have hpeer := (peerOf_eq hl').symm.trans ((h.peers hn).trans (peerOf_eq hl))
      exact .inr ⟨n, _, hreaches hn, hl', by rwa [Link.Calls, hpeer]⟩
  · exact howns (hn.2 pid (h.serves hn hserves))

/-! ## What a startup has had -/

/-- A startup has been in the slot of a key. -/
def Held (start : Scene) (key : Text) (u : Id) (c : Scene) : Prop :=
  ∃ b before more, Run start before b ∧ b.supervisor.slots.get? key = some u ∧ Run b more c

/-- A startup that has been in the slot of a key has had a process, before it lost the slot or after. -/
def Had (start : Scene) (key : Text) (u : Id) (pid : Nat) (c : Scene) : Prop :=
  ∃ d rest, Held start key u d ∧ d.supervisor.Owns u pid ∧ Run d rest c

lemma Held.later (h : Held start key u c) {keys : List Text} (hrun : Run c keys d) :
    Held start key u d := by
  obtain ⟨b, before, more, hbefore, hslot, hmore⟩ := h
  exact ⟨b, before, _, hbefore, hslot, hmore.trans hrun⟩

section Fresh

variable {settings : Settings} {cwd : Text} {scripts : List Daemon.Script}

lemma Held.sound (h : Held (Scene.fresh settings cwd scripts) key u c) :
    ∃ p, c.Sound p ∧ p.mark? u = some key := by
  obtain ⟨b, before, more, hbefore, hslot, hmore⟩ := h
  obtain ⟨p₀, hsound₀, -⟩ := (Scene.sound_fresh settings cwd scripts).run hbefore
  obtain ⟨p, hsound, hplan, -⟩ := hsound₀.run hmore
  have hmark := hsound₀.sound.slots hslot
  exact ⟨p, hsound, (hplan.mark u (hsound₀.sound.follows.marks (by simp [hmark]))).trans hmark⟩

/-- The process that a startup has had is not that of the one that is in the slot now. -/
lemma Had.strange (h : Had (Scene.fresh settings cwd scripts) key u pid c)
    (hslot : c.supervisor.slots.get? key = some v) (hne : u ≠ v) :
    Strange (c.supervisor.wardOf key v) c.supervisor pid := by
  obtain ⟨d, rest, ⟨b, before, more, hbefore, hu, hmore⟩, hown, hrest⟩ := h
  have hother : ¬c.supervisor.Owns v pid := fun hown' =>
    hne (hbefore.ne_of_owns hu hmore hown hrest hslot hown')
  exact ⟨hother, fun hline hserves => hother (hline.2 pid hserves)⟩

/-- The session of a startup that has lost its slot. -/
lemma Held.foreign (h : Held (Scene.fresh settings cwd scripts) key u c)
    (hslot : c.supervisor.slots.get? key = some v) (hne : u ≠ v)
    (hsession : c.supervisor.sessionOf? u = some m) :
    Foreign (c.supervisor.wardOf key v) c.supervisor m := by
  obtain ⟨p, hsound, hmark⟩ := h.sound
  obtain ⟨m', x, hm, hx, hkey⟩ := hsound.sound.ended hmark (sessionOf?_eq_some_iff.1 hsession)
  cases hm
  have hstrange : Strange (c.supervisor.wardOf key v) c.supervisor x.pid :=
    Had.strange ⟨c, _, h, .started hsession hx rfl, .refl⟩ hslot hne
  exact ⟨⟨x, hx, hkey, hstrange⟩, fun hm => hstrange.process (.started hm hx rfl)⟩

/-- The connection of a startup that has lost its slot. -/
lemma Held.outlying (h : Held (Scene.fresh settings cwd scripts) key u c)
    (hslot : c.supervisor.slots.get? key = some v) (hne : u ≠ v) (hreaches : c.supervisor.Reaches u n) :
    Outlying (c.supervisor.wardOf key v) c.supervisor n := by
  obtain ⟨p, hsound, -⟩ := h.sound
  obtain ⟨m, hm, x, hx, hlink⟩ := hreaches
  have hforeign := h.foreign hslot hne hm
  have hsame : ∀ {m'}, On c.supervisor.opened n m' → m = m' := by
    rintro m' ⟨y, hy, hlink'⟩
    exact hsound.sound.apart.distinct hx hy (.inl (hlink.trans hlink'.symm))
  refine ⟨?_, fun hon => hsame hon ▸ hforeign⟩
  rintro ⟨m', hm', hon⟩
  exact hforeign.slot (hsame hon ▸ hm')

end Fresh

/-! ## Turns -/

/-- A routine that works for somebody else. -/
inductive Outside (w : Ward) (s : Supervisor) : Routine → Prop where
  | readLine (pid : Nat) : Outside w s (.readLine pid)
  | reap (pid : Nat) : Outside w s (.reap pid)
  | drain (key : Text) (pid : Nat) (o : Daemon.Output) : Outside w s (.drain key pid o)
  | watch {n : Nat} {x : Session} (session : s.opened[n]? = some x) (link : Outlying w s x.link) :
      Outside w s (.watch n)
  | listen {n : Nat} (link : Outlying w s n) : Outside w s (.listen n)

lemma Outside.starts (hr : Outside w s r) : r.starts? = none := by
  cases hr <;> rfl

lemma Outside.spares (hr : Outside w s r) (h : Secure p w running s) (t : Id)
    (input : Outcome Value Failure) : Spares w s (s.proceed t r input).1 := by
  cases hr with
  | readLine pid => exact spares_readLine h pid input
  | reap pid => exact spares_reap h pid input
  | drain key pid o => exact spares_drain h key pid o input
  | watch hx hlink => exact spares_watch h hx hlink input
  | listen hlink => exact spares_resumeListening h hlink input

/-- The kernel of a supervisor moves on without changing anything else. -/
lemma Outside.kernel (hr : Outside w s r) (hw : w.futures w.startup)
    (h : Spares w s { s with kernel := k }) : Outside w { s with kernel := k } r := by
  have hlink : ∀ {n}, Outlying w s n → Outlying w { s with kernel := k } n := fun hn =>
    hn.spares hw { Keeps.refl s with } h rfl
  cases hr with
  | readLine pid => exact .readLine pid
  | reap pid => exact .reap pid
  | drain key pid o => exact .drain key pid o
  | watch hx hn => exact .watch hx (hlink hn)
  | listen hn => exact .listen (hlink hn)

/-- The turn of a task that works for somebody else. -/
lemma Outside.turn (hr : Outside w { s with kernel := k } r)
    (hdue : AtTurn p s k t r) (h : Secure p w (some t) { s with kernel := k }) (ht : ¬w.futures t)
    (input : Outcome Value Failure) :
    Spares w { s with kernel := k } ((proceed { s with kernel := k } t r input).1.follow t
      (proceed { s with kernel := k } t r input).2) := by
  obtain ⟨x, hfits⟩ := hdue.fits
  have hkind : r.isPlain = true ∧ r.helps = true := by
    cases hr <;> exact ⟨rfl, rfl⟩
  have hsteady := steady_proceed h.tidy t r hr.starts input
  rw [hkind.2] at hsteady
  exact h.follow ht (turns_proceed h.tidy hfits hkind.1 input) (hr.spares h t input) hsteady

/-- A task that works for somebody else begins. -/
lemma Outside.begins (hr : Outside w { s with kernel := k } r)
    (hdue : AtTurn p s k t r) (h : Secure p w (some t) { s with kernel := k }) (ht : ¬w.futures t) :
    Spares w { s with kernel := k } (Supervisor.begin { s with kernel := k } t r) := by
  cases hr with
  | listen hlink =>
    exact h.follow ht (turns_beginListening h.tidy _) (spares_beginListening h hlink)
      (steady_beginListening h.tidy _)
  | readLine | reap | drain =>
    exact Outside.turn (by constructor) hdue h ht (.value .unit)
  | watch hx hlink => exact Outside.turn (.watch hx hlink) hdue h ht (.value .unit)

/-- Moves that stop nothing leave startups alone. -/
lemma Moves.activity?_eq {ω : Warrant} (hω : ∀ u, ¬ω.startup u) (hmoves : Moves p ω s s') (h : Tidy p s)
    (hu : p.mark? u ≠ none) : s'.kernel.activity? u = s.kernel.activity? u := by
  obtain ⟨hsteps, -, -⟩ := hmoves
  induction hsteps with
  | refl => rfl
  | tail hsteps hmove ih =>
    refine Eq.trans ?_ ih
    cases hmove with
    | kernel hacts => exact Kernel.Acts.marked hacts (h.steps hsteps).follows hu
    | close _ _ hmay => exact absurd hmay (hω _)
    | _ => rfl

/-- The turn of a startup that has lost its slot: it has begun, and its process is not that of the
ward. -/
lemma Secure.startupTurn (h : Secure p w none s) {project : Project} {state : Startup}
    (hdue : AtTurn p s k u (.startingUp project state)) (hkernel : Spares w s { s with kernel := k })
    (hu : ¬w.futures u) (hpid : Strange w s state.pid) (input : Outcome Value Failure) :
    Spares w { s with kernel := k }
      ((proceed { s with kernel := k } u (.startingUp project state) input).1.follow u
        (proceed { s with kernel := k } u (.startingUp project state) input).2) := by
  have hsecure : Secure p w (some u) { s with kernel := k } :=
    h.spares hkernel hdue.sound { Keeps.refl s with } (Nat.le_refl _)
  obtain ⟨x, hfits⟩ := hdue.fits
  obtain ⟨a, ha, hbody⟩ := hdue.stood
  have hmark : p.mark? u ≠ none := by
    rw [hfits.mark]
    nofun
  have hstate : state.Fits p { s with kernel := k } :=
    ⟨hfits.refs, hfits.child rfl, hdue.unowned rfl, hdue.helps nofun⟩
  have haside : ∀ t ∈ state.refs, Kernel.Aside w.futures k t := fun t ht => by
    have hne : t ≠ u := by
      rintro rfl
      exact hmark (hfits.refs t ht).2.2
    exact (h.aside (.child ha hbody nofun ht)).of_eq hdue.roused.widens (hdue.roused.outcome t)
      (hdue.roused.other t hne)
  have hspares := spares_resumeStartup hsecure project (hpid.spares hkernel) haside hfits.refs input
  have hturns : StartupTurns p ⟨fun _ => False, fun _ => False⟩ (project.key s.cwd) (some state.pid)
      { s with kernel := k } (resumeStartup { s with kernel := k } project state input) :=
    turns_resumeStartup hsecure.tidy project hstate input
  have hactivity := hturns.moves.activity?_eq (fun _ => id) hsecure.tidy hmark
  -- nobody asks a startup to cancel while it has its turn
  have hmust : (resumeStartup { s with kernel := k } project state input).1.kernel.mustCancel u = false := by
    obtain ⟨-, b, -, hb, -, -, hmust, -⟩ := hdue.roused.self
    rw [Kernel.mustCancel_eq, hactivity, hb]
    exact hmust
  rw [proceed]
  generalize resumeStartup { s with kernel := k } project state input = r at hspares hmust ⊢
  obtain ⟨s', course⟩ := r
  cases course with
  | waits state future => exact hspares.follow hu hmust _
  | ends o => exact hspares.follow hu hmust _

/-! ## Events -/

/-- What the kernel tells concerns a startup: that it has ended, that its process is to act or to exit, or
that a reply comes over its connection. -/
inductive Regards (start : Scene) (key : Text) (u : Id) (c : Scene) : Hook → Option Id → Prop where
  | ended (key' : Text) : Regards start key u c (.startupEnded key') (some u)
  | act {pid : Nat} (had : Had start key u pid c) (source : Option Id) :
      Regards start key u c (.act pid) source
  | exit {pid : Nat} (had : Had start key u pid c) (code : Int) (source : Option Id) :
      Regards start key u c (.exit pid code) source
  | deliver {n : Nat} (reaches : c.supervisor.Reaches u n) (message : Sexp) (source : Option Id) :
      Regards start key u c (.deliver n message) source

/-- A task is the startup itself, or works for it: it reads what its process writes, waits for its end,
watches its session, or listens on its connection. -/
inductive Works (start : Scene) (key : Text) (u : Id) (c : Scene) : Id → Routine → Prop where
  | itself (r : Routine) : Works start key u c u r
  | readLine {pid : Nat} (had : Had start key u pid c) (t : Id) : Works start key u c t (.readLine pid)
  | reap {pid : Nat} (had : Had start key u pid c) (t : Id) : Works start key u c t (.reap pid)
  | drain {pid : Nat} (had : Had start key u pid c) (t : Id) (name : Text) (o : Daemon.Output) :
      Works start key u c t (.drain name pid o)
  | watch {n : Nat} (session : c.supervisor.sessionOf? u = some n) (t : Id) :
      Works start key u c t (.watch n)
  | listen {n : Nat} (reaches : c.supervisor.Reaches u n) (t : Id) : Works start key u c t (.listen n)

/-- Something happens to a startup or to what it has had.  From outside its process writes, sends, exits,
or closes its connection, or its peer is closed; the supervisor does a job that concerns it. -/
inductive Late (start : Scene) (key : Text) (u : Id) : Scene → Scene → Prop where
  | write {s : Supervisor} {calls : List Id} {pid : Nat} (had : Had start key u pid ⟨s, calls⟩)
      (o : Daemon.Output) (data : Bytes) : Late start key u ⟨s, calls⟩ ⟨s.write pid o data, calls⟩
  | send {s : Supervisor} {calls : List Id} {pid : Nat} (had : Had start key u pid ⟨s, calls⟩)
      (data : Bytes) : Late start key u ⟨s, calls⟩ ⟨s.send pid data, calls⟩
  | exit {s : Supervisor} {calls : List Id} {pid : Nat} (had : Had start key u pid ⟨s, calls⟩)
      (code : Int) : Late start key u ⟨s, calls⟩ ⟨s.exit pid code, calls⟩
  | markExited {s : Supervisor} {calls : List Id} {pid : Nat} (had : Had start key u pid ⟨s, calls⟩)
      (code : Int) : Late start key u ⟨s, calls⟩ ⟨s.markExited pid code, calls⟩
  | hangUp {s : Supervisor} {calls : List Id} {pid : Nat} (had : Had start key u pid ⟨s, calls⟩) :
      Late start key u ⟨s, calls⟩ ⟨s.hangUpProcess pid, calls⟩
  | stopPeer {s : Supervisor} {n : Nat} (reaches : s.Reaches u n) (calls : List Id) :
      Late start key u ⟨s, calls⟩ ⟨s.stopPeer n, calls⟩
  | told {s : Supervisor} {k : Machine} {calls : List Id} {limit : Float} {h : Hook}
      {source : Option Id} (next : s.kernel.next? limit = some (k, .hook h source))
      (regards : Regards start key u ⟨s, calls⟩ h source) :
      Late start key u ⟨s, calls⟩ ⟨onHook { s with kernel := k } h source, calls⟩
  | begins {s : Supervisor} {k : Machine} {calls : List Id} {limit : Float} {t : Id} {r : Routine}
      (next : s.kernel.next? limit = some (k, .begin t r)) (works : Works start key u ⟨s, calls⟩ t r) :
      Late start key u ⟨s, calls⟩ ⟨Supervisor.begin { s with kernel := k } t r, calls⟩
  | resumes {s : Supervisor} {k : Machine} {calls : List Id} {limit : Float} {t : Id} {r : Routine}
      {input : Outcome Value Failure} (next : s.kernel.next? limit = some (k, .resume t r input))
      (works : Works start key u ⟨s, calls⟩ t r) :
      Late start key u ⟨s, calls⟩ ⟨resume { s with kernel := k } t r input, calls⟩
  /-- It was asked to cancel before it began, and has ended. -/
  | stillborn {s : Supervisor} {k : Machine} {limit : Float}
      (next : s.kernel.next? limit = some (k, .done)) (going : s.kernel.outcome? u = none)
      (ended : k.outcome? u ≠ none) (calls : List Id) :
      Late start key u ⟨s, calls⟩ ⟨{ s with kernel := k }, calls⟩

/-- All of that can happen. -/
lemma Late.happens (h : Late start key u c d) : ∃ keys, Happens c keys d := by
  cases h with
  | write _ o data => exact ⟨_, .write _ _ _ o data⟩
  | send _ data => exact ⟨_, .send _ _ _ data⟩
  | exit _ code => exact ⟨_, .exit _ _ _ code⟩
  | markExited _ code => exact ⟨_, .markExited _ _ _ code⟩
  | hangUp _ => exact ⟨_, .hangUp _ _ _⟩
  | stopPeer _ calls => exact ⟨_, .stopPeer _ _ _⟩
  | told hnext _ => exact ⟨_, .job (by rw [step?, hnext])⟩
  | begins hnext _ => exact ⟨_, .job (by rw [step?, hnext])⟩
  | resumes hnext _ => exact ⟨_, .job (by rw [step?, hnext])⟩
  | stillborn hnext _ _ calls => exact ⟨_, .job (by rw [step?, hnext])⟩

/-- A startup that holds another slot, or none, belongs to no ward. -/
lemma Sound.free_of_ne (h : Sound p none s) (hmark : p.mark? u ≠ none) (hne : u ≠ v) :
    ¬(s.wardOf key v).futures u := by
  rintro (heq | ⟨n, l, -, hl, x, hx, rfl⟩)
  · exact hne heq
  · exact hmark ((h.links l (Array.mem_of_getElem? hl)).awaits x hx).2.2.2

/-- A task of somebody else has its turn. -/
lemma Secure.given {limit : Float} {act : Kernel.Activation Routine Hook Value Failure}
    (h : Secure p w none s) (hdue : AtTurn p s k t r) (hnext : s.kernel.next? limit = some (k, act))
    (ht : ¬w.futures t) :
    Spares w s { s with kernel := k } ∧ Secure p w (some t) { s with kernel := k } := by
  have hspares : Spares w s { s with kernel := k } :=
    .of_kernel (.of_roused hdue.roused ht fun _ => Kernel.due_of_next? hnext)
  exact ⟨hspares, h.spares hspares hdue.sound { Keeps.refl s with } (Nat.le_refl _)⟩

/-- Somebody who works for somebody else belongs to no ward. -/
lemma Outside.free (hr : Outside w s r) (h : Secure p w running s) {a : Activity Routine}
    (ha : s.kernel.activity? t = some a) (hbody : a.body = some r) : ¬w.futures t := by
  have hmark : p.mark? t = none := (h.sound.fits ha hbody).mark.trans (by rw [hr.starts]; rfl)
  refine h.free hmark fun n l _ hl ⟨c, hc, heq⟩ => ?_
  have hloose := (h.tidy.links l (Array.mem_of_getElem? hl)).awaits c hc
  rw [heq] at hloose
  cases ha.symm.trans hloose.2.1

section Fresh

variable {settings : Settings} {cwd : Text} {scripts : List Daemon.Script}

/-- Whoever works for a startup that has lost its slot works for nobody in the ward. -/
lemma Works.outside {calls : List Id} (h : Works (Scene.fresh settings cwd scripts) key u ⟨s, calls⟩ t r)
    (hheld : Held (Scene.fresh settings cwd scripts) key u ⟨s, calls⟩)
    (hslot : s.slots.get? key = some v) (hne : u ≠ v) (ht : t ≠ u) :
    Outside (s.wardOf key v) s r := by
  cases h with
  | itself r => exact absurd rfl ht
  | readLine _ t => exact .readLine _
  | reap _ t => exact .reap _
  | drain _ t name o => exact .drain name _ o
  | watch hsession t =>
    obtain ⟨p, hsound, hmark⟩ := hheld.sound
    obtain ⟨m, x, hm, hx, -⟩ := hsound.sound.ended hmark (sessionOf?_eq_some_iff.1 hsession)
    cases hm
    exact .watch hx (hheld.outlying hslot hne ⟨_, hsession, x, hx, rfl⟩)
  | listen hreaches t => exact .listen (hheld.outlying hslot hne hreaches)

/-- The kernel tells something that concerns a startup that has lost its slot. -/
lemma Regards.spares {calls : List Id} {h : Hook} {source : Option Id} {limit : Float}
    (hregards : Regards (Scene.fresh settings cwd scripts) key u ⟨s, calls⟩ h source)
    (hheld : Held (Scene.fresh settings cwd scripts) key u ⟨s, calls⟩)
    (hslot : s.slots.get? key = some v) (hne : u ≠ v)
    (hnext : s.kernel.next? limit = some (k, .hook h source)) :
    Spares (s.wardOf key v) s (onHook { s with kernel := k } h source) := by
  obtain ⟨p, hsound, hmark⟩ := hheld.sound
  have hsecure := hsound.sound.secure hslot
  have hkernel : Spares (s.wardOf key v) s { s with kernel := k } :=
    .of_kernel (.of_futures (fun _ => by rw [Kernel.futures_of_next?_hook hnext])
      fun _ => Kernel.due_of_next? hnext)
  have hnext' : Kernel.Next p Routine.Quiet s.kernel k (.hook h source) :=
    Kernel.next_of_next? hsound.sound.follows hsound.sound.waking hnext
  have htold : Sound p none { s with kernel := k } := by
    cases hnext' with
    | hook hfollows hwaking hgrows hmarked =>
      exact (Stepped.of_kernel hsound.sound hfollows hwaking hgrows hmarked).sound
  have hsecure' := hsecure.spares hkernel htold { Keeps.refl s with } (Nat.le_refl _)
  refine hkernel.trans ?_
  cases hregards with
  | ended key' =>
    refine spares_onStartupEnded fun hslot' => hne ?_
    cases hmark.symm.trans (hsound.sound.slots hslot')
    exact Option.some.inj (hslot'.symm.trans hslot)
  | act had source => exact (sparing_act hsecure' ((had.strange hslot hne).spares hkernel)).spares
  | exit had code source =>
    exact (sparing_exit hsecure' ((had.strange hslot hne).spares hkernel) code).spares
  | deliver hreaches message source =>
    have hlink := (hheld.outlying hslot hne hreaches).link
    exact (sparing_receiveMessage hsecure' (fun hline => hlink hline.1) message).spares

/-- A startup that has lost its slot goes on. -/
lemma Held.spares_turn {calls : List Id} {limit : Float}
    {act : Kernel.Activation Routine Hook Value Failure}
    (hheld : Held (Scene.fresh settings cwd scripts) key u ⟨s, calls⟩)
    (hslot : s.slots.get? key = some v) (hne : u ≠ v) (hs : Sound p none s)
    (hmark : p.mark? u = some key) (hnext : s.kernel.next? limit = some (k, act))
    (hdue : AtTurn p s k u r) (hbegun : ∀ project, r ≠ .startup project)
    (input : Outcome Value Failure) :
    Spares (s.wardOf key v) s ((proceed { s with kernel := k } u r input).1.follow u
      (proceed { s with kernel := k } u r input).2) := by
  have hsecure := hs.secure hslot
  have hfree : ¬(s.wardOf key v).futures u := hs.free_of_ne (by simp [hmark]) hne
  obtain ⟨hkernel, -⟩ := hsecure.given hdue hnext hfree
  obtain ⟨a, ha, hbody⟩ := hdue.stood
  have hstarts := (hs.fits ha hbody).mark
  rw [hmark] at hstarts
  cases r with
  | startup project => exact absurd rfl (hbegun project)
  | startingUp project state =>
    have had : Had (Scene.fresh settings cwd scripts) key u state.pid ⟨s, calls⟩ :=
      ⟨_, _, hheld, .starting ha hbody rfl, .refl⟩
    exact hkernel.trans
      (hsecure.startupTurn hdue hkernel hfree (had.strange hslot hne) input)
  | _ => cases hstarts

/-- A task that works for a startup that has lost its slot begins. -/
lemma Works.spares_begin {calls : List Id} {limit : Float}
    (hworks : Works (Scene.fresh settings cwd scripts) key u ⟨s, calls⟩ t r)
    (hheld : Held (Scene.fresh settings cwd scripts) key u ⟨s, calls⟩)
    (hslot : s.slots.get? key = some v) (hne : u ≠ v)
    (hnext : s.kernel.next? limit = some (k, .begin t r)) :
    Spares (s.wardOf key v) s (Supervisor.begin { s with kernel := k } t r) := by
  obtain ⟨p, hsound, hmark⟩ := hheld.sound
  have hs := hsound.sound
  have hnext' : Kernel.Next p Routine.Quiet s.kernel k (.begin t r) :=
    Kernel.next_of_next? hs.follows hs.waking hnext
  cases hnext' with
  | «begin» ha hbody hidle hmust hfollows hwaking hroused =>
    have hdue := hs.atTurn ha hbody hfollows hwaking hroused
    by_cases ht : t = u
    · subst ht
      have hstarts := (hs.fits ha hbody).mark
      rw [hmark] at hstarts
      -- a startup begins only while it holds its slot
      have hbegun : ∀ project, r ≠ .startup project := by
        rintro project rfl
        cases Option.some.inj hstarts
        exact hne (Option.some.inj ((hs.slot_of_begin ha hbody hidle hmust).symm.trans hslot))
      have hspares := hheld.spares_turn hslot hne hs hmark hnext hdue hbegun (.value .unit)
      cases r with
      | listen n => cases hstarts
      | _ => exact hspares
    · have hout := hworks.outside hheld hslot hne ht
      have hsecure := hs.secure hslot
      have hfree := hout.free hsecure ha hbody
      obtain ⟨hkernel, hsecure'⟩ := hsecure.given hdue hnext hfree
      exact hkernel.trans ((hout.kernel hsecure.startup hkernel).begins hdue hsecure' hfree)

/-- A task that works for a startup that has lost its slot goes on. -/
lemma Works.spares_resume {calls : List Id} {limit : Float} {input : Outcome Value Failure}
    (hworks : Works (Scene.fresh settings cwd scripts) key u ⟨s, calls⟩ t r)
    (hheld : Held (Scene.fresh settings cwd scripts) key u ⟨s, calls⟩)
    (hslot : s.slots.get? key = some v) (hne : u ≠ v)
    (hnext : s.kernel.next? limit = some (k, .resume t r input)) :
    Spares (s.wardOf key v) s (resume { s with kernel := k } t r input) := by
  obtain ⟨p, hsound, hmark⟩ := hheld.sound
  have hs := hsound.sound
  have hnext' : Kernel.Next p Routine.Quiet s.kernel k (.resume t r input) :=
    Kernel.next_of_next? hs.follows hs.waking hnext
  cases hnext' with
  | resume ha hbody hwaited ho hfollows hwaking hroused =>
    have hdue := hs.atTurn ha hbody hfollows hwaking hroused
    by_cases ht : t = u
    · subst ht
      refine hheld.spares_turn hslot hne hs hmark hnext hdue (fun project hr => ?_) _
      exact absurd ((hs.fits ha hbody).idle hr) (by simp [hwaited])
    · have hout := hworks.outside hheld hslot hne ht
      have hsecure := hs.secure hslot
      have hfree := hout.free hsecure ha hbody
      obtain ⟨hkernel, hsecure'⟩ := hsecure.given hdue hnext hfree
      exact hkernel.trans ((hout.kernel hsecure.startup hkernel).turn hdue hsecure' hfree _)

/-- A startup that was asked to cancel before it began ends. -/
lemma Held.spares_stillborn {calls : List Id} {limit : Float}
    (hheld : Held (Scene.fresh settings cwd scripts) key u ⟨s, calls⟩) (hne : u ≠ v)
    (hnext : s.kernel.next? limit = some (k, .done)) (hgoing : s.kernel.outcome? u = none)
    (hended : k.outcome? u ≠ none) : Spares (s.wardOf key v) s { s with kernel := k } := by
  obtain ⟨p, hsound, hmark⟩ := hheld.sound
  have hs := hsound.sound
  have hfree : ¬(s.wardOf key v).futures u := hs.free_of_ne (by simp [hmark]) hne
  obtain ⟨a, ha⟩ := hs.active (by simp [hmark]) (Kernel.isDone_eq_false_iff.2 hgoing)
  have hnext' : Kernel.Next p Routine.Quiet s.kernel k .done :=
    Kernel.next_of_next? hs.follows hs.waking hnext
  cases hnext' with
  | done hfollows hwaking hgrows hmarked =>
    have hactive := (hmarked (by simp [hmark])).trans ha
    exact absurd (hwaking.unsettled hactive) hended
  | @stillborn t b hb hidle hmust hfollows hwaking hends =>
    by_cases ht : t = u
    · subst ht
      exact .of_kernel (.of_ends hends hfree fun _ => Kernel.due_of_next? hnext)
    · exact absurd ((hends.outcome u (Ne.symm ht)).trans hgoing) hended

/-- Whatever happens to a startup that has lost its slot, the one that holds the slot by then is left
alone. -/
lemma Late.spares (h : Late (Scene.fresh settings cwd scripts) key u c d)
    (hheld : Held (Scene.fresh settings cwd scripts) key u c)
    (hslot : c.supervisor.slots.get? key = some v) (hne : u ≠ v) :
    Spares (c.supervisor.wardOf key v) c.supervisor d.supervisor := by
  obtain ⟨p, hsound, hmark⟩ := hheld.sound
  have hs := hsound.sound
  have hsecure := hs.secure hslot
  have hstrange : ∀ {pid}, Had (Scene.fresh settings cwd scripts) key u pid c →
      Strange (c.supervisor.wardOf key v) c.supervisor pid := fun had => had.strange hslot hne
  have hline : ∀ {pid n}, Had (Scene.fresh settings cwd scripts) key u pid c →
      (c.supervisor.process? pid).bind (·.connection) = some n → ¬(c.supervisor.wardOf key v).line n :=
    fun had hn hw => (hstrange had).serves hw (Option.bind_eq_some_iff.1 hn)
  cases h with
  | write had o data => exact (sparing_onOutput hsecure _ o (streamActs_feed data) (streamMild_feed data)).spares
  | send had data =>
    dsimp only
    rw [Supervisor.send]
    split
    · next n hn => exact (sparing_receive hsecure (hline had hn) data).spares
    · exact .refl _ _
  | exit had code => exact (sparing_exit hsecure (hstrange had) code).spares
  | markExited had code =>
    exact .updateProcess (fun _ => rfl) (fun hw => absurd hw (hstrange had).process) fun _ _ _ => id
  | hangUp had =>
    dsimp only
    rw [hangUpProcess]
    split
    · next n hn => exact (sparing_hangUp hsecure (hline had hn)).spares
    · exact .refl _ _
  | stopPeer hreaches calls =>
    have hout := hheld.outlying hslot hne hreaches
    exact (sparing_stopPeer hsecure hout.link fun _ => hout.sessions).spares
  | told hnext hregards => exact hregards.spares hheld hslot hne hnext
  | begins hnext hworks => exact hworks.spares_begin hheld hslot hne hnext
  | resumes hnext hworks => exact hworks.spares_resume hheld hslot hne hnext
  | stillborn hnext hgoing hended calls =>
    exact hheld.spares_stillborn hne hnext hgoing hended

/-- Something happens to a startup that was in the slot of a key before `v`, or to what it has had. -/
def Stale (start : Scene) (key : Text) (v : Id) (c d : Scene) : Prop :=
  ∃ u, u ≠ v ∧ Held start key u c ∧ Late start key u c d

end Fresh

/-- A supervisor whose first daemon outlives the signal that is to kill it. -/
def lingering : Scene :=
  Scene.fresh { command := ["nimsuggest"] } "/work" [{ ignoresKill := true }, {}]

/-- Its first session. -/
def predecessor : Supervisor :=
  (lingering.supervisor.enter (.acquire (({ cwd := "/work" } : Client).resolve "/work/p.nim"))).runUntil
    (fun _ => false) 0 13

/-- The first session is closed, while its daemon runs on; the second takes its place. -/
def succession : Supervisor :=
  (((predecessor.enter (.close "/work/p.nim")).runUntil (fun _ => false) 0 2).enter
    (.acquire (({ cwd := "/work" } : Client).resolve "/work/p.nim"))).runUntil (fun _ => false) 0 13

/-- A call over the second session waits for its reply. -/
def successor : Supervisor := succession.enter (.call 1 "def" [])

end SuggestBridge.Supervisor
