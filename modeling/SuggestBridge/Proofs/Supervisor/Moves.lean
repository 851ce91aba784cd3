import SuggestBridge.Proofs.Peer.Futures
import SuggestBridge.Proofs.Supervisor.Guards
import SuggestBridge.Proofs.Task.Deadlines
import SuggestBridge.Proofs.Task.Taking

/-!
# What the routines of a supervisor do

While a task of a supervisor runs, it does a number of small things: it uses the kernel, changes
processes, connections and sessions, and empties slots.  `Move` lists them all, with what is needed
for each.  Two ways to empty a slot are told apart: what is in it has ended (`Move.vacate`), or it is
asked to cancel as it is taken out (`Move.close`).  No move fills a slot and none starts a daemon.
A `Warrant` says which startups may be asked to cancel on the way, and which sessions may be closed
on purpose.  `Moves` are any number of them that leave every session looked after; some single moves do
so only together with others.

A `Plan` says which futures callers wait for, and which tasks start a daemon, with the key of the
project.  In a supervisor that is `Tidy` no other future that is kept anywhere is one of those, so
nobody but a startup and those who close it ever touches it.
-/

namespace SuggestBridge

open SuggestBridge.Task

/-- The futures that a call goes on to wait for. -/
def Connection.CallState.refs : Connection.CallState → List Id
  | .draining _ future => [future]
  | .awaiting _ _ => []

namespace Supervisor

/-! ## What routines refer to -/

/-- The tasks that the end of a session goes on to cancel. -/
def Closing.refs : Closing → List Id
  | .startup _ _ => []
  | .process _ d => [d.task]

/-- The tasks that the end of a supervisor goes on to cancel. -/
def Shutdown.refs : Shutdown → List Id
  | .sweeper | .sessions => []
  | .background _ _ tasks => tasks

/-- The futures that the request of a client goes on to cancel or to wait for. -/
def Asking.refs : Asking → List Id
  | .opening _ _ _ => []
  | .calling _ _ state => state.refs
  | .timed _ _ d => [d.task]
  | .closing _ c => c.refs

/-- The tasks that a startup goes on to cancel. -/
def Startup.refs : Startup → List Id
  | .announcing _ d | .departing _ d => [d.task]

/-- The process of a startup. -/
def Startup.pid : Startup → Nat
  | .announcing pid _ | .departing pid _ => pid

namespace Routine

/-- The futures that a routine goes on to cancel or to wait for. -/
def refs : Routine → List Id
  | .startingUp _ state => state.refs
  | .calling _ state => state.refs
  | .closing c => c.refs
  | .sweeping s | .sweeperSweeping s => s.closing.refs
  | .shuttingDown s | .leaving _ s => s.refs
  | .asking a | .answering a => a.refs
  | _ => []

/-- The startup whose end a caller waits for, with the key of its project. -/
def awaits? : Routine → Option (Text × Id)
  | .acquiring key u | .asking (.opening _ key u) | .answering (.opening _ key u) => some (key, u)
  | _ => none

/-- The project whose daemon is started. -/
def starts? : Routine → Option Project
  | .startup project | .startingUp project _ => some project
  | _ => none

/-- The process of a startup that has begun. -/
def child? : Routine → Option Nat
  | .startingUp _ state => some state.pid
  | _ => none

/-- A routine that works for a startup or for a session: it reads what a daemon writes or sends, or
waits for its end. -/
def helps : Routine → Bool
  | .readLine _ | .reap _ | .drain _ _ _ | .watch _ | .listen _ => true
  | _ => false

/-- A routine that a task can begin with. -/
def begins : Routine → Bool
  | .startup _ | .readLine _ | .reap _ | .drain _ _ _ | .watch _ | .listen _ | .acquire _
  | .call _ _ _ | .close _ | .sweep _ | .sweeper | .stop | .shutdown | .ask _ _ | .errand _ _ => true
  | _ => false

/-- A routine that starts no daemon, about to begin. -/
structure Quiet (r : Routine) : Prop where
  refs : r.refs = []
  awaits : r.awaits? = none
  starts : r.starts? = none
  child : r.child? = none
  begins : r.begins = true

end Routine

/-! ## Tidiness -/

/-- The futures that callers wait for, and the tasks that start a daemon. -/
abbrev Plan := Task.Plan Text

/-- The kernels of supervisors. -/
abbrev Machine := Kernel Routine Hook Value Failure

variable {p p' : Plan} {k k' : Machine}

/-- Who waits for bytes does so through a loose future. -/
def StreamLoose (k : Machine) (p : Plan) (s : Task.Stream Failure) : Prop :=
  ∀ w, s.waiter = some w → k.Loose p w

/-- All futures that a connection keeps are loose, nothing is ever refused over it, and nothing holds up
what is written. -/
structure LinkLoose (k : Machine) (p : Plan) (l : Link) : Prop where
  awaits : l.connection.peer.Awaits (k.Loose p)
  incoming : StreamLoose k p l.connection.incoming
  listener : ∀ t, l.connection.listener = some t → k.Knows p t
  refuses : l.connection.refusalFault.isSome = true
  clear : l.connection.Clear

/-- All futures that a process keeps are loose, and its end is reported only when it has ended. -/
structure ProcessLoose (k : Machine) (p : Plan) (q : Daemon.Process) : Prop where
  output : ∀ o, StreamLoose k p (q.output o)
  exitWaiters : ∀ w ∈ q.exitWaiters, k.Loose p w
  ended : q.reaped = true → q.exitCode ≠ none

section Extends

variable (hwide : k.Widens k') (hp : p.Extends p' k.futures.size)
include hwide hp

lemma StreamLoose.extends {s : Task.Stream Failure} (hs : StreamLoose k p s) :
    StreamLoose k' p' s := fun w hw => hwide.loose hp (hs w hw)

lemma LinkLoose.extends {l : Link} (hl : LinkLoose k p l) : LinkLoose k' p' l where
  awaits c hc := hwide.loose hp (hl.awaits c hc)
  incoming := hl.incoming.extends hwide hp
  listener t ht := (hl.listener t ht).extends hwide hp
  refuses := hl.refuses
  clear := hl.clear

lemma ProcessLoose.extends {q : Daemon.Process} (hq : ProcessLoose k p q) :
    ProcessLoose k' p' q where
  output o := (hq.output o).extends hwide hp
  exitWaiters w hw := hwide.loose hp (hq.exitWaiters w hw)
  ended := hq.ended

end Extends

/-- A session uses a connection. -/
def On (opened : Array Session) (link n : Nat) : Prop := ∃ x, opened[n]? = some x ∧ x.link = link

/-- A future is that of a call that waits for its reply over a connection. -/
def Link.Calls (l : Link) (w : Id) : Prop := ∃ c ∈ l.connection.peer.pending, c.future = w

/-- Somebody waits for a process through a future. -/
def Holds (q : Daemon.Process) (w : Id) : Prop :=
  (∃ o, (q.output o).waiter = some w) ∨ w ∈ q.exitWaiters

/-- No call waits for its reply through a future. -/
def Uncalled (links : Array Link) (w : Id) : Prop := ∀ l ∈ links, ¬l.Calls w

/-- No two sessions share a process or a connection, a connection reports its end to its own session
only, and a process holds a connection that was made to it.  Calls that wait over one connection have
numbers and futures of their own, no two connections have calls that wait through the same future, and
whoever waits for a daemon to write, to send or to exit does so through other futures. -/
structure Apart (processes : List Daemon.Process) (links : Array Link) (opened : Array Session) :
    Prop where
  held : ∀ q ∈ processes, ∀ n, q.connection = some n → ∃ l, links[n]? = some l ∧ l.pid = q.pid
  told : ∀ {n l m}, links[n]? = some l → m ∈ l.connection.peer.callbacks → On opened n m
  distinct : ∀ {m n : Nat} {x y : Session}, opened[m]? = some x → opened[n]? = some y →
    x.link = y.link ∨ x.pid = y.pid → m = n
  ordered : ∀ l ∈ links, l.connection.peer.Ordered
  calls : ∀ {m n : Nat} {l l' : Link} {w}, links[m]? = some l → links[n]? = some l' → l.Calls w →
    l'.Calls w → m = n
  awaited : ∀ q ∈ processes, ∀ w, Holds q w → Uncalled links w
  heard : ∀ l ∈ links, ∀ w, l.connection.incoming.waiter = some w → Uncalled links w

/-- Nothing that is kept anywhere is part of the plan, but the startups in the slots. -/
structure Tidy (p : Plan) (s : Supervisor) : Prop where
  follows : s.kernel.Follows p
  slots : ∀ {key u}, s.slots.get? key = some u → p.mark? u = some key
  distinct : s.slots.keys.Nodup
  links : ∀ l ∈ s.links, LinkLoose s.kernel p l
  processes : ∀ q ∈ s.processes, ProcessLoose s.kernel p q
  sweeper : ∀ t, s.sweeper = some t → s.kernel.Knows p t
  background : ∀ t ∈ s.background, s.kernel.Knows p t
  opened : ∀ {n : Nat} {x : Session}, s.opened[n]? = some x →
    x.link < s.links.size ∧ (s.process? x.pid).isSome = true
  apart : Apart s.processes s.links s.opened
  numbered : ∀ q ∈ s.processes, q.pid < firstPid + s.attempts

/-- A task, which may have ended, that can only be one that works for a startup or for a session. -/
structure Helps (s : Supervisor) (t : Id) : Prop where
  task : s.kernel.isDone t = true ∨ ∃ a, s.kernel.activity? t = some a
  kind : ∀ {a r}, s.kernel.activity? t = some a → a.body = some r → r.helps = true

lemma Helps.of_body {s : Supervisor} {t : Id} {a : Activity Routine} {r : Routine}
    (ha : s.kernel.activity? t = some a) (hr : a.body = some r) (hhelps : r.helps = true) :
    s.Helps t := by
  refine ⟨.inr ⟨a, ha⟩, fun {b r'} hb hr' => ?_⟩
  cases ha.symm.trans hb
  cases hr.symm.trans hr'
  exact hhelps

/-- A process belongs to no session and to no startup that waits. -/
structure Unowned (s : Supervisor) (pid : Nat) : Prop where
  startups : ∀ {t a r}, s.kernel.activity? t = some a → a.body = some r → r.child? ≠ some pid
  sessions : ∀ {n : Nat} {x : Session}, s.opened[n]? = some x → x.pid ≠ pid

/-- A process belongs to no session and to no startup that waits, but for the startup `t`. -/
structure OwnedBy (s : Supervisor) (t : Id) (pid : Nat) : Prop where
  startups : ∀ {u a r}, u ≠ t → s.kernel.activity? u = some a → a.body = some r →
    r.child? ≠ some pid
  sessions : ∀ {n : Nat} {x : Session}, s.opened[n]? = some x → x.pid ≠ pid

lemma Unowned.ownedBy {s : Supervisor} {pid : Nat} (h : s.Unowned pid) (t : Id) : s.OwnedBy t pid :=
  ⟨fun _ => h.startups, h.sessions⟩

/-- Nobody waits through a future, and no call does. -/
structure Unused (s : Supervisor) (w : Id) : Prop where
  calls : Uncalled s.links w
  processes : ∀ q ∈ s.processes, ¬Holds q w
  links : ∀ l ∈ s.links, l.connection.incoming.waiter ≠ some w
  tasks : ∀ {t a}, s.kernel.activity? t = some a → a.waitingFor ≠ some w

/-- How the connection `n` may change. -/
structure LinkStep (s : Supervisor) (n : Nat) (l l' : Link) : Prop where
  pid : l'.pid = l.pid
  listener : l'.connection.listener = l.connection.listener
  told : ∀ m ∈ l'.connection.peer.callbacks, On s.opened n m
  ages : l.connection.peer.Ages s.Unused l'.connection.peer
  heard : ∀ {w}, l'.connection.incoming.waiter = some w → Uncalled s.links w ∧ ¬l'.Calls w

lemma LinkStep.calls {s : Supervisor} {n : Nat} {l l' : Link} (h : LinkStep s n l l') {w : Id} :
    l'.Calls w → l.Calls w ∨ s.Unused w := by
  rintro ⟨c, hc, rfl⟩
  exact (h.ages.later.pending c hc).imp (fun hc => ⟨c, hc, rfl⟩) And.right

/-! ## Moves -/

/-- What may be stopped. -/
structure Warrant where
  /-- The startups that may be asked to cancel. -/
  startup : Id → Prop
  /-- The sessions that may be closed on purpose. -/
  session : Nat → Prop

/-- Anything may be stopped. -/
def Warrant.all : Warrant := ⟨fun _ => True, fun _ => True⟩

/-- One of the small things that a running task does. -/
inductive Move (p : Plan) (ω : Warrant) (s : Supervisor) : Supervisor → Prop where
  | kernel {k : Machine} (acts : Kernel.Acts p Routine.Quiet s.kernel k) : Move p ω s { s with kernel := k }
  /-- Something is noted down. -/
  | record (log : List LogLine) (events : List Text) : Move p ω s { s with log, events }
  | link (n : Nat) (f : Link → Link)
      (loose : ∀ l, s.links[n]? = some l → LinkLoose s.kernel p (f l))
      (step : ∀ l, s.links[n]? = some l → LinkStep s n l (f l)) : Move p ω s (s.updateLink n f)
  | connected {l : Link} (loose : LinkLoose s.kernel p l) (peer : l.connection.peer = {})
      (incoming : l.connection.incoming = {})
      (listens : ∀ t, l.connection.listener = some t →
        ∃ a r, s.kernel.activity? t = some a ∧ a.body = some r ∧ r.helps = true) :
      Move p ω s { s with links := s.links.push l }
  | process (pid : Nat) (f : Daemon.Process → Daemon.Process)
      (loose : ∀ q ∈ s.processes, q.pid = pid → ProcessLoose s.kernel p (f q))
      (same : ∀ q, (f q).pid = q.pid)
      (held : ∀ q n, (f q).connection = some n → q.connection = some n ∨
        ∃ l, s.links[n]? = some l ∧ l.pid = pid)
      (awaited : ∀ q ∈ s.processes, q.pid = pid → ∀ w, Holds (f q) w → Uncalled s.links w) :
      Move p ω s (s.updateProcess pid f)
  | session (n : Nat) (f : Session → Session)
      (same : ∀ x, (f x).key = x.key ∧ (f x).pid = x.pid ∧ (f x).link = x.link ∧
        (f x).closing = x.closing) : Move p ω s (s.updateSession n f)
  /-- A session is going to be closed. -/
  | mark {n : Nat} (may : ω.session n) :
      Move p ω s (s.updateSession n fun x => { x with closing := true })
  | opened {x : Session} (link : x.link < s.links.size)
      (process : (s.process? x.pid).isSome = true) (unowned : s.Unowned x.pid)
      (unused : ∀ n, ¬On s.opened x.link n) :
      Move p ω s { s with opened := s.opened.push x }
  | sweeper {t : Option Id} (knows : ∀ u, t = some u → s.kernel.Knows p u) :
      Move p ω s { s with sweeper := t }
  | background {t : Id} (knows : s.kernel.Knows p t) :
      Move p ω s { s with background := s.background ++ [t] }
  /-- A startup that has ended is taken out of its slot. -/
  | vacate {key : Text} {u : Id} (slot : s.slots.get? key = some u)
      (done : s.kernel.isDone u = true) : Move p ω s { s with slots := s.slots.erase key }
  /-- A startup that has not ended is taken out of its slot and asked to cancel. -/
  | close {key : Text} {u : Id} (slot : s.slots.get? key = some u)
      (going : s.kernel.isDone u = false) (may : ω.startup u) :
      Move p ω s { s with slots := s.slots.erase key, kernel := (s.kernel.cancel u).1 }

/-- Any number of moves. -/
abbrev Steps (p : Plan) (ω : Warrant) : Supervisor → Supervisor → Prop :=
  Relation.ReflTransGen (Move p ω)

/-- Any number of moves that leave every session looked after. -/
structure Moves (p : Plan) (ω : Warrant) (s s' : Supervisor) : Prop where
  steps : Steps p ω s s'
  ended : ∀ {pid}, s.Over pid → s'.Over pid
  guarded : ∀ {owns ending told}, s.Guarded owns ending told → s'.Guarded owns ending told

variable {ω : Warrant} {s s' s'' : Supervisor}

namespace Moves

lemma refl : Moves p ω s s := ⟨.refl, id, id⟩

lemma trans (h : Moves p ω s s') (h' : Moves p ω s' s'') : Moves p ω s s'' :=
  ⟨h.steps.trans h'.steps, h'.ended ∘ h.ended, h'.guarded ∘ h.guarded⟩

/-- A move that gives up no session. -/
lemma single (h : Move p ω s s') (hharmless : Harmless s s') : Moves p ω s s' :=
  ⟨.single h, hharmless.ended, hharmless.guarded⟩

end Moves

/-! ## What is kept apart -/

namespace Apart

variable {qs : List Daemon.Process} {ls : Array Link} {xs : Array Session}

/-- A connection is made that nobody is to be told about yet. -/
lemma connected (h : Apart qs ls xs) {l : Link} (hpeer : l.connection.peer = {})
    (hincoming : l.connection.incoming = {}) : Apart qs (ls.push l) xs := by
  have hcalls : ∀ w, ¬l.Calls w := fun w ⟨c, hc, _⟩ => by simp [hpeer] at hc
  have huncalled : ∀ {w}, Uncalled ls w → Uncalled (ls.push l) w := fun hw l' hl' =>
    (Array.mem_push.1 hl').elim (hw l') fun heq => heq ▸ hcalls _
  have hback : ∀ {i : Nat} {l' : Link}, (ls.push l)[i]? = some l' → ls[i]? = some l' ∨ l' = l := by
    intro i l' hl'
    rw [Array.getElem?_push] at hl'
    split at hl'
    · exact .inr (Option.some.inj hl').symm
    · exact .inl hl'
  refine ⟨fun q hq i hi => ?_, fun hl' hm => ?_, h.distinct, fun l' hl' => ?_,
    fun hl' hl'' hw hw' => ?_, fun q hq w hw => huncalled (h.awaited q hq w hw),
    fun l' hl' w hw => ?_⟩
  · obtain ⟨l', hl', hpid⟩ := h.held q hq i hi
    exact ⟨l', by rw [Array.getElem?_push, if_neg (Nat.ne_of_lt (Array.getElem?_eq_some_iff.1 hl').1),
      hl'], hpid⟩
  · rcases hback hl' with hl' | rfl
    · exact h.told hl' hm
    · simp [hpeer] at hm
  · rcases Array.mem_push.1 hl' with hl' | rfl
    · exact h.ordered l' hl'
    · rw [hpeer]
      exact ⟨⟨.nil, .nil⟩, fun c hc => absurd hc List.not_mem_nil⟩
  · rcases hback hl' with hl' | rfl
    · rcases hback hl'' with hl'' | rfl
      · exact h.calls hl' hl'' hw hw'
      · exact absurd hw' (hcalls _)
    · exact absurd hw (hcalls _)
  · rcases Array.mem_push.1 hl' with hl' | rfl
    · exact huncalled (h.heard l' hl' w hw)
    · simp [hincoming] at hw

/-- A process is started, which holds no connection and for which nobody waits. -/
lemma started (h : Apart qs ls xs) {q : Daemon.Process} (hq : q.connection = none)
    (hidle : ∀ w, ¬Holds q w) : Apart (qs ++ [q]) ls xs :=
  { h with
    held := fun q' hq' n hn => by
      rcases List.mem_append.1 hq' with hq' | hq'
      · exact h.held q' hq' n hn
      · rw [List.mem_singleton.1 hq', hq] at hn
        cases hn
    awaited := fun q' hq' w hw => by
      rcases List.mem_append.1 hq' with hq' | hq'
      · exact h.awaited q' hq' w hw
      · exact absurd (List.mem_singleton.1 hq' ▸ hw) (hidle w) }

lemma updateProcess (h : Apart qs ls xs) {pid : Nat}
    {f : Daemon.Process → Daemon.Process} (hsame : ∀ q, (f q).pid = q.pid)
    (hheld : ∀ q n, (f q).connection = some n → q.connection = some n ∨
      ∃ l, ls[n]? = some l ∧ l.pid = pid)
    (hawaited : ∀ q ∈ qs, q.pid = pid → ∀ w, Holds (f q) w → Uncalled ls w) :
    Apart (qs.map fun q => if q.pid == pid then f q else q) ls xs := by
  refine { h with held := fun q hq i hi => ?_, awaited := fun q hq w hw => ?_ }
  · obtain ⟨q₀, hq₀, rfl⟩ := List.mem_map.1 hq
    by_cases hpid : q₀.pid = pid
    · simp only [hpid, beq_self_eq_true, if_true] at hi ⊢
      rcases hheld q₀ i hi with hold | hnew
      · obtain ⟨l, hl, hlpid⟩ := h.held q₀ hq₀ i hold
        exact ⟨l, hl, hlpid.trans (hsame q₀).symm⟩
      · rwa [hsame, hpid]
    · rw [if_neg (by simpa using hpid)] at hi ⊢
      exact h.held q₀ hq₀ i hi
  · obtain ⟨q₀, hq₀, rfl⟩ := List.mem_map.1 hq
    split at hw
    · next hpid => exact hawaited q₀ hq₀ (by simpa using hpid) w hw
    · exact h.awaited q₀ hq₀ w hw

lemma updateSession (h : Apart qs ls xs) {n : Nat} {f : Session → Session}
    (hf : ∀ x, (f x).pid = x.pid ∧ (f x).link = x.link) :
    Apart qs ls (xs.modify n f) := by
  have hold : ∀ {m : Nat} {y : Session}, (xs.modify n f)[m]? = some y →
      ∃ x : Session, xs[m]? = some x ∧ y.pid = x.pid ∧ y.link = x.link := by
    intro m y hy
    rw [Array.getElem?_modify] at hy
    split at hy
    · obtain ⟨x, hx, rfl⟩ := Option.map_eq_some_iff.1 hy
      exact ⟨x, hx, hf x⟩
    · exact ⟨y, hy, rfl, rfl⟩
  refine { h with told := fun {i l m} hl hm => ?_, distinct := fun {i j x y} hx hy hxy => ?_ }
  · obtain ⟨x, hx, hlink⟩ := h.told hl hm
    refine ⟨if n = m then f x else x, ?_, ?_⟩
    · rw [Array.getElem?_modify, hx]
      split <;> rfl
    · split
      · exact (hf x).2.trans hlink
      · exact hlink
  · obtain ⟨x₀, hx₀, hpid, hlink⟩ := hold hx
    obtain ⟨y₀, hy₀, hpid', hlink'⟩ := hold hy
    rw [hpid, hlink, hpid', hlink'] at hxy
    exact h.distinct hx₀ hy₀ hxy

lemma opened (h : Apart qs ls xs) {x : Session}
    (hpid : ∀ {n : Nat} {y : Session}, xs[n]? = some y → y.pid ≠ x.pid)
    (hlink : ∀ n, ¬On xs x.link n) : Apart qs ls (xs.push x) := by
  have hkept : ∀ {m : Nat} {y : Session}, xs[m]? = some y → (xs.push x)[m]? = some y := fun hy => by
    rw [Array.getElem?_push, if_neg (Nat.ne_of_lt (Array.getElem?_eq_some_iff.1 hy).1), hy]
  refine { h with told := fun {i l m} hl hm => ?_, distinct := fun {i j y z} hy hz hyz => ?_ }
  · obtain ⟨y, hy, hlink⟩ := h.told hl hm
    exact ⟨y, hkept hy, hlink⟩
  · rw [Array.getElem?_push] at hy hz
    split at hy
    · next hi =>
      cases hy
      split at hz
      · next hj => rw [hi, hj]
      · rcases hyz with heq | heq
        · exact absurd ⟨z, hz, heq.symm⟩ (hlink j)
        · exact absurd heq.symm (hpid hz)
    · split at hz
      · cases hz
        rcases hyz with heq | heq
        · exact absurd ⟨y, hy, heq⟩ (hlink i)
        · exact absurd heq (hpid hy)
      · exact h.distinct hy hz hyz

end Apart

/-- A connection changes. -/
lemma Tidy.apart_updateLink (h : Tidy p s) {n : Nat} {f : Link → Link}
    (hstep : ∀ l, s.links[n]? = some l → LinkStep s n l (f l)) :
    Apart s.processes (s.links.modify n f) s.opened := by
  have hback : ∀ {i : Nat} {l' : Link}, (s.links.modify n f)[i]? = some l' →
      ∃ l, s.links[i]? = some l ∧ (l' = l ∧ n ≠ i ∨ n = i ∧ l' = f l) := by
    intro i l' hl'
    rw [Array.getElem?_modify] at hl'
    split at hl'
    · next hni =>
      obtain ⟨l, hl, rfl⟩ := Option.map_eq_some_iff.1 hl'
      exact ⟨l, hl, .inr ⟨hni, rfl⟩⟩
    · next hni => exact ⟨l', hl', .inl ⟨rfl, hni⟩⟩
  -- a call that waits now has waited before, or its future was of no use to anybody
  have hcalls : ∀ {i : Nat} {l' : Link} {w}, (s.links.modify n f)[i]? = some l' → l'.Calls w →
      (∃ l, s.links[i]? = some l ∧ Link.Calls l w) ∨ s.Unused w := by
    intro i l' w hl' hw
    obtain ⟨l, hl, ⟨rfl, -⟩ | ⟨rfl, rfl⟩⟩ := hback hl'
    · exact .inl ⟨l', hl, hw⟩
    · exact ((hstep l hl).calls hw).imp_left fun hold => ⟨l, hl, hold⟩
  have huncalled : ∀ {w}, Uncalled s.links w → ¬s.Unused w → Uncalled (s.links.modify n f) w := by
    intro w hw hused l' hl' hcall
    obtain ⟨i, hi⟩ := Array.getElem?_of_mem hl'
    rcases hcalls hi hcall with ⟨l, hl, hold⟩ | hunused
    · exact hw l (Array.mem_of_getElem? hl) hold
    · exact hused hunused
  refine { h.apart with
    held := fun q hq i hi => ?_, told := fun hl' hm => ?_, ordered := fun l' hl' => ?_
    calls := fun hl' hl'' hw hw' => ?_
    awaited := fun q hq w hw => ?_, heard := fun l' hl' w hw => ?_ }
  · obtain ⟨l, hl, hpid⟩ := h.apart.held q hq i hi
    refine ⟨if n = i then f l else l, ?_, ?_⟩
    · rw [Array.getElem?_modify, hl]
      split <;> rfl
    · split
      · next hni =>
        subst hni
        exact (hstep l hl).pid.trans hpid
      · exact hpid
  · obtain ⟨l, hl, ⟨rfl, -⟩ | ⟨rfl, rfl⟩⟩ := hback hl'
    · exact h.apart.told hl hm
    · exact (hstep l hl).told _ hm
  · obtain ⟨i, hi⟩ := Array.getElem?_of_mem hl'
    obtain ⟨l, hl, ⟨rfl, -⟩ | ⟨rfl, rfl⟩⟩ := hback hi
    · exact h.apart.ordered _ (Array.mem_of_getElem? hl)
    · exact (h.apart.ordered l (Array.mem_of_getElem? hl)).ages (hstep l hl).ages
  · rcases hcalls hl' hw with ⟨l, hl, hold⟩ | hunused
    · rcases hcalls hl'' hw' with ⟨k, hk, hold'⟩ | hunused
      · exact h.apart.calls hl hk hold hold'
      · exact absurd hold (hunused.calls l (Array.mem_of_getElem? hl))
    · -- only the connection that changes has such a call
      have hhere : ∀ {i : Nat} {l' : Link}, (s.links.modify n f)[i]? = some l' → l'.Calls _ → n = i :=
        fun {i l'} hl' hw => by
          obtain ⟨l, hl, ⟨rfl, -⟩ | ⟨hni, -⟩⟩ := hback hl'
          · exact absurd hw (hunused.calls _ (Array.mem_of_getElem? hl))
          · exact hni
      exact (hhere hl' hw).symm.trans (hhere hl'' hw')
  · exact huncalled (h.apart.awaited q hq w hw) fun hunused => hunused.processes q hq hw
  · obtain ⟨i, hi⟩ := Array.getElem?_of_mem hl'
    obtain ⟨l, hl, ⟨rfl, -⟩ | ⟨rfl, rfl⟩⟩ := hback hi
    · have hmem := Array.mem_of_getElem? hl
      exact huncalled (h.apart.heard _ hmem w hw) fun hunused => hunused.links _ hmem hw
    · obtain ⟨hnone, hself⟩ := (hstep l hl).heard hw
      rintro l'' hl'' hcall
      obtain ⟨j, hj⟩ := Array.getElem?_of_mem hl''
      obtain ⟨k, hk, ⟨rfl, -⟩ | ⟨rfl, rfl⟩⟩ := hback hj
      · exact hnone _ (Array.mem_of_getElem? hk) hcall
      · cases hl.symm.trans hk
        exact hself hcall

/-- A marked task takes over no outcome. -/
lemma Tidy.relay_of_mark (h : Tidy p s) {u : Id} (hu : p.mark? u ≠ none) : p.relay? u = none := by
  cases hrelay : p.relay? u with
  | none => rfl
  | some cv => exact absurd (h.follows.relays hrelay).2.2.2.1 hu

lemma Tidy.spares (h : Tidy p s) {key : Text} {u : Id} (hslot : s.slots.get? key = some u) :
    Kernel.Spares p u s.kernel (s.kernel.cancel u).1 :=
  .cancel h.follows fun hcu => by
    simp [h.relay_of_mark (u := u) (by simp [h.slots hslot])] at hcu

/-- The kernel moves on and more is planned, while all else stays. -/
lemma Tidy.extends (h : Tidy p s) {k : Machine} (hfollows : k.Follows p')
    (hwide : s.kernel.Widens k) (hp : p.Extends p' s.kernel.futures.size) :
    Tidy p' { s with kernel := k } where
  follows := hfollows
  slots {key u} hu := by
    have hlt := h.follows.marks (u := u) (by simp [h.slots hu])
    exact (hp.mark u hlt).trans (h.slots hu)
  distinct := h.distinct
  links l hl := (h.links l hl).extends hwide hp
  processes q hq := (h.processes q hq).extends hwide hp
  sweeper t ht := (h.sweeper t ht).extends hwide hp
  background t ht := (h.background t ht).extends hwide hp
  opened := h.opened
  apart := h.apart
  numbered := h.numbered

/-- The kernel moves on while all else stays. -/
lemma Tidy.of_kernel (h : Tidy p s) {k : Machine} (hfollows : k.Follows p)
    (hwide : s.kernel.Widens k) : Tidy p { s with kernel := k } :=
  h.extends hfollows hwide (.refl p _)

/-- A session is changed that keeps its process and its connection. -/
lemma Tidy.updateSession (h : Tidy p s) {n : Nat} {f : Session → Session}
    (hf : ∀ x, (f x).pid = x.pid ∧ (f x).link = x.link) : Tidy p (s.updateSession n f) := by
  refine { h with opened := fun {m x} hx => ?_, apart := h.apart.updateSession hf }
  rw [Supervisor.updateSession, Array.getElem?_modify] at hx
  split at hx
  · obtain ⟨x₀, hx₀, rfl⟩ := Option.map_eq_some_iff.1 hx
    obtain ⟨hpid, hlink⟩ := hf x₀
    rw [hpid, hlink]
    exact h.opened hx₀
  · exact h.opened hx

lemma Tidy.move (h : Tidy p s) (hmove : Move p ω s s') : Tidy p s' := by
  cases hmove with
  | kernel hacts =>
    exact h.of_kernel (Kernel.Acts.follows hacts h.follows) (Kernel.Acts.grows hacts).toWidens
  | record _ _ => exact { h with }
  | link n f hloose hstep =>
    refine { h with
      links := fun l hl => ?_, opened := fun hx => ?_, apart := h.apart_updateLink hstep }
    · obtain ⟨i, hi⟩ := Array.getElem?_of_mem hl
      rw [updateLink, Array.getElem?_modify] at hi
      split at hi
      · next hni =>
        subst hni
        obtain ⟨l₀, hl₀, rfl⟩ := Option.map_eq_some_iff.1 hi
        exact hloose l₀ hl₀
      · exact h.links l (Array.mem_of_getElem? hi)
    · rw [updateLink, Array.size_modify]
      exact h.opened hx
  | connected hloose hpeer hincoming _ =>
    refine { h with
      links := fun l hl => ?_, opened := fun hx => ?_, apart := h.apart.connected hpeer hincoming }
    · rcases Array.mem_push.1 hl with hl | rfl
      · exact h.links l hl
      · exact hloose
    · exact ⟨by rw [Array.size_push]; exact Nat.lt_succ_of_lt (h.opened hx).1, (h.opened hx).2⟩
  | process pid f hloose hsame hheld hawaited =>
    refine { h with
      processes := fun q hq => ?_, opened := fun hx => ?_
      apart := h.apart.updateProcess hsame hheld hawaited
      numbered := fun q hq => ?_ }
    · obtain ⟨q₀, hq₀, rfl⟩ := List.mem_map.1 hq
      split
      · next heq => exact hloose q₀ hq₀ (by simpa using heq)
      · exact h.processes q₀ hq₀
    · refine ⟨(h.opened hx).1, ?_⟩
      rw [process?_updateProcess hsame, Option.isSome_map]
      exact (h.opened hx).2
    · obtain ⟨q₀, hq₀, rfl⟩ := List.mem_map.1 hq
      split
      · exact (hsame q₀).symm ▸ h.numbered q₀ hq₀
      · exact h.numbered q₀ hq₀
  | session n f hsame =>
    exact h.updateSession fun x => ⟨(hsame x).2.1, (hsame x).2.2.1⟩
  | mark _ => exact h.updateSession fun _ => ⟨rfl, rfl⟩
  | opened hlink hprocess hunowned hunused =>
    refine { h with
      opened := fun {m x} hx => ?_, apart := h.apart.opened hunowned.sessions hunused }
    rw [Array.getElem?_push] at hx
    split at hx
    · cases hx
      exact ⟨hlink, hprocess⟩
    · exact h.opened hx
  | sweeper hknows => exact { h with sweeper := hknows }
  | background hknows =>
    refine { h with background := fun t ht => ?_ }
    rcases List.mem_append.1 ht with ht | ht
    · exact h.background t ht
    · rw [List.mem_singleton.1 ht]
      exact hknows
  | vacate _ _ =>
    exact { h with
      slots := fun hu => h.slots (Slots.get?_erase_eq_some hu).2
      distinct := Slots.nodup_erase h.distinct _ }
  | close hslot _ _ =>
    have htidy := h.of_kernel (h.spares hslot).follows
      (.cancel s.kernel _)
    exact { htidy with
      slots := fun hu => h.slots (Slots.get?_erase_eq_some hu).2
      distinct := Slots.nodup_erase h.distinct _ }

lemma Tidy.steps (h : Tidy p s) (hsteps : Steps p ω s s') : Tidy p s' := by
  induction hsteps with
  | refl => exact h
  | tail _ hmove ih => exact ih.move hmove

lemma Tidy.moves (h : Tidy p s) (hmoves : Moves p ω s s') : Tidy p s' := h.steps hmoves.steps

/-! ## What moves keep -/

/-- What was there is still there. -/
structure Keeps (s s' : Supervisor) : Prop where
  cwd : s'.cwd = s.cwd
  process : ∀ {pid}, (s.process? pid).isSome = true → (s'.process? pid).isSome = true
  opened : ∀ {n : Nat} {x : Session}, s.opened[n]? = some x →
    ∃ y : Session, s'.opened[n]? = some y ∧ y.key = x.key ∧ y.pid = x.pid ∧ y.link = x.link
  links : s.links.size ≤ s'.links.size

namespace Keeps

lemma refl (s : Supervisor) : Keeps s s :=
  ⟨rfl, id, fun hx => ⟨_, hx, rfl, rfl, rfl⟩, Nat.le_refl _⟩

lemma trans {s'' : Supervisor} (h : Keeps s s') (h' : Keeps s' s'') : Keeps s s'' where
  cwd := h'.cwd.trans h.cwd
  process hp := h'.process (h.process hp)
  opened hx := by
    obtain ⟨y, hy, hkey, hpid, hlink⟩ := h.opened hx
    obtain ⟨z, hz, hkey', hpid', hlink'⟩ := h'.opened hy
    exact ⟨z, hz, hkey'.trans hkey, hpid'.trans hpid, hlink'.trans hlink⟩
  links := Nat.le_trans h.links h'.links

/-- A session is changed that keeps its key, its process and its connection. -/
lemma updateSession (s : Supervisor) (n : Nat) {f : Session → Session}
    (hf : ∀ x, (f x).key = x.key ∧ (f x).pid = x.pid ∧ (f x).link = x.link) : Keeps s (s.updateSession n f) := by
  refine { Keeps.refl s with opened := fun {m x} hx => ?_ }
  rw [Supervisor.updateSession, Array.getElem?_modify, hx]
  split
  · exact ⟨f x, rfl, hf x⟩
  · exact ⟨x, rfl, rfl, rfl, rfl⟩

end Keeps

lemma Move.keeps (h : Move p ω s s') : Keeps s s' := by
  cases h with
  | link n f _ => exact { Keeps.refl s with links := Nat.le_of_eq Array.size_modify.symm }
  | connected =>
    exact { Keeps.refl s with links := by rw [Array.size_push]; exact Nat.le_succ _ }
  | process pid f _ hsame =>
    exact { Keeps.refl s with
      process := fun hp => by rwa [process?_updateProcess hsame, Option.isSome_map] }
  | session n f hsame =>
    exact .updateSession s n fun x => ⟨(hsame x).1, (hsame x).2.1, (hsame x).2.2.1⟩
  | @mark n _ => exact .updateSession s n fun _ => ⟨rfl, rfl, rfl⟩
  | opened _ _ =>
    refine { Keeps.refl s with opened := fun {n x} hx => ⟨x, ?_, rfl, rfl, rfl⟩ }
    rw [Array.getElem?_push, if_neg (Nat.ne_of_lt (Array.getElem?_eq_some_iff.1 hx).1), hx]
  | _ => exact { Keeps.refl s with }

/-- What is new belongs to nobody: a session has a process that was nobody's, a connection has a
listener that is about to begin, and a call waits through a future that nobody used. -/
structure Arises (s s' : Supervisor) : Prop where
  sessions : ∀ {n : Nat} {y : Session}, s'.opened[n]? = some y →
    (∃ x, s.opened[n]? = some x ∧ x.pid = y.pid) ∨ s.Unowned y.pid
  listeners : ∀ l ∈ s'.links, ∀ t, l.connection.listener = some t →
    (∃ l₀ ∈ s.links, l₀.connection.listener = some t) ∨
      ∃ a r, s.kernel.activity? t = some a ∧ a.body = some r ∧ r.helps = true
  calls : ∀ l ∈ s'.links, ∀ w, l.Calls w → (∃ l₀ ∈ s.links, l₀.Calls w) ∨ s.Unused w

namespace Arises

/-- Nothing is new. -/
lemma of_eq (hopened : s'.opened = s.opened) (hlinks : s'.links = s.links) : Arises s s' where
  sessions hy := .inl ⟨_, hopened ▸ hy, rfl⟩
  listeners l hl _ ht := .inl ⟨l, hlinks ▸ hl, ht⟩
  calls l hl _ hw := .inl ⟨l, hlinks ▸ hl, hw⟩

lemma updateSession (s : Supervisor) (m : Nat) {f : Session → Session}
    (hf : ∀ x, (f x).pid = x.pid) : Arises s (s.updateSession m f) := by
  refine { Arises.of_eq (s := s) rfl rfl with sessions := fun {n y} hy => ?_ }
  rw [Supervisor.updateSession, Array.getElem?_modify] at hy
  split at hy
  · obtain ⟨x, hx, rfl⟩ := Option.map_eq_some_iff.1 hy
    exact .inl ⟨x, hx, (hf x).symm⟩
  · exact .inl ⟨y, hy, rfl⟩

end Arises

lemma Move.arises (h : Move p ω s s') : Arises s s' := by
  cases h with
  | link n f _ hstep =>
    have hback : ∀ l ∈ (s.updateLink n f).links, l ∈ s.links ∨
        ∃ l₀, s.links[n]? = some l₀ ∧ l = f l₀ := fun l hl => by
      obtain ⟨i, hi⟩ := Array.getElem?_of_mem hl
      rw [updateLink, Array.getElem?_modify] at hi
      split at hi
      · next hni =>
        obtain ⟨l₀, hl₀, rfl⟩ := Option.map_eq_some_iff.1 hi
        exact .inr ⟨l₀, hni ▸ hl₀, rfl⟩
      · exact .inl (Array.mem_of_getElem? hi)
    refine { Arises.of_eq (s := s) rfl rfl with
      listeners := fun l hl t ht => ?_, calls := fun l hl w hw => ?_ }
    · rcases hback l hl with hl | ⟨l₀, hl₀, rfl⟩
      · exact .inl ⟨l, hl, ht⟩
      · exact .inl ⟨l₀, Array.mem_of_getElem? hl₀, (hstep l₀ hl₀).listener ▸ ht⟩
    · rcases hback l hl with hl | ⟨l₀, hl₀, rfl⟩
      · exact .inl ⟨l, hl, hw⟩
      · exact ((hstep l₀ hl₀).calls hw).imp_left fun hold => ⟨l₀, Array.mem_of_getElem? hl₀, hold⟩
  | connected _ hpeer _ hlistens =>
    refine { Arises.of_eq (s := s) rfl rfl with
      listeners := fun l hl t ht => ?_, calls := fun l hl w hw => ?_ }
    · rcases Array.mem_push.1 hl with hl | rfl
      · exact .inl ⟨l, hl, ht⟩
      · exact .inr (hlistens t ht)
    · rcases Array.mem_push.1 hl with hl | rfl
      · exact .inl ⟨l, hl, hw⟩
      · obtain ⟨c, hc, -⟩ := hw
        simp [hpeer] at hc
  | session m f hsame => exact .updateSession s m fun x => (hsame x).2.1
  | @mark m _ => exact .updateSession s m fun _ => rfl
  | opened _ _ hunowned _ =>
    refine { Arises.of_eq (s := s) rfl rfl with sessions := fun {n y} hy => ?_ }
    rw [Array.getElem?_push] at hy
    split at hy
    · cases hy
      exact .inr hunowned
    · exact .inl ⟨y, hy, rfl⟩
  | _ => exact .of_eq rfl rfl

lemma Steps.keeps (h : Steps p ω s s') : Keeps s s' := by
  induction h with
  | refl => exact .refl s
  | tail _ hmove ih => exact ih.trans hmove.keeps

lemma Moves.keeps (h : Moves p ω s s') : Keeps s s' := Steps.keeps h.steps

end Supervisor

end SuggestBridge
