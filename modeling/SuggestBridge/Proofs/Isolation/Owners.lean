import SuggestBridge.Proofs.Supervisor.Run

/-!
# Whose everything is

One supervisor serves many projects.  Its futures, timers, processes, connections and sessions have
numbers that are drawn from counters which all projects share.  `Owners` is a book that says for
which project a number was drawn.  A supervisor is in order (`Owned`) if nothing that belongs to one
project refers to anything that belongs to another one.

The book is not part of a supervisor: no operation reads it.
-/

namespace SuggestBridge.Supervisor

open SuggestBridge.Task

/-! ## What is referred to -/

/-- What belongs to a project. -/
inductive Part where
  | future (id : Id)
  | timer (id : Nat)
  | process (pid : Nat)
  | link (n : Nat)
  | session (n : Nat)
  /-- The slot of a project. -/
  | slot (key : Text)
  /-- What all projects have in common. -/
  | common
  deriving DecidableEq

/-- What a hook is about. -/
def Hook.part : Hook → Part
  | .startupEnded key => .slot key
  | .act pid | .exit pid _ => .process pid
  | .deliver n _ => .link n

/-- Who is told. -/
def watcherPart : Watcher Hook → Part
  | .wake t | .relay t | .release t | .countdown t | .gather t => .future t
  | .hook h => h.part

/-- What a job is about. -/
def jobPart : Job Hook → Part
  | .start t | .proceed t | .complete t | .notify _ t => .future t
  | .hook h => h.part

/-- All that a job refers to. -/
def jobParts : Job Hook → List Part
  | .notify w source => [.future source, watcherPart w]
  | job => [jobPart job]

lemma jobPart_mem (job : Job Hook) : jobPart job ∈ jobParts job := by
  cases job <;> exact List.mem_cons_self

def Value.parts : Value → List Part
  | .session n => [.session n]
  | _ => []

def outcomeParts : Outcome Value Failure → List Part
  | .value v => v.parts
  | _ => []

def deadlineParts : Deadline → List Part
  | .waiting task waiter timer => [.future task, .future waiter, .timer timer]
  | .cancelling task waiter timer _ =>
    .future task :: .future waiter :: timer.toList.map .timer

/-- All that a step of a wait refers to. -/
def deadlineStepParts : Deadline.Step Value Failure → List Part
  | .waits d future => .future future :: deadlineParts d
  | .ends (.settled o) => outcomeParts o
  | .ends .expired => []

def Startup.parts : Startup → List Part
  | .announcing pid d | .departing pid d => .process pid :: deadlineParts d

def Closing.parts : Closing → List Part
  | .startup task waiter => [.future task, .future waiter]
  | .process n d => .session n :: deadlineParts d

/-- What an effect of a peer is about. -/
def effectParts : Peer.Effect Nat → List Part
  | .settle future _ => [.future future]
  | .callback n => [.session n]
  | .send _ | .log _ | .closeConnection => []

def callStateParts (state : Connection.CallState) : List Part := state.refs.map .future

/-- All that a routine refers to.  What looks at all sessions has no project. -/
def Routine.parts (cwd : Text) : Routine → List Part
  | .startup project | .acquire project => [.slot (project.key cwd)]
  | .startingUp project state => .slot (project.key cwd) :: state.parts
  | .readLine pid | .reap pid | .drain _ pid _ => [.process pid]
  | .watch n | .call n _ _ => [.session n]
  | .listen n => [.link n]
  | .acquiring _ u => [.future u]
  | .calling n state => .session n :: callStateParts state
  | .close key => [.slot key]
  | .closing c => c.parts
  | .sweep _ | .sweeping _ | .sweeper | .sweeperPausing _ | .sweeperSweeping _ | .stop | .stopping
  | .shutdown | .shuttingDown _ | .ask _ _ | .answering _ | .errand _ _ | .asking _
  | .leaving _ _ => [.common]

/-- All that is referred to by what a supervisor is asked to do. -/
def activationParts (cwd : Text) : Kernel.Activation Routine Hook Value Failure → List Part
  | .done => []
  | .begin task r => .future task :: r.parts cwd
  | .resume task r input => .future task :: (r.parts cwd ++ outcomeParts input)
  | .hook h source => h.part :: source.toList.map .future

/-- All that a routine refers to where it stands, and the future that it waits for. -/
def courseParts {σ : Type} (parts : σ → List Part) : Course σ → List Part
  | .waits state future => .future future :: parts state
  | .ends o => outcomeParts o

/-- All that a result refers to. -/
def resultParts {ε α : Type} (parts : α → List Part) : Except ε α → List Part
  | .ok a => parts a
  | .error _ => []

/-! ## Books -/

/-- For which project a number was drawn.  Projects are told apart in a working directory. -/
structure Owners where
  cwd : Text
  numbered : Part → Option Text

namespace Owners

variable {o o' o'' : Owners} {k j : Text} {x y : Part}

/-- Whose something is.  A slot is that of its project. -/
def of (o : Owners) : Part → Option Text
  | .slot key => some key
  | .common => none
  | x => o.numbered x

/-- All of these belong to a project. -/
def Has (o : Owners) (k : Text) (xs : List Part) : Prop := ∀ x ∈ xs, o.of x = some k

instance {xs : List Part} : Decidable (o.Has k xs) :=
  inferInstanceAs (Decidable (∀ x ∈ xs, o.of x = some k))

@[simp] lemma has_nil : o.Has k [] := nofun

@[simp] lemma has_cons {xs : List Part} : o.Has k (x :: xs) ↔ o.of x = some k ∧ o.Has k xs :=
  List.forall_mem_cons

@[simp] lemma has_append {xs ys : List Part} : o.Has k (xs ++ ys) ↔ o.Has k xs ∧ o.Has k ys :=
  List.forall_mem_append

/-- One more number was drawn. -/
def add (o : Owners) (x : Part) (k : Text) : Owners :=
  { o with numbered := fun y => (o.numbered y).or (if y = x then some k else none) }

/-- The book `o'` says what `o` says, and that everything else belongs to one project. -/
structure Grows (k : Text) (o o' : Owners) : Prop where
  cwd : o'.cwd = o.cwd
  old : ∀ {x j}, o.of x = some j → o'.of x = some j
  new : ∀ {x j}, o'.of x = some j → o.of x = some j ∨ o.of x = none ∧ j = k

namespace Grows

lemma refl : Grows k o o := ⟨rfl, id, .inl⟩

lemma trans (h : Grows k o o') (h' : Grows k o' o'') : Grows k o o'' where
  cwd := h'.cwd.trans h.cwd
  old hx := h'.old (h.old hx)
  new {x j} hx := by
    rcases h'.new hx with hx | ⟨hnone, rfl⟩
    · exact h.new hx
    · refine .inr ⟨?_, rfl⟩
      by_contra hsome
      obtain ⟨i, hi⟩ := Option.ne_none_iff_exists'.1 hsome
      cases hnone.symm.trans (h.old hi)

lemma add (o : Owners) (x : Part) (k : Text) : Grows k o (o.add x k) where
  cwd := rfl
  old {y j} hy := by
    cases y with
    | slot | common => exact hy
    | _ => exact Option.or_eq_some_iff.2 (.inl hy)
  new {y j} hy := by
    cases y with
    | slot | common => exact .inl hy
    | _ =>
      refine (Option.or_eq_some_iff.1 hy).imp_right fun ⟨hnone, hj⟩ => ⟨hnone, ?_⟩
      split at hj
      · exact (Option.some.inj hj).symm
      · cases hj

lemma has {xs : List Part} (h : Grows k o o') (hxs : o.Has j xs) : o'.Has j xs :=
  fun x hx => h.old (hxs x hx)

lemma has_parts {r : Routine} (h : Grows k o o') (hr : o.Has j (r.parts o.cwd)) :
    o'.Has j (r.parts o'.cwd) := h.cwd ▸ h.has hr

/-- What belongs to another project is the same. -/
lemma of_iff (h : Grows k o o') (hj : j ≠ k) : o'.of x = some j ↔ o.of x = some j :=
  ⟨fun hx => (h.new hx).elim id fun hx => absurd hx.2 hj, h.old⟩

/-- What belongs to somebody belongs to nobody else later. -/
lemma of_iff_of_has (h : Grows k o o') {i : Text} (hx : o.of x = some i) :
    o'.of x = some j ↔ o.of x = some j := by
  rw [hx, h.old hx]

end Grows

lemma of_add {y : Part} (hy : (o.add x k).of y = some j) : o.of y = some j ∨ y = x ∧ j = k := by
  cases y with
  | slot | common => exact .inl hy
  | _ =>
    refine (Option.or_eq_some_iff.1 hy).imp_right fun ⟨_, hj⟩ => ?_
    split at hj
    · next heq => exact ⟨heq, (Option.some.inj hj).symm⟩
    · cases hj

lemma isSome_numbered_add :
    ((o.add x k).numbered y).isSome ↔ (o.numbered y).isSome ∨ y = x := by
  rw [add, Option.isSome_or, Bool.or_eq_true]
  by_cases hy : y = x <;> simp [hy]

lemma of_add_future {i : Id} (h : o.of (.future i) = none) :
    (o.add (.future i) k).of (.future i) = some k := by
  change (o.numbered (.future i)).or _ = _
  rw [show o.numbered (.future i) = none from h, if_pos rfl]
  rfl

lemma of_add_timer {i : Nat} (h : o.of (.timer i) = none) :
    (o.add (.timer i) k).of (.timer i) = some k := by
  change (o.numbered (.timer i)).or _ = _
  rw [show o.numbered (.timer i) = none from h, if_pos rfl]
  rfl

/-! ## What belongs to a project with all that it refers to -/

/-- All that a task refers to where it stands. -/
structure HasActivity (o : Owners) (k : Text) (a : Activity Routine) : Prop where
  body : ∀ r, a.body = some r → o.Has k (r.parts o.cwd)
  waitingFor : ∀ t, a.waitingFor = some t → o.of (.future t) = some k

structure HasFuture (o : Owners) (k : Text) (F : Future Routine Hook Value Failure) : Prop where
  outcome : ∀ out, F.outcome = some out → o.Has k (outcomeParts out)
  watchers : ∀ w ∈ F.watchers, o.of (watcherPart w) = some k
  activity : ∀ a, F.activity = some a → o.HasActivity k a
  members : ∀ m ∈ F.members, o.of (.future m) = some k

lemma hasFuture_empty : o.HasFuture k {} where
  outcome _ hout := by cases hout
  watchers _ hw := absurd hw List.not_mem_nil
  activity _ ha := by cases ha
  members _ hm := absurd hm List.not_mem_nil

lemma hasFuture_of_body {r : Routine} (hr : o.Has k (r.parts o.cwd)) :
    o.HasFuture k { activity := some { body := some r } } where
  outcome _ hout := by cases hout
  watchers _ hw := absurd hw List.not_mem_nil
  activity a ha := by
    cases ha
    refine ⟨fun r' hr' => ?_, fun t ht => by cases ht⟩
    cases hr'
    exact hr
  members _ hm := absurd hm List.not_mem_nil

structure HasStream (o : Owners) (k : Text) (s : Stream Failure) : Prop where
  waiter : ∀ w, s.waiter = some w → o.of (.future w) = some k

structure HasProcess (o : Owners) (k : Text) (p : Daemon.Process) : Prop where
  self : o.of (.process p.pid) = some k
  output : ∀ out, o.HasStream k (p.output out)
  exitWaiters : ∀ w ∈ p.exitWaiters, o.of (.future w) = some k
  connection : ∀ n, p.connection = some n → o.of (.link n) = some k

structure HasConnection (o : Owners) (k : Text) (c : Connection Nat) : Prop where
  awaits : c.peer.Awaits fun f => o.of (.future f) = some k
  callbacks : ∀ n ∈ c.peer.callbacks, o.of (.session n) = some k
  incoming : o.HasStream k c.incoming
  listener : ∀ t, c.listener = some t → o.of (.future t) = some k

structure HasLink (o : Owners) (k : Text) (l : Link) : Prop where
  process : o.of (.process l.pid) = some k
  connection : o.HasConnection k l.connection

structure HasSession (o : Owners) (k : Text) (x : Session) : Prop where
  key : x.key = k
  process : o.of (.process x.pid) = some k
  link : o.of (.link x.link) = some k

namespace Grows

variable (h : Grows k o o')
include h

lemma hasActivity {a : Activity Routine} (ha : o.HasActivity j a) : o'.HasActivity j a where
  body r hr := h.cwd ▸ h.has (ha.body r hr)
  waitingFor t ht := h.old (ha.waitingFor t ht)

lemma hasFuture {F : Future Routine Hook Value Failure} (hF : o.HasFuture j F) :
    o'.HasFuture j F where
  outcome out hout := h.has (hF.outcome out hout)
  watchers w hw := h.old (hF.watchers w hw)
  activity a ha := h.hasActivity (hF.activity a ha)
  members m hm := h.old (hF.members m hm)

lemma hasStream {s : Stream Failure} (hs : o.HasStream j s) : o'.HasStream j s :=
  ⟨fun w hw => h.old (hs.waiter w hw)⟩

lemma hasProcess {p : Daemon.Process} (hp : o.HasProcess j p) : o'.HasProcess j p where
  self := h.old hp.self
  output out := h.hasStream (hp.output out)
  exitWaiters w hw := h.old (hp.exitWaiters w hw)
  connection n hn := h.old (hp.connection n hn)

lemma hasConnection {c : Connection Nat} (hc : o.HasConnection j c) : o'.HasConnection j c where
  awaits call hcall := h.old (hc.awaits call hcall)
  callbacks n hn := h.old (hc.callbacks n hn)
  incoming := h.hasStream hc.incoming
  listener t ht := h.old (hc.listener t ht)

lemma hasLink {l : Link} (hl : o.HasLink j l) : o'.HasLink j l :=
  ⟨h.old hl.process, h.hasConnection hl.connection⟩

lemma hasSession {x : Session} (hx : o.HasSession j x) : o'.HasSession j x where
  key := hx.key
  process := h.old hx.process
  link := h.old hx.link

end Grows

end Owners

/-! ## Supervisors in order -/

/-- Nothing in a kernel refers to what belongs to another project, and every number that was drawn is
somebody's. -/
structure MachineOwned (o : Owners) (K : Machine) : Prop where
  future_iff : ∀ i, (o.of (.future i)).isSome ↔ i < K.futures.size
  timer_iff : ∀ i, (o.of (.timer i)).isSome ↔ i < K.nextTimer
  futures : ∀ {i k F}, o.of (.future i) = some k → K.futures[i]? = some F → o.HasFuture k F
  ready : ∀ job ∈ K.ready, ∃ k, o.Has k (jobParts job)
  timers : ∀ t ∈ K.timers, ∃ k, o.Has k (.timer t.id :: jobParts t.job)

/-- Nothing in a supervisor refers to what belongs to another project, and every number that was
drawn is somebody's. -/
structure Owned (o : Owners) (s : Supervisor) : Prop where
  kernel : MachineOwned o s.kernel
  cwd : o.cwd = s.cwd
  process_iff : ∀ pid, (o.of (.process pid)).isSome ↔ firstPid ≤ pid ∧ pid < firstPid + s.attempts
  link_iff : ∀ n, (o.of (.link n)).isSome ↔ n < s.links.size
  session_iff : ∀ n, (o.of (.session n)).isSome ↔ n < s.opened.size
  slots : ∀ {key u}, s.slots.get? key = some u → o.of (.future u) = some key
  processes : ∀ p ∈ s.processes, ∃ k, o.HasProcess k p
  links : ∀ {n k l}, o.of (.link n) = some k → s.links[n]? = some l → o.HasLink k l
  sessions : ∀ {n k x}, o.of (.session n) = some k → s.opened[n]? = some x → o.HasSession k x

end SuggestBridge.Supervisor
