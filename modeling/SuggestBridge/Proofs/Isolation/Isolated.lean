import SuggestBridge.Proofs.Isolation.Journeys

/-!
# Projects do not touch each other

From every journey the events of all projects but one can be taken out (`isolated_of_journey`): what is
left is a journey too, and at every point of it the remaining project has the very slot, tasks,
sessions, connections and processes that it has among the others.  So its callers are told the same.

A supervisor connects to whatever port a daemon has written.  A daemon that names the port of another
project's daemon would bring the two together; that no daemon does so is a premise (`Candid`).
-/

namespace SuggestBridge.Supervisor

open SuggestBridge.Task

/-- In two worlds a project has the same slot, tasks, sessions, connections, processes and jobs. -/
structure SameFor (q : Text) (w w' : World) : Prop where
  owners : w'.owners = w.owners
  /-- What the project has refers to nothing that belongs to another one. -/
  order : Owned w.owners w.supervisor
  slot : w'.supervisor.slots.get? q = w.supervisor.slots.get? q
  futures : ∀ {i}, w.owners.of (.future i) = some q →
    w'.supervisor.kernel.futures[i]? = w.supervisor.kernel.futures[i]?
  sessions : ∀ {n}, w.owners.of (.session n) = some q →
    w'.supervisor.opened[n]? = w.supervisor.opened[n]?
  links : ∀ {n}, w.owners.of (.link n) = some q →
    w'.supervisor.links[n]? = w.supervisor.links[n]?
  processes : ∀ {pid}, w.owners.of (.process pid) = some q →
    w'.supervisor.process? pid = w.supervisor.process? pid
  /-- The second world has no more to do than that. -/
  jobs : w'.supervisor.kernel.ready =
    w.supervisor.kernel.ready.filter fun job => w.owners.of (jobPart job) = some q

/-- A stage of a journey without the events of all projects but one. -/
structure Purges (q : Text) (x x' : Stage) : Prop where
  key : x'.key = x.key
  kept : x.key = some q ∨ x.key = none → x'.event = x.event
  /-- The events of other projects are taken out. -/
  removed : x.key ≠ some q → x.key ≠ none → x'.event = .pass
  same : SameFor q x.world x'.world

variable {k q : Text} {o o' : Owners} {s s' t t' : Supervisor}

/-! ## Gaps -/

/-- Numbers that are used up make the two supervisors draw the same ones again. -/
lemma Twin.alike (h : Twin q o s t) (hs : Owned o s)
    (hsize : t.kernel.futures.size = s.kernel.futures.size)
    (hnext : t.kernel.nextTimer = s.kernel.nextTimer) (hattempts : t.attempts = s.attempts)
    (hlinks : t.links.size = s.links.size) (hsessions : t.opened.size = s.opened.size) :
    Alike q o s t where
  kernel := ⟨h.kernel.now, hsize, hnext, h.kernel.futures⟩
  settings := h.settings
  cwd := h.cwd
  scripts := h.scripts
  attempts := hattempts
  slot := h.slot
  drawn p hp := by
    rw [h.processes] at hp
    obtain ⟨j, hj⟩ := hs.processes p (List.mem_filter.1 hp).1
    rw [hj.self]
    rfl
  processes := by rw [h.processes, List.filter_filter]; simp only [Bool.and_self]
  linkCount := hlinks
  links := h.links
  sessionCount := hsessions
  sessions := h.sessions

/-- Numbers that are used up are nobody's in the twin. -/
lemma Twin.skip (h : Twin q o s t) (d : Draw)
    (hfutures : ∀ {i}, o.of (.future i) = some q → i < t.kernel.futures.size)
    (hlinks : ∀ {n}, o.of (.link n) = some q → n < t.links.size)
    (hsessions : ∀ {n}, o.of (.session n) = some q → n < t.opened.size) :
    Twin q o s (t.skip d) :=
  { h with
    kernel := { h.kernel with
      futures := fun hi =>
        (Array.getElem?_append_left (hfutures hi)).trans (h.kernel.futures hi) }
    links := fun hn => (Array.getElem?_append_left (hlinks hn)).trans (h.links hn)
    sessions := fun hn => (Array.getElem?_append_left (hsessions hn)).trans (h.sessions hn) }

/-- No number is drawn twice. -/
structure Later (s s' : Supervisor) : Prop where
  futures : s.kernel.futures.size ≤ s'.kernel.futures.size
  timers : s.kernel.nextTimer ≤ s'.kernel.nextTimer
  attempts : s.attempts ≤ s'.attempts
  links : s.links.size ≤ s'.links.size
  sessions : s.opened.size ≤ s'.opened.size

lemma Owned.later (hs : Owned o s) (hs' : Owned o' s') (hgrows : Owners.Grows k o o') :
    Later s s' := by
  have hdrawn : ∀ {x : Part}, (∀ key, x ≠ .slot key) → s.Drawn x → s'.Drawn x := fun hx h => by
    rw [← hs'.isSome_iff_drawn hx]
    obtain ⟨j, hj⟩ := Option.isSome_iff_exists.1 ((hs.isSome_iff_drawn hx).2 h)
    rw [hgrows.old hj]
    rfl
  refine ⟨?_, ?_, ?_, ?_, ?_⟩
  · exact le_of_forall_lt fun i => hdrawn (x := .future i) (by simp)
  · exact le_of_forall_lt fun i => hdrawn (x := .timer i) (by simp)
  · refine le_of_forall_lt fun i hi => ?_
    exact Nat.lt_of_add_lt_add_left (hdrawn (x := .process (firstPid + i)) (by simp)
      ⟨Nat.le_add_right _ _, Nat.add_lt_add_left hi _⟩).2
  · exact le_of_forall_lt fun i => hdrawn (x := .link i) (by simp)
  · exact le_of_forall_lt fun i => hdrawn (x := .session i) (by simp)

/-- The numbers that were drawn in between. -/
def drawnSince (s s' : Supervisor) : Draw where
  futures := s'.kernel.futures.size - s.kernel.futures.size
  timers := s'.kernel.nextTimer - s.kernel.nextTimer
  processes := s'.attempts - s.attempts
  links := s'.links.size - s.links.size
  sessions := s'.opened.size - s.opened.size

/-- When one project draws numbers, the twin of another one lets them go by. -/
lemma Joint.skip (hP : Joint q o s t) (hs' : Owned o' s')
    (hgrows : Owners.Grows k o o') (hne : q ≠ k) (htwin' : Twin q o' s' t) :
    Joint q o' s' (t.skip (s.drawnSince s')) ∧ Twin q o' s' (t.skip (s.drawnSince s')) := by
  have hiff : ∀ {x}, o'.of x = some q ↔ o.of x = some q := hgrows.of_iff hne
  have hlater := hP.owned.later hs' hgrows
  have hskip : Twin q o' s' (t.skip (s.drawnSince s')) := by
    refine htwin'.skip _ (fun {i} hi => ?_) (fun {n} hn => ?_) fun {n} hn => ?_
    · rw [hP.alike.kernel.size]
      exact hP.owned.kernel.lt (hiff.1 hi)
    · rw [hP.alike.linkCount, ← hP.owned.link_iff, hiff.1 hn]
      rfl
    · rw [hP.alike.sessionCount, ← hP.owned.session_iff, hiff.1 hn]
      rfl
  refine ⟨⟨hs', hskip.alike hs' ?_ ?_ ?_ ?_ ?_⟩, hskip⟩
  · exact Array.size_append.trans (by
      rw [hP.alike.kernel.size, Array.size_replicate]; exact Nat.add_sub_of_le hlater.futures)
  · exact (congrArg (· + _) hP.alike.kernel.nextTimer).trans (Nat.add_sub_of_le hlater.timers)
  · exact (congrArg (· + _) hP.alike.attempts).trans (Nat.add_sub_of_le hlater.attempts)
  · exact Array.size_append.trans (by
      rw [hP.alike.linkCount, Array.size_replicate]; exact Nat.add_sub_of_le hlater.links)
  · exact Array.size_append.trans (by
      rw [hP.alike.sessionCount, Array.size_replicate]; exact Nat.add_sub_of_le hlater.sessions)

/-! ## Taking events out -/

/-- Two worlds agree in what they hold for a project, and one holds nothing else. -/
structure Paired (q : Text) (w w' : World) : Prop where
  owners : w'.owners = w.owners
  joint : Joint q w.owners w.supervisor w'.supervisor
  twin : Twin q w.owners w.supervisor w'.supervisor

namespace Paired

variable {w w' v : World} {key : Option Text} {e : Event}

lemma new (q : Text) (settings : Settings) (cwd : Text) (scripts : List Daemon.Script) :
    Paired q (.new settings cwd scripts) (.new settings cwd scripts) := by
  have howned := World.owned_new settings cwd scripts
  exact ⟨rfl, .refl q howned,
    ⟨⟨rfl, fun _ => rfl, rfl, .refl _⟩, rfl, rfl, rfl, rfl, rfl, fun _ => rfl, fun _ => rfl⟩⟩

lemma sameFor (h : Paired q w w') : SameFor q w w' where
  owners := h.owners
  order := h.joint.owned
  slot := h.joint.alike.slot
  futures := h.joint.alike.kernel.futures
  sessions := h.joint.alike.sessions
  links := h.joint.alike.links
  processes := h.joint.process?
  jobs := h.twin.kernel.ready

/-- Every step is taken along, or lets numbers go by. -/
lemma step (h : Paired q w w') (hstep : Step false w key e v)
    (hcandid : Candid w.owners w.supervisor) :
    ∃ e' v', Step true w' key e' v' ∧ Paired q v v' ∧ Purges q ⟨key, e, v⟩ ⟨key, e', v'⟩ := by
  obtain ⟨t, owners⟩ := w'
  obtain ⟨s, o⟩ := w
  obtain rfl : o = owners := Eq.symm h.owners
  cases hstep with
  | @occurs _ k _ _ s' _ hevent =>
    by_cases hne : q = k
    · subst hne
      have hlines : LinesOwned q o s t := hcandid.linesOwned q fun p hp =>
        (List.mem_filter.1 (h.twin.processes ▸ hp)).1
      obtain ⟨o', t', hevent', hgrows, hjoint, htwin⟩ := hevent.mirror h.joint h.twin hlines
      have hsame := hjoint.owned.charge_same hgrows
      have hpaired : Paired q ⟨s', o.charge q s'⟩ ⟨t', o.charge q t'⟩ :=
        ⟨Owners.charge_congr hjoint.alike.drawn_iff, hjoint.rebook hsame,
          htwin.rebook hjoint.owned hsame⟩
      exact ⟨e, _, .occurs hevent', hpaired,
        ⟨rfl, fun _ => rfl, fun hq => absurd rfl hq, hpaired.sameFor⟩⟩
    · obtain ⟨o', hgrows, hs', haside⟩ := hevent.aside h.joint.owned
        (hcandid.linesOwned k fun _ => id)
      have ⟨hjoint, htwin⟩ := h.joint.skip hs' hgrows hne (haside hne h.twin)
      have hsame := hs'.charge_same hgrows
      have hpaired : Paired q ⟨s', o.charge k s'⟩
          ⟨t.skip (s.drawnSince s'), o.charge k (t.skip (s.drawnSince s'))⟩ :=
        ⟨Owners.charge_congr hjoint.alike.drawn_iff, hjoint.rebook hsame, htwin.rebook hs' hsame⟩
      refine ⟨.pass, _, .pass t o k _, hpaired, ⟨rfl, fun hq => ?_, fun _ _ => rfl,
        hpaired.sameFor⟩⟩
      rcases hq with hq | hq
      · exact absurd (Option.some.inj hq).symm hne
      · cases hq
  | turn _ _ now batch =>
    have hpaired : Paired q ⟨{ s with kernel := { s.kernel with now, batch } }, o⟩
        ⟨{ t with kernel := { t.kernel with now, batch } }, o⟩ :=
      ⟨rfl, ⟨h.joint.owned.turn now batch,
        { h.joint.alike with kernel := { h.joint.alike.kernel with now := rfl } }⟩,
        { h.twin with kernel := { h.twin.kernel with now := rfl } }⟩
    exact ⟨_, _, .turn t o now batch, hpaired, ⟨rfl, fun _ => rfl, fun _ hq => absurd rfl hq,
      hpaired.sameFor⟩⟩

end Paired

/-- Something happens on behalf of a project. -/
def World.does (w : World) (k : Text) (e : Event) (s : Supervisor) : Stage :=
  ⟨some k, e, ⟨s, w.owners.charge k s⟩⟩

/-- The jobs that are done next. -/
def World.jobs (w : World) : Nat → List Stage
  | 0 => []
  | n + 1 =>
    match w.supervisor.kernel.ready with
    | [] => []
    | job :: rest =>
      match w.owners.of (jobPart job) with
      | none => []
      | some k =>
        if w.owners.Has k (jobParts job) then
          let x := w.does k .job ((w.supervisor.resettle rest w.supervisor.kernel.timers).carryOut job)
          x :: x.world.jobs n
        else []

namespace Journey

variable {gaps : Bool} {w : World} {run run' : List Stage} {e : Event}

lemma jobs (w : World) (n : Nat) : Journey false w (w.jobs n) := by
  induction n generalizing w with
  | zero => exact .nil
  | succ n ih =>
    unfold World.jobs
    split
    · exact .nil
    · next job rest hready =>
      split
      · exact .nil
      · split
        · next hown => exact .cons (.occurs (.job hready hown)) (ih _)
        · exact .nil

lemma append (h : Journey gaps w run) (h' : Journey gaps (w.last run) run') :
    Journey gaps w (run ++ run') := by
  induction h with
  | nil => exact h'
  | cons hstep _ ih => exact .cons hstep (ih h')

lemma does {f : Supervisor → Supervisor} (hact : FromOutside w.owners k e f)
    (h : Journey false (w.does k e (f w.supervisor)).world run) :
    Journey false w (w.does k e (f w.supervisor) :: run) :=
  .cons (.occurs (.outside hact)) h

end Journey

/-- A supervisor for projects in one directory. -/
def neighbourhood : World := .new { command := ["nimsuggest"] } "/work" [{}, {}]

/-- A client asks for a session for a file there. -/
def asksFor (file : Text) : Routine := .acquire (({ cwd := "/work" } : Client).resolve file)

/-- Clients ask for sessions for two files, and their daemons are begun. -/
def twoStartups : List Stage :=
  let x := neighbourhood.does "/work/p.nim" (.enter (asksFor "/work/p.nim"))
    (neighbourhood.supervisor.enter (asksFor "/work/p.nim"))
  let y := x.world.does "/work/q.nim" (.enter (asksFor "/work/q.nim"))
    (x.world.supervisor.enter (asksFor "/work/q.nim"))
  x :: y :: y.world.jobs 6

/-- One daemon announces its port, and the other one exits. -/
def crash : List Stage :=
  let w := neighbourhood.last twoStartups
  let line := "41001\n".toUTF8.toList
  let x := w.does "/work/p.nim" (.write 1001 .stdout line) (w.supervisor.write 1001 .stdout line)
  let y := x.world.does "/work/q.nim" (.exit 1002 7) (x.world.supervisor.exit 1002 7)
  x :: y :: y.world.jobs 20

lemma journey_crash : Journey false neighbourhood (twoStartups ++ crash) := by
  refine .append ?_ ?_
  · exact .does (.enter rfl (by decide +kernel)) (.does (.enter rfl (by decide +kernel)) (.jobs _ _))
  · exact .does (f := fun s => s.write 1001 .stdout _) (.write _ _ (by decide +kernel))
      (.does (f := fun s => s.exit 1002 7) (.exit _ (by decide +kernel)) (.jobs _ _))

end SuggestBridge.Supervisor
