import SuggestBridge.Proofs.Isolation.Kernel

/-!
# What a project does to a supervisor

`Act` lists the small things that a step of a project does to two supervisors which are alike for the
project.  All of them are about what belongs to the project; what belongs to another one stays as it
is.
-/

namespace SuggestBridge.Supervisor

open SuggestBridge.Task

/-- The same small thing is done to two supervisors, on behalf of a project. -/
inductive Act (k : Text) : Duo Supervisor → Duo Supervisor → Prop where
  | kernel {o o' : Owners} {s t : Supervisor} {K L : Machine}
      (acts : MachineActs k ⟨o, s.kernel, t.kernel⟩ ⟨o', K, L⟩) :
      Act k ⟨o, s, t⟩ ⟨o', { s with kernel := K }, { t with kernel := L }⟩
  /-- The log, the events and the tasks in the background are nobody's. -/
  | notes {o : Owners} {s t : Supervisor} (log log' : List LogLine) (events events' : List Text)
      (background background' : List Id) :
      Act k ⟨o, s, t⟩ ⟨o, { s with log, events, background },
        { t with log := log', events := events', background := background' }⟩
  | process {o : Owners} {s t : Supervisor} {pid : Nat} {f : Daemon.Process → Daemon.Process}
      (own : o.of (.process pid) = some k) (same : ∀ p, (f p).pid = p.pid)
      (keeps : ∀ p, o.HasProcess k p → o.HasProcess k (f p)) :
      Act k ⟨o, s, t⟩ ⟨o, s.updateProcess pid f, t.updateProcess pid f⟩
  | attempt {o : Owners} {s t : Supervisor} :
      Act k ⟨o, s, t⟩ ⟨o.add (.process (firstPid + s.attempts)) k,
        { s with attempts := s.attempts + 1 }, { t with attempts := s.attempts + 1 }⟩
  | appear {o : Owners} {s t : Supervisor} {p : Daemon.Process} (own : o.HasProcess k p) :
      Act k ⟨o, s, t⟩ ⟨o, { s with processes := s.processes ++ [p] },
        { t with processes := t.processes ++ [p] }⟩
  | link {o : Owners} {s t : Supervisor} {n : Nat} {f : Link → Link}
      (own : o.of (.link n) = some k) (keeps : ∀ l, o.HasLink k l → o.HasLink k (f l)) :
      Act k ⟨o, s, t⟩ ⟨o, s.updateLink n f, t.updateLink n f⟩
  | join {o : Owners} {s t : Supervisor} {l : Link} (own : o.HasLink k l) :
      Act k ⟨o, s, t⟩ ⟨o.add (.link s.links.size) k, { s with links := s.links.push l },
        { t with links := t.links.push l }⟩
  | session {o : Owners} {s t : Supervisor} {n : Nat} {f : Session → Session}
      (own : o.of (.session n) = some k) (keeps : ∀ x, o.HasSession k x → o.HasSession k (f x)) :
      Act k ⟨o, s, t⟩ ⟨o, s.updateSession n f, t.updateSession n f⟩
  | commence {o : Owners} {s t : Supervisor} {x : Session} (own : o.HasSession k x) :
      Act k ⟨o, s, t⟩ ⟨o.add (.session s.opened.size) k, { s with opened := s.opened.push x },
        { t with opened := t.opened.push x }⟩
  | slots {o : Owners} {s t : Supervisor} {v w : Slots}
      (others : ∀ {key}, key ≠ k → v.get? key = s.slots.get? key) (same : w.get? k = v.get? k)
      (own : ∀ {u}, v.get? k = some u → o.of (.future u) = some k) :
      Act k ⟨o, s, t⟩ ⟨o, { s with slots := v }, { t with slots := w }⟩

/-- Any number of them. -/
def Acts (k : Text) : Duo Supervisor → Duo Supervisor → Prop := Relation.ReflTransGen (Act k)

/-- Whether a process is that of a project. -/
def Owners.isOf (o : Owners) (k : Text) (p : Daemon.Process) : Bool := o.of (.process p.pid) = some k

/-- Two supervisors are alike for a project, and have drawn the same numbers. -/
structure Alike (k : Text) (o : Owners) (s t : Supervisor) : Prop where
  kernel : MachineAlike k o s.kernel t.kernel
  settings : t.settings = s.settings
  cwd : t.cwd = s.cwd
  scripts : t.scripts = s.scripts
  attempts : t.attempts = s.attempts
  slot : t.slots.get? k = s.slots.get? k
  drawn : ∀ p ∈ t.processes, (o.of (.process p.pid)).isSome
  processes : t.processes.filter (o.isOf k) = s.processes.filter (o.isOf k)
  linkCount : t.links.size = s.links.size
  links : ∀ {n}, o.of (.link n) = some k → t.links[n]? = s.links[n]?
  sessionCount : t.opened.size = s.opened.size
  sessions : ∀ {n}, o.of (.session n) = some k → t.opened[n]? = s.opened[n]?

/-- The supervisor `t` holds nothing but what `s` holds for the project `q`. -/
structure Twin (q : Text) (o : Owners) (s t : Supervisor) : Prop where
  kernel : MachineTwin q o s.kernel t.kernel
  settings : t.settings = s.settings
  cwd : t.cwd = s.cwd
  scripts : t.scripts = s.scripts
  slot : t.slots.get? q = s.slots.get? q
  processes : t.processes = s.processes.filter (o.isOf q)
  links : ∀ {n}, o.of (.link n) = some q → t.links[n]? = s.links[n]?
  sessions : ∀ {n}, o.of (.session n) = some q → t.opened[n]? = s.opened[n]?

variable {k q : Text} {o o' : Owners} {s s' t t' : Supervisor} {x : Part}

/-! ## Growing books -/

lemma Owners.of_add_of_ne {y : Part} (h : y ≠ x) : (o.add x k).of y = o.of y := by
  cases y with
  | slot | common => rfl
  | _ => exact (congrArg _ (if_neg h)).trans Option.or_none

lemma Owners.of_add_self (hx : ∀ key, x ≠ .slot key) (hcommon : x ≠ .common) (h : o.of x = none) :
    (o.add x k).of x = some k := by
  cases x with
  | slot key => exact absurd rfl (hx key)
  | common => exact absurd rfl hcommon
  | _ =>
    refine (Option.or_of_isNone (o := o.numbered _) ?_).trans (if_pos rfl)
    exact Option.isNone_iff_eq_none.2 h

/-- A kernel draws the numbers of futures and timers only. -/
lemma MachineActs.of_eq {K K' L L' : Machine} (h : MachineActs k ⟨o, K, L⟩ ⟨o', K', L'⟩)
    (hfuture : ∀ i, x ≠ .future i) (htimer : ∀ i, x ≠ .timer i) : o'.of x = o.of x := by
  refine h.keeps (motive := fun o' _ _ => o'.of x = o.of x) (fun hact ih => ?_) rfl
  cases hact with
  | add => exact (Owners.of_add_of_ne (hfuture _)).trans ih
  | after => exact (Owners.of_add_of_ne (htimer _)).trans ih
  | _ => exact ih

/-- What was drawn before belongs to whom it belonged. -/
lemma Owners.Grows.of_old (h : Owners.Grows k o o') (hx : (o.of x).isSome) (hq : o'.of x = some q) :
    o.of x = some q := by
  obtain ⟨j, hj⟩ := Option.isSome_iff_exists.1 hx
  exact (h.of_iff_of_has hj).1 hq

lemma MachineOwned.grow {K : Machine} (h : MachineOwned o K) (hgrows : Owners.Grows k o o')
    (hfuture : ∀ i, o'.of (.future i) = o.of (.future i))
    (htimer : ∀ i, o'.of (.timer i) = o.of (.timer i)) : MachineOwned o' K where
  future_iff i := by rw [hfuture, h.future_iff]
  timer_iff i := by rw [htimer, h.timer_iff]
  futures {i j F} hi hF := hgrows.hasFuture (h.futures (hfuture i ▸ hi) hF)
  ready job hjob := (h.ready job hjob).imp fun _ => hgrows.has
  timers t ht := (h.timers t ht).imp fun _ => hgrows.has

namespace Owned

variable (h : Owned o s)
include h

lemma none_process : o.of (.process (firstPid + s.attempts)) = none := by
  by_contra hsome
  have := ((h.process_iff _).1 (Option.isSome_iff_ne_none.2 hsome)).2
  exact absurd this (Nat.lt_irrefl _)

lemma none_link : o.of (.link s.links.size) = none := by
  by_contra hsome
  exact absurd ((h.link_iff _).1 (Option.isSome_iff_ne_none.2 hsome)) (Nat.lt_irrefl _)

lemma none_session : o.of (.session s.opened.size) = none := by
  by_contra hsome
  exact absurd ((h.session_iff _).1 (Option.isSome_iff_ne_none.2 hsome)) (Nat.lt_irrefl _)

variable (hgrows : Owners.Grows k o o')
include hgrows

lemma grow_processes : ∀ p ∈ s.processes, ∃ j, o'.HasProcess j p := fun p hp =>
  (h.processes p hp).imp fun _ => hgrows.hasProcess

lemma grow_links {n : Nat} {j : Text} {l : Link} (hn : o'.of (.link n) = some j)
    (hl : s.links[n]? = some l) : o'.HasLink j l := by
  have hlt := (Array.getElem?_eq_some_iff.1 hl).1
  exact hgrows.hasLink (h.links (hgrows.of_old ((h.link_iff n).2 hlt) hn) hl)

lemma grow_sessions {n : Nat} {j : Text} {x : Session} (hn : o'.of (.session n) = some j)
    (hx : s.opened[n]? = some x) : o'.HasSession j x := by
  have hlt := (Array.getElem?_eq_some_iff.1 hx).1
  exact hgrows.hasSession (h.sessions (hgrows.of_old ((h.session_iff n).2 hlt) hn) hx)

omit hgrows

/-! ### Small things done on behalf of a project -/

lemma withKernel {K L M : Machine} (hacts : MachineActs k ⟨o, s.kernel, L⟩ ⟨o', K, M⟩)
    (halike : MachineAlike k o s.kernel L) : Owned o' { s with kernel := K } := by
  have hgrows := hacts.grows
  refine
    { kernel := (hacts.joint ⟨h.kernel, halike⟩).owned
      cwd := hgrows.cwd.trans h.cwd
      process_iff := fun pid => ?_, link_iff := fun n => ?_, session_iff := fun n => ?_
      slots := fun hu => hgrows.old (h.slots hu)
      processes := h.grow_processes hgrows
      links := h.grow_links hgrows
      sessions := h.grow_sessions hgrows }
  · rw [hacts.of_eq (x := .process pid) (by simp) (by simp)]
    exact h.process_iff pid
  · rw [hacts.of_eq (x := .link n) (by simp) (by simp)]
    exact h.link_iff n
  · rw [hacts.of_eq (x := .session n) (by simp) (by simp)]
    exact h.session_iff n

lemma updateProcess {pid : Nat} {f : Daemon.Process → Daemon.Process}
    (hpid : o.of (.process pid) = some k) (hkeeps : ∀ p, o.HasProcess k p → o.HasProcess k (f p)) :
    Owned o (s.updateProcess pid f) := by
  refine { h with processes := fun p hp => ?_ }
  obtain ⟨r, hr, rfl⟩ := List.mem_map.1 hp
  obtain ⟨j, hj⟩ := h.processes r hr
  split
  · next heq =>
    have hown : o.of (.process r.pid) = some k := (beq_iff_eq.1 heq) ▸ hpid
    cases hown.symm.trans hj.self
    exact ⟨k, hkeeps r hj⟩
  · exact ⟨j, hj⟩

lemma attempt : Owned (o.add (.process (firstPid + s.attempts)) k)
    { s with attempts := s.attempts + 1 } := by
  have hgrows := Owners.Grows.add o (.process (firstPid + s.attempts)) k
  refine
    { kernel := h.kernel.grow hgrows (fun _ => Owners.of_add_of_ne (by simp))
        fun _ => Owners.of_add_of_ne (by simp)
      cwd := h.cwd
      process_iff := fun pid => ?_, link_iff := fun n => ?_, session_iff := fun n => ?_
      slots := fun hu => hgrows.old (h.slots hu)
      processes := h.grow_processes hgrows
      links := h.grow_links hgrows
      sessions := h.grow_sessions hgrows }
  · have hiff : (o.numbered (.process pid)).isSome ↔ _ := h.process_iff pid
    refine Owners.isSome_numbered_add.trans ?_
    rw [hiff, Part.process.injEq]
    dsimp only
    omega
  · rw [Owners.of_add_of_ne (y := .link n) (by simp)]
    exact h.link_iff n
  · rw [Owners.of_add_of_ne (y := .session n) (by simp)]
    exact h.session_iff n

lemma appear {p : Daemon.Process} (hp : o.HasProcess k p) :
    Owned o { s with processes := s.processes ++ [p] } := by
  refine { h with processes := fun r hr => ?_ }
  rcases List.mem_append.1 hr with hr | hr
  · exact h.processes r hr
  · exact ⟨k, List.mem_singleton.1 hr ▸ hp⟩

lemma updateLink {n : Nat} {f : Link → Link} (hn : o.of (.link n) = some k)
    (hkeeps : ∀ l, o.HasLink k l → o.HasLink k (f l)) : Owned o (s.updateLink n f) := by
  refine { h with link_iff := fun m => ?_, links := fun {m j l} hm hl => ?_ }
  · rw [h.link_iff, Supervisor.updateLink, Array.size_modify]
  · rw [Supervisor.updateLink, Array.getElem?_modify] at hl
    split at hl
    · next heq =>
      subst heq
      cases hm.symm.trans hn
      obtain ⟨l₀, hl₀, rfl⟩ := Option.map_eq_some_iff.1 hl
      exact hkeeps l₀ (h.links hm hl₀)
    · exact h.links hm hl

lemma join {l : Link} (hl : o.HasLink k l) :
    Owned (o.add (.link s.links.size) k) { s with links := s.links.push l } := by
  have hgrows := Owners.Grows.add o (.link s.links.size) k
  refine
    { kernel := h.kernel.grow hgrows (fun _ => Owners.of_add_of_ne (by simp))
        fun _ => Owners.of_add_of_ne (by simp)
      cwd := h.cwd
      process_iff := fun pid => ?_, link_iff := fun n => ?_, session_iff := fun n => ?_
      slots := fun hu => hgrows.old (h.slots hu)
      processes := h.grow_processes hgrows
      links := fun {n j l'} hn hl' => ?_
      sessions := h.grow_sessions hgrows }
  · rw [Owners.of_add_of_ne (y := .process pid) (by simp)]
    exact h.process_iff pid
  · have hiff : (o.numbered (.link n)).isSome ↔ _ := h.link_iff n
    refine Owners.isSome_numbered_add.trans ?_
    rw [hiff, Part.link.injEq, Array.size_push]
    omega
  · rw [Owners.of_add_of_ne (y := .session n) (by simp)]
    exact h.session_iff n
  · rw [Array.getElem?_push] at hl'
    split at hl'
    · next heq =>
      cases hl'
      rw [heq, Owners.of_add_self (by simp) (by simp) h.none_link] at hn
      cases hn
      exact hgrows.hasLink hl
    · exact h.grow_links hgrows hn hl'

lemma updateSession {n : Nat} {f : Session → Session} (hn : o.of (.session n) = some k)
    (hkeeps : ∀ x, o.HasSession k x → o.HasSession k (f x)) : Owned o (s.updateSession n f) := by
  refine { h with session_iff := fun m => ?_, sessions := fun {m j x} hm hx => ?_ }
  · rw [h.session_iff, Supervisor.updateSession, Array.size_modify]
  · rw [Supervisor.updateSession, Array.getElem?_modify] at hx
    split at hx
    · next heq =>
      subst heq
      cases hm.symm.trans hn
      obtain ⟨x₀, hx₀, rfl⟩ := Option.map_eq_some_iff.1 hx
      exact hkeeps x₀ (h.sessions hm hx₀)
    · exact h.sessions hm hx

lemma commence {x : Session} (hx : o.HasSession k x) :
    Owned (o.add (.session s.opened.size) k) { s with opened := s.opened.push x } := by
  have hgrows := Owners.Grows.add o (.session s.opened.size) k
  refine
    { kernel := h.kernel.grow hgrows (fun _ => Owners.of_add_of_ne (by simp))
        fun _ => Owners.of_add_of_ne (by simp)
      cwd := h.cwd
      process_iff := fun pid => ?_, link_iff := fun n => ?_, session_iff := fun n => ?_
      slots := fun hu => hgrows.old (h.slots hu)
      processes := h.grow_processes hgrows
      links := h.grow_links hgrows
      sessions := fun {n j y} hn hy => ?_ }
  · rw [Owners.of_add_of_ne (y := .process pid) (by simp)]
    exact h.process_iff pid
  · rw [Owners.of_add_of_ne (y := .link n) (by simp)]
    exact h.link_iff n
  · have hiff : (o.numbered (.session n)).isSome ↔ _ := h.session_iff n
    refine Owners.isSome_numbered_add.trans ?_
    rw [hiff, Part.session.injEq, Array.size_push]
    omega
  · rw [Array.getElem?_push] at hy
    split at hy
    · next heq =>
      cases hy
      rw [heq, Owners.of_add_self (by simp) (by simp) h.none_session] at hn
      cases hn
      exact hgrows.hasSession hx
    · exact h.grow_sessions hgrows hn hy

lemma withSlots {v : Slots} (hothers : ∀ {key}, key ≠ k → v.get? key = s.slots.get? key)
    (hown : ∀ {u}, v.get? k = some u → o.of (.future u) = some k) :
    Owned o { s with slots := v } := by
  refine { h with slots := fun {key u} hu => ?_ }
  by_cases hkey : key = k
  · subst hkey
    exact hown hu
  · exact h.slots ((hothers hkey).symm.trans hu)

end Owned

namespace Act

lemma grows (h : Act k ⟨o, s, t⟩ ⟨o', s', t'⟩) : Owners.Grows k o o' := by
  cases h with
  | kernel hacts => exact hacts.grows
  | attempt | join | commence => exact .add _ _ _
  | _ => exact .refl

lemma owned (h : Act k ⟨o, s, t⟩ ⟨o', s', t'⟩) (hs : Owned o s)
    (ht : MachineAlike k o s.kernel t.kernel) : Owned o' s' := by
  cases h with
  | kernel hacts => exact hs.withKernel hacts ht
  | notes => exact { hs with }
  | process hpid hsame hkeeps => exact hs.updateProcess hpid hkeeps
  | attempt => exact hs.attempt
  | appear hp => exact hs.appear hp
  | link hn hkeeps => exact hs.updateLink hn hkeeps
  | join hl => exact hs.join hl
  | session hn hkeeps => exact hs.updateSession hn hkeeps
  | commence hx => exact hs.commence hx
  | slots hothers hsame hown => exact hs.withSlots hothers hown

end Act

/-! ## Alike -/

lemma filter_isOf_grow (hgrows : Owners.Grows k o o') {ps : List Daemon.Process}
    (hps : ∀ p ∈ ps, (o.of (.process p.pid)).isSome) :
    ps.filter (o'.isOf q) = ps.filter (o.isOf q) := by
  refine List.filter_congr fun p hp => decide_eq_decide.2 ?_
  exact ⟨hgrows.of_old (hps p hp), hgrows.old⟩

lemma filter_isOf_map {pid : Nat} {f : Daemon.Process → Daemon.Process}
    (hsame : ∀ p, (f p).pid = p.pid) (ps : List Daemon.Process) :
    (ps.map fun p => if p.pid == pid then f p else p).filter (o.isOf q) =
      (ps.filter (o.isOf q)).map fun p => if p.pid == pid then f p else p := by
  rw [List.filter_map]
  congr 1
  refine List.filter_congr fun p _ => ?_
  simp only [Function.comp, Owners.isOf]
  split
  · rw [hsame]
  · rfl

namespace Alike

lemma refl (k : Text) (hs : Owned o s) : Alike k o s s where
  kernel := .refl _ _ _
  settings := rfl
  cwd := rfl
  scripts := rfl
  attempts := rfl
  slot := rfl
  drawn p hp := by
    obtain ⟨j, hj⟩ := hs.processes p hp
    rw [hj.self]
    rfl
  processes := rfl
  linkCount := rfl
  links _ := rfl
  sessionCount := rfl
  sessions _ := rfl

/-- Both supervisors draw the same numbers. -/
lemma grow (h : Alike k o s t) (hs : Owned o s) (hgrows : Owners.Grows k o o') {K L : Machine}
    (hkernel : MachineAlike k o' K L) :
    Alike k o' { s with kernel := K } { t with kernel := L } := by
  refine { h with
    kernel := hkernel
    drawn := fun p hp => ?_
    processes := ?_
    links := fun {n} hn => ?_
    sessions := fun {n} hn => ?_ }
  · obtain ⟨j, hj⟩ := Option.isSome_iff_exists.1 (h.drawn p hp)
    rw [hgrows.old hj]
    rfl
  · rw [filter_isOf_grow hgrows h.drawn, filter_isOf_grow hgrows (Alike.refl k hs).drawn,
      h.processes]
  · by_cases hlt : n < s.links.size
    · exact h.links (hgrows.of_old ((hs.link_iff n).2 hlt) hn)
    · have hcount := h.linkCount
      dsimp only
      rw [Array.getElem?_eq_none (by omega), Array.getElem?_eq_none (by omega)]
  · by_cases hlt : n < s.opened.size
    · exact h.sessions (hgrows.of_old ((hs.session_iff n).2 hlt) hn)
    · have hcount := h.sessionCount
      dsimp only
      rw [Array.getElem?_eq_none (by omega), Array.getElem?_eq_none (by omega)]

end Alike

lemma MachineAlike.grow {K L : Machine} (h : MachineAlike k o K L)
    (hfuture : ∀ i, o'.of (.future i) = o.of (.future i)) : MachineAlike k o' K L :=
  { h with futures := fun {i} hi => h.futures (hfuture i ▸ hi) }

/-- What is done to both keeps them alike. -/
lemma Act.alike (h : Act k ⟨o, s, t⟩ ⟨o', s', t'⟩) (hs : Owned o s) (halike : Alike k o s t) :
    Alike k o' s' t' := by
  have hgrows := h.grows
  cases h with
  | kernel hacts => exact halike.grow hs hgrows (hacts.joint ⟨hs.kernel, halike.kernel⟩).alike
  | notes => exact { halike with }
  | @process _ _ _ pid f hpid hsame hkeeps =>
    refine { halike with drawn := fun p hp => ?_, processes := ?_ }
    · obtain ⟨r, hr, rfl⟩ := List.mem_map.1 hp
      split
      · rw [hsame]
        exact halike.drawn r hr
      · exact halike.drawn r hr
    · rw [updateProcess, updateProcess, filter_isOf_map hsame, filter_isOf_map hsame,
        halike.processes]
  | attempt =>
    exact { halike.grow hs hgrows (halike.kernel.grow fun _ => Owners.of_add_of_ne (by simp)) with
      attempts := rfl }
  | @appear _ _ _ p hp =>
    refine { halike with drawn := fun r hr => ?_, processes := ?_ }
    · rcases List.mem_append.1 hr with hr | hr
      · exact halike.drawn r hr
      · rw [List.mem_singleton.1 hr, hp.self]
        rfl
    · rw [List.filter_append, List.filter_append, halike.processes]
  | @link _ _ _ n f hn hkeeps =>
    refine { halike with linkCount := ?_, links := fun {m} hm => ?_ }
    · rw [updateLink, updateLink, Array.size_modify, Array.size_modify, halike.linkCount]
    · rw [updateLink, updateLink, Array.getElem?_modify, Array.getElem?_modify, halike.links hm]
  | @join _ _ _ l hl =>
    have hgrown :=
      halike.grow hs hgrows (halike.kernel.grow fun _ => Owners.of_add_of_ne (by simp))
    refine { hgrown with linkCount := ?_, links := fun {m} hm => ?_ }
    · rw [Array.size_push, Array.size_push, halike.linkCount]
    · rw [Array.getElem?_push, Array.getElem?_push, halike.linkCount]
      split
      · rfl
      · exact hgrown.links hm
  | @session _ _ _ n f hn hkeeps =>
    refine { halike with sessionCount := ?_, sessions := fun {m} hm => ?_ }
    · rw [updateSession, updateSession, Array.size_modify, Array.size_modify, halike.sessionCount]
    · rw [updateSession, updateSession, Array.getElem?_modify, Array.getElem?_modify,
        halike.sessions hm]
  | @commence _ _ _ x hx =>
    have hgrown :=
      halike.grow hs hgrows (halike.kernel.grow fun _ => Owners.of_add_of_ne (by simp))
    refine { hgrown with sessionCount := ?_, sessions := fun {m} hm => ?_ }
    · rw [Array.size_push, Array.size_push, halike.sessionCount]
    · rw [Array.getElem?_push, Array.getElem?_push, halike.sessionCount]
      split
      · rfl
      · exact hgrown.sessions hm
  | @slots _ _ _ v w hothers hsame hown => exact { halike with slot := hsame }

/-! ## Twins -/

/-- Growing books do not change what a twin has to do. -/
lemma MachineTwin.grow {K L : Machine} (h : MachineTwin q o K L) (hK : MachineOwned o K)
    (hfuture : ∀ i, o'.of (.future i) = o.of (.future i))
    (hgrows : Owners.Grows k o o') : MachineTwin q o' K L where
  now := h.now
  futures {i} hi := h.futures (hfuture i ▸ hi)
  ready := by
    rw [h.ready]
    refine List.filter_congr fun job hjob => ?_
    obtain ⟨j, hj⟩ := hK.ready job hjob
    exact decide_eq_decide.2 (hgrows.of_iff_of_has (hj _ (jobPart_mem job))).symm
  timers := by
    refine h.timers.trans (.of_eq (List.filter_congr fun t ht => ?_))
    obtain ⟨j, hj⟩ := hK.timers t (Array.mem_toList_iff.1 ht)
    exact decide_eq_decide.2 (hgrows.of_iff_of_has (hj _ List.mem_cons_self)).symm

/-- A project that has a supervisor to itself does there what it does among others. -/
lemma Act.twin (h : Act k ⟨o, s, t⟩ ⟨o', s', t'⟩) (hs : Owned o s) (halike : Alike k o s t)
    (htwin : Twin k o s t) : Twin k o' s' t' := by
  have hgrows := h.grows
  have halike' := h.alike hs halike
  have hdrawn := (Alike.refl k hs).drawn
  suffices hparts : MachineTwin k o' s'.kernel t'.kernel ∧
      t'.processes = s'.processes.filter (o'.isOf k) from
    { kernel := hparts.1, settings := halike'.settings, cwd := halike'.cwd
      scripts := halike'.scripts, slot := halike'.slot, processes := hparts.2
      links := halike'.links, sessions := halike'.sessions }
  cases h with
  | kernel hacts =>
    refine ⟨hacts.twin ⟨hs.kernel, halike.kernel⟩ htwin.kernel, ?_⟩
    exact htwin.processes.trans (filter_isOf_grow hgrows hdrawn).symm
  | @process _ _ _ pid f hpid hsame hkeeps =>
    refine ⟨htwin.kernel, ?_⟩
    rw [updateProcess, updateProcess, filter_isOf_map hsame, htwin.processes]
  | @appear _ _ _ p hp =>
    refine ⟨htwin.kernel, ?_⟩
    have hown : [p].filter (o.isOf k) = [p] := List.filter_cons_of_pos (decide_eq_true hp.self)
    rw [List.filter_append, hown, htwin.processes]
  | attempt | join | commence =>
    refine ⟨htwin.kernel.grow hs.kernel (fun _ => Owners.of_add_of_ne (by simp)) hgrows, ?_⟩
    exact htwin.processes.trans (filter_isOf_grow hgrows hdrawn).symm
  | _ => exact ⟨htwin.kernel, htwin.processes⟩

/-- Numbers that one project draws are not those of another one. -/
lemma Twin.grow {u : Supervisor} (h : Twin q o s u) (hs : Owned o s) (hgrows : Owners.Grows k o o')
    (hne : q ≠ k) {K : Machine} (hkernel : MachineTwin q o' K u.kernel) :
    Twin q o' { s with kernel := K } u :=
  { h with
    kernel := hkernel
    processes := h.processes.trans (filter_isOf_grow hgrows (Alike.refl k hs).drawn).symm
    links := fun hn => h.links ((hgrows.of_iff hne).1 hn)
    sessions := fun hn => h.sessions ((hgrows.of_iff hne).1 hn) }

/-- What is done on behalf of one project leaves alone what belongs to another one. -/
lemma Act.aside (h : Act k ⟨o, s, t⟩ ⟨o', s', t'⟩) (hne : q ≠ k) (hs : Owned o s)
    (halike : MachineAlike k o s.kernel t.kernel) {u : Supervisor} (htwin : Twin q o s u) :
    Twin q o' s' u := by
  have hgrows := h.grows
  have hother : ∀ {x}, o.of x = some k → ¬o.of x = some q := fun hk hq =>
    hne (Option.some.inj (hq.symm.trans hk))
  cases h with
  | kernel hacts =>
    exact htwin.grow hs hgrows hne (hacts.aside ⟨hs.kernel, halike⟩ hne htwin.kernel)
  | notes => exact { htwin with }
  | @process _ _ _ pid f hpid hsame hkeeps =>
    refine { htwin with processes := ?_ }
    rw [updateProcess, filter_isOf_map hsame, htwin.processes]
    refine (List.map_congr_left fun p hp => ?_).trans (List.map_id _) |>.symm
    have hown : o.of (.process p.pid) = some q := of_decide_eq_true (List.mem_filter.1 hp).2
    rw [if_neg]
    · rfl
    · intro heq
      exact hother (beq_iff_eq.1 heq ▸ hpid) hown
  | attempt =>
    have hkernel := htwin.kernel.grow hs.kernel (fun _ => Owners.of_add_of_ne (by simp)) hgrows
    exact { htwin.grow hs hgrows hne hkernel with }
  | @appear _ _ _ p hp =>
    refine { htwin with processes := ?_ }
    have hnone : [p].filter (o.isOf q) = [] := List.filter_cons_of_neg fun hown =>
      hother hp.self (of_decide_eq_true hown)
    rw [List.filter_append, hnone, List.append_nil, htwin.processes]
  | @link _ _ _ n f hn hkeeps =>
    refine { htwin with links := fun {m} hm => ?_ }
    have hdiffer : n ≠ m := by
      rintro rfl
      exact hother hn hm
    rw [htwin.links hm, updateLink, Array.getElem?_modify, if_neg hdiffer]
  | @join _ _ _ l hl =>
    have hkernel := htwin.kernel.grow hs.kernel (fun _ => Owners.of_add_of_ne (by simp)) hgrows
    refine { htwin.grow hs hgrows hne hkernel with links := fun {m} hm => ?_ }
    have hm := (hgrows.of_iff hne).1 hm
    have hlt : m < s.links.size := (hs.link_iff m).1 (by rw [hm]; rfl)
    rw [htwin.links hm, Array.getElem?_push, if_neg (Nat.ne_of_lt hlt)]
  | @session _ _ _ n f hn hkeeps =>
    refine { htwin with sessions := fun {m} hm => ?_ }
    have hdiffer : n ≠ m := by
      rintro rfl
      exact hother hn hm
    rw [htwin.sessions hm, updateSession, Array.getElem?_modify, if_neg hdiffer]
  | @commence _ _ _ x hx =>
    have hkernel := htwin.kernel.grow hs.kernel (fun _ => Owners.of_add_of_ne (by simp)) hgrows
    refine { htwin.grow hs hgrows hne hkernel with sessions := fun {m} hm => ?_ }
    have hm := (hgrows.of_iff hne).1 hm
    have hlt : m < s.opened.size := (hs.session_iff m).1 (by rw [hm]; rfl)
    rw [htwin.sessions hm, Array.getElem?_push, if_neg (Nat.ne_of_lt hlt)]
  | @slots _ _ _ v w hothers hsame hown =>
    exact { htwin with slot := htwin.slot.trans (hothers hne).symm }

/-! ## Many things -/

/-- A supervisor in order, and another one that is like it for a project. -/
structure Joint (k : Text) (o : Owners) (s t : Supervisor) : Prop where
  owned : Owned o s
  alike : Alike k o s t

lemma Joint.refl (k : Text) (hs : Owned o s) : Joint k o s s := ⟨hs, .refl k hs⟩

lemma Joint.machine (h : Joint k o s t) : MachineJoint k o s.kernel t.kernel :=
  ⟨h.owned.kernel, h.alike.kernel⟩

namespace Acts

variable {P P' P'' : Duo Supervisor}

@[refl] lemma refl : Acts k P P := Relation.ReflTransGen.refl

lemma single (h : Act k P P') : Acts k P P' := Relation.ReflTransGen.single h

lemma trans (h : Acts k P P') (h' : Acts k P' P'') : Acts k P P'' := Relation.ReflTransGen.trans h h'

/-- What every small thing keeps is kept by many of them. -/
lemma keeps {motive : Owners → Supervisor → Supervisor → Prop} (h : Acts k ⟨o, s, t⟩ ⟨o', s', t'⟩)
    (hstep : ∀ {o o' s s' t t'}, Act k ⟨o, s, t⟩ ⟨o', s', t'⟩ → motive o s t → motive o' s' t')
    (hstart : motive o s t) : motive o' s' t' := by
  suffices hduo : ∀ {P P' : Duo Supervisor}, Acts k P P' →
      motive P.owners P.left P.right → motive P'.owners P'.left P'.right from hduo h hstart
  intro P P' hacts hP
  induction hacts with
  | refl => exact hP
  | tail _ hact ih => exact hstep hact ih

lemma grows (h : Acts k ⟨o, s, t⟩ ⟨o', s', t'⟩) : Owners.Grows k o o' :=
  h.keeps (motive := fun o' _ _ => Owners.Grows k o o') (fun hact hg => hg.trans hact.grows) .refl

lemma joint (h : Acts k ⟨o, s, t⟩ ⟨o', s', t'⟩) (hP : Joint k o s t) : Joint k o' s' t' :=
  h.keeps (motive := Joint k)
    (fun hact hj => ⟨hact.owned hj.owned hj.alike.kernel, hact.alike hj.owned hj.alike⟩) hP

/-- A project that has a supervisor to itself does there what it does among others. -/
lemma twin (h : Acts k ⟨o, s, t⟩ ⟨o', s', t'⟩) (hP : Joint k o s t) (htwin : Twin k o s t) :
    Twin k o' s' t' :=
  (h.keeps (motive := fun o s t => Joint k o s t ∧ Twin k o s t)
    (fun hact hj => ⟨(single hact).joint hj.1, hact.twin hj.1.owned hj.1.alike hj.2⟩)
    ⟨hP, htwin⟩).2

/-- What is done on behalf of one project leaves alone what belongs to another one. -/
lemma aside (h : Acts k ⟨o, s, t⟩ ⟨o', s', t'⟩) (hP : Joint k o s t) (hne : q ≠ k) {u : Supervisor}
    (htwin : Twin q o s u) : Twin q o' s' u :=
  (h.keeps (motive := fun o s t => Joint k o s t ∧ Twin q o s u)
    (fun hact hj => ⟨(single hact).joint hj.1,
      hact.aside hne hj.1.owned hj.1.alike.kernel hj.2⟩) ⟨hP, htwin⟩).2

end Acts

/-- On behalf of a project the same is done to two supervisors. -/
def Parallel (k : Text) (o : Owners) (s t s' t' : Supervisor) : Prop :=
  ∃ o', Acts k ⟨o, s, t⟩ ⟨o', s', t'⟩

/-- On behalf of a project the same is done to two supervisors, with the same result; what the result
refers to is the project's. -/
def Yields {α : Type} (k : Text) (o : Owners) (s t : Supervisor) (parts : α → List Part)
    (x y : Supervisor × α) : Prop :=
  ∃ o', Acts k ⟨o, s, t⟩ ⟨o', x.1, y.1⟩ ∧ y.2 = x.2 ∧ o'.Has k (parts x.2)

lemma Parallel.refl : Parallel k o s t s t := ⟨o, .refl⟩

lemma Parallel.single (h : Act k ⟨o, s, t⟩ ⟨o', s', t'⟩) : Parallel k o s t s' t' := ⟨o', .single h⟩

/-- One thing after the other. -/
lemma Parallel.andThen {s'' t'' : Supervisor} (h : Parallel k o s t s' t') (hP : Joint k o s t)
    (next : ∀ {o'}, Owners.Grows k o o' → Joint k o' s' t' → Parallel k o' s' t' s'' t'') :
    Parallel k o s t s'' t'' := by
  obtain ⟨o', hacts⟩ := h
  obtain ⟨o'', hmore⟩ := next hacts.grows (hacts.joint hP)
  exact ⟨o'', hacts.trans hmore⟩

lemma Acts.andThen {s'' t'' : Supervisor} (h : Acts k ⟨o, s, t⟩ ⟨o', s', t'⟩)
    (next : Parallel k o' s' t' s'' t'') : Parallel k o s t s'' t'' := by
  obtain ⟨o'', hmore⟩ := next
  exact ⟨o'', h.trans hmore⟩

lemma Parallel.thenYields {α : Type} {parts : α → List Part} {x y : Supervisor × α}
    (h : Parallel k o s t s' t') (hP : Joint k o s t)
    (next : ∀ {o'}, Owners.Grows k o o' → Joint k o' s' t' → Yields k o' s' t' parts x y) :
    Yields k o s t parts x y := by
  obtain ⟨o', hacts⟩ := h
  obtain ⟨o'', hmore, heq, hparts⟩ := next hacts.grows (hacts.joint hP)
  exact ⟨o'', hacts.trans hmore, heq, hparts⟩

lemma Acts.thenYields {α : Type} {parts : α → List Part} {x y : Supervisor × α}
    (h : Acts k ⟨o, s, t⟩ ⟨o', s', t'⟩) (next : Yields k o' s' t' parts x y) :
    Yields k o s t parts x y := by
  obtain ⟨o'', hmore, heq, hparts⟩ := next
  exact ⟨o'', h.trans hmore, heq, hparts⟩

lemma Yields.pure {α : Type} {parts : α → List Part} {a : α} (h : o.Has k (parts a)) :
    Yields k o s t parts (s, a) (t, a) := ⟨o, .refl, rfl, h⟩

/-- What a first thing leads to. -/
lemma Yields.split {α : Type} {parts : α → List Part} {x y : Supervisor × α}
    (h : Yields k o s t parts x y) (hP : Joint k o s t) :
    ∃ (o' : Owners) (s' t' : Supervisor) (a : α), x = (s', a) ∧ y = (t', a) ∧
      Acts k ⟨o, s, t⟩ ⟨o', s', t'⟩ ∧ Joint k o' s' t' ∧ o'.Has k (parts a) := by
  obtain ⟨o', hacts, heq, hparts⟩ := h
  exact ⟨o', x.1, y.1, x.2, rfl, Prod.ext rfl heq, hacts, hacts.joint hP, hparts⟩

end SuggestBridge.Supervisor
