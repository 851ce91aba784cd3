import SuggestBridge.Proofs.Supervisor.Slots
import SuggestBridge.Supervisor.Run

/-!
# Sessions that are looked after

The daemon of a session is stopped in the end if it is over, if the session is being ended, or if the
session is told when the peer of its connection closes.  `Guarded` says that one of these holds of
every session, and that a startup whose session is not over keeps its slot.  Within a turn some
sessions are in between: `ending` are those that are being ended, and `told` those that are about to
be told.
-/

namespace SuggestBridge.Supervisor

open SuggestBridge.Task

variable {s s' : Supervisor} {n m : Nat} {key : Text} {u : Id} {pid : Nat}
variable {owns : Nat → Id → Prop} {ending ending' told told' : Nat → Prop}

/-! ## Processes and sessions after a change -/

lemma process?_map {ps : List Daemon.Process} {f : Daemon.Process → Daemon.Process}
    (hf : ∀ q, (f q).pid = q.pid) (pid : Nat) :
    (ps.map f).find? (fun q => q.pid == pid) = (ps.find? fun q => q.pid == pid).map f := by
  rw [List.find?_map]
  congr 2
  funext q
  simp [hf]

lemma process?_updateProcess {f : Daemon.Process → Daemon.Process} (hf : ∀ q, (f q).pid = q.pid)
    (pid pid' : Nat) :
    (s.updateProcess pid f).process? pid' =
      (s.process? pid').map fun q => if q.pid == pid then f q else q := by
  rw [process?, updateProcess]
  exact process?_map (fun q => by split <;> simp [hf]) pid'

/-- A process that is started comes after those that are there. -/
lemma process?_append {ps : List Daemon.Process} {q : Daemon.Process} (pid : Nat) :
    (ps ++ [q]).find? (fun q => q.pid == pid) =
      (ps.find? fun q => q.pid == pid).or (if q.pid = pid then some q else none) := by
  rw [List.find?_append]
  by_cases hq : q.pid = pid <;> simp [hq]

lemma isSome_process?_append {ps : List Daemon.Process} {q : Daemon.Process} {pid : Nat} :
    ((ps ++ [q]).find? fun q => q.pid == pid).isSome = true ↔
      (ps.find? fun q => q.pid == pid).isSome = true ∨ q.pid = pid := by
  rw [process?_append, Option.isSome_or, Bool.or_eq_true]
  by_cases hq : q.pid = pid <;> simp [hq]

lemma sessionOf?_eq_some_iff :
    s.sessionOf? u = some n ↔ s.kernel.outcome? u = some (.value (.session n)) := by
  rw [sessionOf?]
  cases s.kernel.outcome? u with
  | none => simp
  | some o =>
    cases o with
    | value v => cases v <;> simp
    | _ => simp

/-! ## Sessions and their daemons -/

/-- A process has exited, or somebody has tried to kill it. -/
def Over (s : Supervisor) (pid : Nat) : Prop :=
  (∃ q, s.process? pid = some q ∧ q.exitCode ≠ none) ∨ "kill " ++ Text.ofNat pid ∈ s.events

lemma over_of_not_isRunning (hpid : (s.process? pid).isSome = true) (h : s.isRunning pid = false) :
    s.Over pid := by
  obtain ⟨q, hq⟩ := Option.isSome_iff_exists.1 hpid
  refine .inl ⟨q, hq, fun hnone => ?_⟩
  simp [isRunning, hq, Daemon.Process.isRunning, hnone] at h

/-- A session is told when the peer of a connection closes, and it has not closed yet. -/
def Registered (s : Supervisor) (link n : Nat) : Prop :=
  ∃ l, s.links[link]? = some l ∧ l.connection.peer.closed = false ∧ n ∈ l.connection.peer.callbacks

/-- Every session is looked after, and those that somebody owns are in their slots. -/
structure Guarded (owns : Nat → Id → Prop) (ending told : Nat → Prop) (s : Supervisor) : Prop where
  sessions : ∀ {n x}, s.opened[n]? = some x →
    s.Over x.pid ∨ ending n ∨ x.closing = false ∧ (told n ∨ s.Registered x.link n)
  slots : ∀ {n u}, owns n u → ∃ x, s.opened[n]? = some x ∧ s.sessionOf? u = some n ∧
    (s.Over x.pid ∨ ending n ∨ s.slots.get? x.key = some u)

namespace Guarded

lemma mono (h : s.Guarded owns ending told) (hending : ∀ n, ending n → ending' n)
    (htold : ∀ n, told n → told' n) : s.Guarded owns ending' told' where
  sessions hx := (h.sessions hx).imp id (Or.imp (hending _) (And.imp_right (Or.imp_left (htold _))))
  slots hu := by
    obtain ⟨x, hx, hsession, hslot⟩ := h.slots hu
    exact ⟨x, hx, hsession, hslot.imp id (Or.imp_left (hending _))⟩

/-- A session that is over need not be told and is not being ended any more. -/
lemma discharge (h : s.Guarded owns (fun m => ending m ∨ m = n) (fun m => told m ∨ m = n))
    (hn : ∀ x, s.opened[n]? = some x → s.Over x.pid ∨ ending n) : s.Guarded owns ending told where
  sessions {m x} hx := by
    by_cases hmn : m = n
    · subst hmn
      exact (hn x hx).imp id .inl
    · simpa [hmn] using h.sessions hx
  slots {m u} hu := by
    obtain ⟨x, hx, hsession, hslot⟩ := h.slots hu
    refine ⟨x, hx, hsession, ?_⟩
    by_cases hmn : m = n
    · subst hmn
      exact (hn x hx).imp id .inl
    · simpa [hmn] using hslot

/-- The slot of a session that is being ended is emptied. -/
lemma vacate (h : s.Guarded owns ending told) (hslot : s.slots.get? key = some u)
    (hsession : s.sessionOf? u = some n) :
    Guarded owns (fun m => ending m ∨ m = n) told { s with slots := s.slots.erase key } where
  sessions hx := (h.sessions hx).imp id (Or.imp_left .inl)
  slots {m v} hv := by
    obtain ⟨x, hx, hm, hplace⟩ := h.slots hv
    refine ⟨x, hx, hm, ?_⟩
    rcases hplace with hover | hending | hplace
    · exact .inl hover
    · exact .inr (.inl (.inl hending))
    · by_cases hkey : x.key = key
      · rw [hkey, hslot] at hplace
        cases hplace
        cases hsession.symm.trans hm
        exact .inr (.inl (.inr rfl))
      · exact .inr (.inr ((Slots.get?_erase_of_ne _ hkey).trans hplace))

/-- A session that is being ended is marked as closing. -/
lemma marked (h : s.Guarded owns (fun m => ending m ∨ m = n) told) :
    Guarded owns (fun m => ending m ∨ m = n) told
      (s.updateSession n fun x => { x with closing := true }) where
  sessions {m y} hy := by
    rw [updateSession, Array.getElem?_modify] at hy
    split at hy
    · next hnm => exact .inr (.inl (.inr hnm.symm))
    · exact h.sessions hy
  slots {m u} hu := by
    obtain ⟨x, hx, hrest⟩ := h.slots hu
    rw [updateSession, Array.getElem?_modify, hx]
    split
    · exact ⟨_, rfl, hrest⟩
    · exact ⟨x, rfl, hrest⟩

/-- A session is opened that is still to be told. -/
lemma opened (h : s.Guarded owns ending told) {x : Session} (hx : x.closing = false) :
    Guarded owns ending (fun m => told m ∨ m = s.opened.size)
      { s with opened := s.opened.push x } where
  sessions {m y} hy := by
    rw [Array.getElem?_push] at hy
    split at hy
    · next hm =>
      cases hy
      exact .inr (.inr ⟨hx, .inl (.inr hm)⟩)
    · exact (h.sessions hy).imp id (Or.imp_right (And.imp_right (Or.imp_left .inl)))
  slots {m u} hu := by
    obtain ⟨y, hy, hrest⟩ := h.slots hu
    refine ⟨y, ?_, hrest⟩
    rw [Array.getElem?_push, if_neg (Nat.ne_of_lt (Array.getElem?_eq_some_iff.1 hy).1), hy]

end Guarded

/-! ## Harmless steps -/

/-- No session is given up: all stay as they are but for their last activity, and so do their slots,
and those that are registered stay registered. -/
structure Harmless (s s' : Supervisor) : Prop where
  ended : ∀ {pid}, s.Over pid → s'.Over pid
  kept : ∀ {n : Nat} {x : Session}, s.opened[n]? = some x →
    ∃ y, s'.opened[n]? = some y ∧ y.key = x.key ∧ y.pid = x.pid
  known : ∀ {n : Nat} {y : Session}, s'.opened[n]? = some y → ∃ x, s.opened[n]? = some x ∧ y.pid = x.pid ∧
    y.link = x.link ∧ y.closing = x.closing
  registered : ∀ {link n}, s.Registered link n → s'.Registered link n
  session : ∀ {u n}, s.sessionOf? u = some n → s'.sessionOf? u = some n
  slots : ∀ {key u n}, s.sessionOf? u = some n → s.slots.get? key = some u →
    s'.slots.get? key = some u

namespace Harmless

lemma guarded (h : Harmless s s') (hs : s.Guarded owns ending told) :
    s'.Guarded owns ending told where
  sessions hy := by
    obtain ⟨x, hx, hpid, hlink, hclosing⟩ := h.known hy
    rw [hpid, hlink, hclosing]
    exact (hs.sessions hx).imp h.ended (Or.imp_right (And.imp_right (Or.imp_right h.registered)))
  slots hu := by
    obtain ⟨x, hx, hsession, hslot⟩ := hs.slots hu
    obtain ⟨y, hy, hkey, hpid⟩ := h.kept hx
    refine ⟨y, hy, h.session hsession, ?_⟩
    rw [hkey, hpid]
    exact hslot.imp h.ended (Or.imp_right (h.slots hsession))

lemma refl (s : Supervisor) : Harmless s s :=
  ⟨id, fun hx => ⟨_, hx, rfl, rfl⟩, fun hy => ⟨_, hy, rfl, rfl, rfl⟩, id, id, fun _ => id⟩

lemma trans {s'' : Supervisor} (h : Harmless s s') (h' : Harmless s' s'') : Harmless s s'' where
  ended := h'.ended ∘ h.ended
  kept hx := by
    obtain ⟨y, hy, hkey, hpid⟩ := h.kept hx
    obtain ⟨z, hz, hkey', hpid'⟩ := h'.kept hy
    exact ⟨z, hz, hkey'.trans hkey, hpid'.trans hpid⟩
  known hz := by
    obtain ⟨y, hy, hpid, hlink, hclosing⟩ := h'.known hz
    obtain ⟨x, hx, hpid', hlink', hclosing'⟩ := h.known hy
    exact ⟨x, hx, hpid.trans hpid', hlink.trans hlink', hclosing.trans hclosing'⟩
  registered := h'.registered ∘ h.registered
  session := h'.session ∘ h.session
  slots hn hu := h'.slots (h.session hn) (h.slots hn hu)

lemma of_kernel {k : Kernel Routine Hook Value Failure}
    (hout : ∀ {x o}, s.kernel.outcome? x = some o → k.outcome? x = some o) :
    Harmless s { s with kernel := k } :=
  { refl s with
    session := fun {u n} hn => by
      rw [sessionOf?_eq_some_iff] at hn ⊢
      exact hout hn }

/-- Something is noted down. -/
lemma of_record (log : List LogLine) (events : List Text) :
    Harmless s { s with log, events := s.events ++ events } :=
  { refl s with ended := fun h => h.imp id (List.mem_append_left _) }

/-- Processes that have exited stay so. -/
lemma of_process (pid : Nat) {f : Daemon.Process → Daemon.Process} (hpid : ∀ q, (f q).pid = q.pid)
    (hexit : ∀ q, q.exitCode ≠ none → (f q).exitCode ≠ none) : Harmless s (s.updateProcess pid f) :=
  { refl s with
    ended := by
      rintro pid' (⟨q, hq, hcode⟩ | hkill)
      · refine .inl ⟨if q.pid == pid then f q else q, ?_, ?_⟩
        · rw [process?_updateProcess hpid, hq]
          rfl
        · split
          · exact hexit q hcode
          · exact hcode
      · exact .inr hkill }

/-- A process is started. -/
lemma of_started {k : Kernel Routine Hook Value Failure}
    (hout : ∀ {x o}, s.kernel.outcome? x = some o → k.outcome? x = some o) (q : Daemon.Process)
    (event : Text) (attempts : Nat) :
    Harmless s { s with
      kernel := k
      processes := s.processes ++ [q]
      events := s.events ++ [event]
      attempts } :=
  { of_kernel hout with
    ended := by
      rintro pid (⟨q', hq', hcode⟩ | hkill)
      · refine .inl ⟨q', ?_, hcode⟩
        rw [process?] at hq' ⊢
        rw [process?_append, hq', Option.some_or]
      · exact .inr (List.mem_append_left _ hkill) }

/-- A slot is emptied that holds no session. -/
lemma of_vacate {k : Kernel Routine Hook Value Failure}
    (hout : ∀ {x o}, s.kernel.outcome? x = some o → k.outcome? x = some o)
    (hslot : s.slots.get? key = some u) (hnone : s.sessionOf? u = none) :
    Harmless s { s with kernel := k, slots := s.slots.erase key } :=
  { of_kernel hout with
    slots := fun {key' v n} hn hv => by
      refine (Slots.get?_erase_of_ne _ ?_).trans hv
      rintro rfl
      cases hslot.symm.trans hv
      cases hnone.symm.trans hn }

/-- The peers of connections stay as they are. -/
lemma of_link (n : Nat) {f : Link → Link}
    (hf : ∀ l, (f l).connection.peer = l.connection.peer) : Harmless s (s.updateLink n f) :=
  { refl s with
    registered := by
      rintro link m ⟨l, hl, hopen, hm⟩
      refine ⟨if n = link then f l else l, ?_, ?_⟩
      · rw [updateLink, Array.getElem?_modify, hl]
        split <;> rfl
      · split
        · rw [hf]
          exact ⟨hopen, hm⟩
        · exact ⟨hopen, hm⟩ }

/-- A connection is made. -/
lemma of_connected (l : Link) : Harmless s { s with links := s.links.push l } :=
  { refl s with
    registered := by
      rintro link m ⟨l', hl', hm⟩
      refine ⟨l', ?_, hm⟩
      rw [Array.getElem?_push, if_neg (Nat.ne_of_lt (Array.getElem?_eq_some_iff.1 hl').1), hl'] }

/-- A session is changed, but not closed. -/
lemma of_session (n : Nat) {f : Session → Session}
    (hf : ∀ x, (f x).key = x.key ∧ (f x).pid = x.pid ∧ (f x).link = x.link ∧
      (f x).closing = x.closing) : Harmless s (s.updateSession n f) :=
  { refl s with
    kept := fun {m x} hx => by
      refine ⟨if n = m then f x else x, ?_, ?_⟩
      · rw [updateSession, Array.getElem?_modify, hx]
        split <;> rfl
      · split
        · exact ⟨(hf x).1, (hf x).2.1⟩
        · exact ⟨rfl, rfl⟩
    known := fun {m y} hy => by
      rw [updateSession, Array.getElem?_modify] at hy
      split at hy
      · obtain ⟨x, hx, rfl⟩ := Option.map_eq_some_iff.1 hy
        exact ⟨x, hx, (hf x).2⟩
      · exact ⟨y, hy, rfl, rfl, rfl⟩ }

end Harmless

end SuggestBridge.Supervisor
