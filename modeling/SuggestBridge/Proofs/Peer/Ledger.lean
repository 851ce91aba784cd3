import SuggestBridge.Proofs.Frame.Reassembly
import SuggestBridge.Proofs.Peer.Calling
import SuggestBridge.Proofs.Peer.Listening
import SuggestBridge.Proofs.Task.Kernel

/-!
# The calls of a peer and the replies it received

A history notes the calls that took a number, in their order, and the bytes that the peer has read.
`Ledger` ties it to the peer and to the outcomes of the futures: numbers are given out one after the
other, a call that waits has received no verdict since it was issued, and a call is settled by the
first verdict that it received since then.

Every change of a peer keeps the ledger in order: a number is taken (`Ledger.numbered`), a call is
listed (`Ledger.listed`) or forgotten (`Ledger.forget`), payloads are handled (`Ledger.handled`).
-/

namespace SuggestBridge.Peer

open Connection (IsClosing numbered listed)
open SuggestBridge.Task (Outcome)

/-- A call that took a number. -/
structure Issue where
  /-- The task that makes the call. -/
  task : Task.Id
  uid : Nat
  /-- The future that the reply is to settle. -/
  future : Task.Id
  /-- How many payloads had been received before. -/
  received : Nat

/-- The calls that took a number, oldest first, and the bytes that were read. -/
structure History where
  issues : List Issue := []
  read : Bytes := []

/-- The payloads that were received in full. -/
def History.received (h : History) : List Text := Frame.leading h.read

/-- The payloads that were received since a call was issued. -/
def History.since (h : History) (i : Issue) : List Text := h.received.drop i.received

lemma History.since_eq_nil {h : History} {i : Issue} (hi : i.received = h.received.length) :
    h.since i = [] := by
  rw [History.since, hi, List.drop_length]

/-- Notes a call. -/
def History.note (h : History) (i : Issue) : History := { h with issues := h.issues ++ [i] }

/-- Notes bytes that were read. -/
def History.add (h : History) (bytes : Bytes) : History := { h with read := h.read ++ bytes }

@[simp] lemma History.add_nil (h : History) : h.add [] = h := by
  rw [History.add, List.append_nil]

/-- The outcomes of the futures that effects settle. -/
def outcomesOf {κ : Type} (es : List (Effect κ)) : List (Task.Id × Outcome Sexp Failure) :=
  (settlements es).map fun p => (p.1, .ofExcept p.2)

lemma mem_settlements_of_lookup {κ : Type} {es : List (Effect κ)} {f : Task.Id}
    {o : Outcome Sexp Failure} (h : (outcomesOf es).lookup f = some o) :
    ∃ r, (f, r) ∈ settlements es ∧ o = .ofExcept r := by
  obtain ⟨⟨_, r⟩, hr, hfo⟩ := List.mem_map.1 (Task.Kernel.mem_of_lookup h)
  cases hfo
  exact ⟨r, hr, rfl⟩

/-- A call may end so: its caller gave up, the first verdict since its issue says so, or the
connection was over. -/
def Justified {κ : Type} (h : History) (p : Peer κ) (i : Issue) (o : Outcome Sexp Failure) : Prop :=
  o = .cancelled ∨ ∃ r, o = .ofExcept r ∧
    (firstVerdict i.uid (h.since i) = some r ∨
      p.closed = true ∧ ∃ e, r = .error e ∧ IsClosing e)

/-- A call returns a value only if the first verdict since its issue says so. -/
lemma Justified.value {κ : Type} {h : History} {p : Peer κ} {i : Issue} {v : Sexp}
    (hj : Justified h p i (.value v)) : firstVerdict i.uid (h.since i) = some (.ok v) := by
  rcases hj with hcancel | ⟨r, hr, hverdict | ⟨-, e, rfl, -⟩⟩
  · cases hcancel
  · cases r with
    | ok w =>
      cases hr
      exact hverdict
    | error e => cases hr
  · cases hr

/-- The calls that a peer keeps are those of the history, settled by what was received. -/
structure Ledger {κ : Type} (h : History) (p : Peer κ)
    (outcome : Task.Id → Option (Outcome Sexp Failure)) : Prop where
  uids : h.issues.map (·.uid) = List.range' 1 h.issues.length
  next : p.nextUid = h.issues.length + 1
  tasks : (h.issues.map (·.task)).Nodup
  futures : (h.issues.map (·.future)).Nodup
  received : ∀ i ∈ h.issues, i.received ≤ h.received.length
  entries : ∀ c ∈ p.pending, ∃ i ∈ h.issues, i.uid = c.uid ∧ i.future = c.future ∧
    firstVerdict i.uid (h.since i) = none
  sorted : (p.pending.map (·.uid)).Pairwise (· < ·)
  closed : p.closed = true → p.pending = []
  settled : ∀ i ∈ h.issues, ∀ o, outcome i.future = some o → Justified h p i o

variable {κ : Type} {h : History} {p q : Peer κ}
  {outcome outcome' : Task.Id → Option (Outcome Sexp Failure)}

namespace Ledger

lemma uid_inj (l : Ledger h p outcome) {i j : Issue} (hi : i ∈ h.issues) (hj : j ∈ h.issues)
    (heq : i.uid = j.uid) : i = j :=
  List.inj_on_of_nodup_map (l.uids ▸ List.nodup_range') hi hj heq

lemma future_inj (l : Ledger h p outcome) {i j : Issue} (hi : i ∈ h.issues) (hj : j ∈ h.issues)
    (heq : i.future = j.future) : i = j :=
  List.inj_on_of_nodup_map l.futures hi hj heq

lemma task_inj (l : Ledger h p outcome) {i j : Issue} (hi : i ∈ h.issues) (hj : j ∈ h.issues)
    (heq : i.task = j.task) : i = j :=
  List.inj_on_of_nodup_map l.tasks hi hj heq

lemma uid_lt (l : Ledger h p outcome) {i : Issue} (hi : i ∈ h.issues) : i.uid < p.nextUid := by
  have hmem : i.uid ∈ List.range' 1 h.issues.length := l.uids ▸ List.mem_map_of_mem hi
  rw [List.mem_range'_1] at hmem
  rw [l.next]
  omega

lemma pending_uid_lt (l : Ledger h p outcome) : ∀ c ∈ p.pending, c.uid < p.nextUid := by
  intro c hc
  obtain ⟨i, hi, huid, -⟩ := l.entries c hc
  exact huid ▸ l.uid_lt hi

lemma distinct (l : Ledger h p outcome) : p.Distinct := by
  have huids : (p.pending.map (·.uid)).Nodup := l.sorted.imp Nat.ne_of_lt
  refine ⟨huids, ?_⟩
  have hinj : ∀ c ∈ p.pending, ∀ d ∈ p.pending, c.future = d.future → c.uid = d.uid := by
    intro c hc d hd heq
    obtain ⟨i, hi, hiu, hif, -⟩ := l.entries c hc
    obtain ⟨j, hj, hju, hjf, -⟩ := l.entries d hd
    rw [← hiu, ← hju, l.future_inj hi hj (by rw [hif, hjf, heq])]
  rw [List.Nodup, List.pairwise_map] at huids ⊢
  exact huids.imp_of_mem fun hc hd hne heq => hne (hinj _ hc _ hd heq)

/-! ## What changes a peer -/

/-- Futures may be settled that no call waits for, and calls may be given up. -/
lemma of_outcome (l : Ledger h p outcome)
    (hsettled : ∀ i ∈ h.issues, ∀ o, outcome' i.future = some o →
      outcome i.future = some o ∨ o = .cancelled) : Ledger h p outcome' :=
  { l with
    settled := fun i hi o ho => (hsettled i hi o ho).elim (l.settled i hi o) .inl }

/-- A change of the peer that concerns neither its calls nor whether it is closed. -/
lemma of_peer (l : Ledger h p outcome) (hpending : q.pending = p.pending)
    (hnext : q.nextUid = p.nextUid) (hclosed : q.closed = p.closed) : Ledger h q outcome :=
  { l with
    next := hnext.trans l.next
    entries := hpending ▸ l.entries
    sorted := hpending ▸ l.sorted
    closed := by rw [hpending, hclosed]; exact l.closed
    settled := fun i hi o ho => by
      rw [Justified, hclosed]
      exact l.settled i hi o ho }

lemma forget (l : Ledger h p outcome) (uid : Nat) : Ledger h (p.forget uid) outcome :=
  { l with
    entries := fun c hc => l.entries c (List.mem_of_mem_filter hc)
    sorted := l.sorted.sublist (List.filter_sublist.map _)
    closed := fun hclosed => by rw [Peer.forget, l.closed hclosed, List.filter_nil] }

/-- A call takes the next number. -/
lemma numbered (l : Ledger h p outcome) {t f : Task.Id} (htask : ∀ i ∈ h.issues, i.task ≠ t)
    (hfuture : ∀ i ∈ h.issues, i.future ≠ f) (hopen : outcome f = none) :
    Ledger (h.note ⟨t, p.nextUid, f, h.received.length⟩) (Connection.numbered p) outcome where
  uids := by
    rw [History.note, List.map_append, l.uids, List.length_append, List.length_singleton,
      List.range'_1_concat, List.map_singleton, l.next, Nat.add_comm]
  next := by
    rw [Connection.numbered, l.next, History.note, List.length_append, List.length_singleton]
  tasks := by
    rw [History.note, List.map_append, List.nodup_append]
    refine ⟨l.tasks, List.nodup_singleton _, fun u hu v hv => ?_⟩
    obtain ⟨i, hi, rfl⟩ := List.mem_map.1 hu
    rw [List.mem_singleton.1 hv]
    exact htask i hi
  futures := by
    rw [History.note, List.map_append, List.nodup_append]
    refine ⟨l.futures, List.nodup_singleton _, fun u hu v hv => ?_⟩
    obtain ⟨i, hi, rfl⟩ := List.mem_map.1 hu
    rw [List.mem_singleton.1 hv]
    exact hfuture i hi
  received i hi := by
    rcases List.mem_append.1 hi with hi | hi
    · exact l.received i hi
    · rw [List.mem_singleton.1 hi]
      exact Nat.le_refl _
  entries c hc := by
    obtain ⟨i, hi, hentry⟩ := l.entries c hc
    exact ⟨i, List.mem_append_left _ hi, hentry⟩
  sorted := l.sorted
  closed := l.closed
  settled i hi o ho := by
    rcases List.mem_append.1 hi with hi | hi
    · exact l.settled i hi o ho
    · rw [List.mem_singleton.1 hi] at ho
      simp [hopen] at ho

/-- A call takes the next number and is put on the list of those that wait. -/
lemma listed (l : Ledger h p outcome) (hclosed : p.closed = false) {t f : Task.Id}
    (htask : ∀ i ∈ h.issues, i.task ≠ t) (hfuture : ∀ i ∈ h.issues, i.future ≠ f)
    (hopen : outcome f = none) (method : Text) (now : Float) :
    Ledger (h.note ⟨t, p.nextUid, f, h.received.length⟩) (Connection.listed p method f now)
      outcome :=
  { l.numbered htask hfuture hopen with
    entries := fun c hc => by
      rcases List.mem_append.1 hc with hc | hc
      · exact (l.numbered htask hfuture hopen).entries c hc
      · rw [List.mem_singleton.1 hc]
        refine ⟨_, List.mem_append_right _ (List.mem_singleton_self _), rfl, rfl, ?_⟩
        exact congrArg (firstVerdict _) (History.since_eq_nil rfl)
    sorted := by
      rw [Connection.listed, List.map_append, List.pairwise_append]
      refine ⟨l.sorted, List.pairwise_singleton _ _, fun u hu v hv => ?_⟩
      obtain ⟨c, hc, rfl⟩ := List.mem_map.1 hu
      rw [List.mem_singleton.1 hv]
      exact l.pending_uid_lt c hc
    closed := fun h => by simp [Connection.listed, Connection.numbered, hclosed] at h }

/-- What is read later comes after what was received since a call. -/
lemma since_append (l : Ledger h p outcome) {h' : History} {new : List Text}
    (hnew : h'.received = h.received ++ new) {i : Issue} (hi : i ∈ h.issues) :
    h'.since i = h.since i ++ new := by
  rw [History.since, hnew, List.drop_append_of_le_length (l.received i hi)]
  rfl

/-- Payloads, or the end of the connection, give verdicts on the calls that wait. -/
lemma handled (l : Ledger h p outcome) {verdict : Nat → Option (Except Failure Sexp)}
    {es : List (Effect κ)} {isDone : Task.Id → Bool} (hhandled : Handled p q isDone verdict es)
    (hclosed : p.closed = true → q.closed = true) (hempty : q.closed = true → q.pending = [])
    {bytes : Bytes} {new : List Text} (hnew : (h.add bytes).received = h.received ++ new)
    (hkept : ∀ c ∈ p.pending, verdict c.uid = none → firstVerdict c.uid new = none)
    (hgiven : ∀ c ∈ p.pending, ∀ r, verdict c.uid = some r → firstVerdict c.uid new = some r ∨
      q.closed = true ∧ ∃ e, r = .error e ∧ IsClosing e)
    (houtcome : ∀ f, outcome' f = (outcome f).or ((outcomesOf es).lookup f)) :
    Ledger (h.add bytes) q outcome' where
  uids := l.uids
  next := hhandled.nextUid.trans l.next
  tasks := l.tasks
  futures := l.futures
  received i hi := by
    rw [hnew, List.length_append]
    exact Nat.le_trans (l.received i hi) (Nat.le_add_right _ _)
  entries c hc := by
    obtain ⟨hc, hverdict⟩ := hhandled.mem_pending.1 hc
    obtain ⟨i, hi, huid, hfuture, hnone⟩ := l.entries c hc
    refine ⟨i, hi, huid, hfuture, ?_⟩
    rw [l.since_append hnew hi, firstVerdict_append, hnone, Option.none_or, huid]
    exact hkept c hc hverdict
  sorted := l.sorted.sublist ((hhandled.pending ▸ List.filter_sublist).map _)
  closed := hempty
  settled i hi o ho := by
    rw [houtcome] at ho
    cases hi' : outcome i.future with
    | some o' =>
      rw [hi', Option.some_or] at ho
      cases ho
      rcases l.settled i hi o hi' with rfl | ⟨r, rfl, hr | ⟨hp, hr⟩⟩
      · exact .inl rfl
      · refine .inr ⟨r, rfl, .inl ?_⟩
        rw [l.since_append hnew hi, firstVerdict_append, hr, Option.some_or]
      · exact .inr ⟨r, rfl, .inr ⟨hclosed hp, hr⟩⟩
    | none =>
      rw [hi', Option.none_or] at ho
      obtain ⟨r, hmem, rfl⟩ := mem_settlements_of_lookup ho
      obtain ⟨c, hc, hfuture, -, hverdict⟩ := (hhandled.settled _ _).1 hmem
      obtain ⟨j, hj, huid, hfuture', hnone⟩ := l.entries c hc
      cases l.future_inj hj hi (hfuture'.trans hfuture)
      refine .inr ⟨r, rfl, (hgiven c hc r hverdict).imp (fun hr => ?_) id⟩
      rw [l.since_append hnew hi, firstVerdict_append, hnone, Option.none_or, huid, hr]

/-- The connection is over. -/
lemma broken (l : Ledger h p outcome) {es : List (Effect κ)} {isDone : Task.Id → Bool}
    (hhandled : Handled p q isDone (fun _ => some (.error closing)) es) (hclosed : q.closed = true)
    (houtcome : ∀ f, outcome' f = (outcome f).or ((outcomesOf es).lookup f)) :
    Ledger h q outcome' := by
  have hempty : q.pending = [] := by
    rw [hhandled.pending, List.filter_eq_nil_iff]
    exact fun _ _ => by simp
  have hl := @handled κ h p q outcome outcome' l _ es isDone hhandled (fun _ => hclosed)
    (fun _ => hempty) [] [] (by simp) (fun _ _ hnone => nomatch hnone)
    (fun _ _ r hr => .inr ⟨hclosed, closing, (Option.some.inj hr).symm, .inl rfl⟩) houtcome
  rwa [History.add_nil] at hl

end Ledger

/-- What a call that waited is settled by. -/
lemma Handled.lookup {isDone : Task.Id → Bool} {verdict : Nat → Option (Except Failure Sexp)}
    {es : List (Effect κ)} (hh : Handled p q isDone verdict es) (hp : p.Distinct) {c : PendingCall}
    (hc : c ∈ p.pending) (hopen : isDone c.future = false) :
    (outcomesOf es).lookup c.future = (verdict c.uid).map Outcome.ofExcept := by
  cases hlookup : (outcomesOf es).lookup c.future with
  | some o =>
    obtain ⟨r, hmem, rfl⟩ := mem_settlements_of_lookup hlookup
    obtain ⟨d, hd, hfuture, -, hv⟩ := (hh.settled c.future r).1 hmem
    rw [hp.eq_of_future hc hd hfuture.symm, hv, Option.map_some]
  | none =>
    cases hv : verdict c.uid with
    | none => rfl
    | some r =>
      have hmem := (hh.settled c.future r).2 ⟨c, hc, rfl, hopen, hv⟩
      rw [List.lookup_eq_none_iff] at hlookup
      simpa using hlookup (c.future, .ofExcept r) (List.mem_map.2 ⟨_, hmem, rfl⟩)

/-- A call that no longer waits has been settled. -/
lemma Handled.gone {isDone : Task.Id → Bool} {verdict : Nat → Option (Except Failure Sexp)}
    {es : List (Effect κ)} (hh : Handled p q isDone verdict es)
    (hdone : ∀ f, isDone f = (outcome f).isSome) {c : PendingCall} (hc : c ∈ p.pending)
    (hopen : (outcome c.future).or ((outcomesOf es).lookup c.future) = none) : c ∈ q.pending := by
  obtain ⟨hout, hlookup⟩ := Option.or_eq_none_iff.1 hopen
  refine hh.mem_pending.2 ⟨hc, ?_⟩
  cases hv : verdict c.uid with
  | none => rfl
  | some r =>
    have hmem := (hh.settled c.future r).2 ⟨c, hc, rfl, by rw [hdone, hout]; rfl, hv⟩
    rw [List.lookup_eq_none_iff] at hlookup
    have hne := hlookup (c.future, .ofExcept r) (List.mem_map.2 ⟨_, hmem, rfl⟩)
    simp at hne

end SuggestBridge.Peer
