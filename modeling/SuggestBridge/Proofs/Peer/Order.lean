import SuggestBridge.Proofs.Peer.Work

/-!
# Every run is orderly

Most of what holds between two jobs concerns tasks and futures that the next step leaves alone.
`Later` collects what a step may change at all, for the one task that it moves, if any; then only
that task and what is new have to be looked at (`Orderly.later`).  The steps are the cases of `Work`
and the events.
-/

namespace SuggestBridge.Exchange

open Peer (History Issue Ledger outcomesOf settlements Handled)
open Connection (Begun Went Listened CallState CallProgress)
open SuggestBridge.Task (Outcome Progress)
open SuggestBridge.Task.Kernel (Turn)

variable {x y : Exchange} {h h' : History} {t : Option Task.Id}

/-! ## What a step may change -/

/-- From `x` to `y` at most the task `t` was moved. -/
structure Later (x : Exchange) (h : History) (y : Exchange) (h' : History) (t : Option Task.Id) :
    Prop where
  size : x.kernel.futures.size ≤ y.kernel.futures.size
  outcome : ∀ {u o}, x.kernel.outcome? u = some o → y.kernel.outcome? u = some o
  plain : ∀ {u}, u < x.kernel.futures.size → x.kernel.activity? u = none →
    y.kernel.activity? u = none
  stays : ∀ {u a}, t ≠ some u → x.kernel.activity? u = some a → ∃ b, y.kernel.activity? u = some b
  stayed : ∀ {u b}, t ≠ some u → u < x.kernel.futures.size → y.kernel.activity? u = some b →
    ∃ a, x.kernel.activity? u = some a ∧ a.body = b.body ∧ a.waitingFor = b.waitingFor ∧
      (b.mustCancel = true → a.mustCancel = true ∨ x.connection.listener ≠ some u ∨
        y.connection.peer.closed = true)
  issues : ∃ new, h'.issues = h.issues ++ new ∧
    ∀ i ∈ new, t = some i.task ∧ x.kernel.futures.size ≤ i.future
  received : ∃ new, h'.received = h.received ++ new
  callers : ∀ {u}, u ∈ x.callers → u ∈ y.callers
  newCallers : ∀ {u}, u ∈ y.callers → u ∈ x.callers ∨ x.kernel.futures.size ≤ u
  listener : y.connection.listener = x.connection.listener
  closed : x.connection.peer.closed = true → y.connection.peer.closed = true
  pending : ∀ c ∈ x.connection.peer.pending, y.kernel.outcome? c.future = none →
    c ∈ y.connection.peer.pending ∨ ∃ i ∈ h.issues, i.uid = c.uid ∧ t = some i.task
  draining : ∀ d ∈ x.connection.draining, y.kernel.outcome? d = none → d ∈ y.connection.draining
  stream : t ≠ x.connection.listener → h'.read = h.read ∧
    y.connection.peer.buffer = x.connection.peer.buffer ∧
    ∀ w, y.kernel.outcome? w = none → x.connection.incoming.waiter = some w →
      x.connection.incoming.readiness = .blocked →
      y.connection.incoming.waiter = some w ∧ y.connection.incoming.readiness = .blocked

namespace Later

lemma open_of_open (l : Later x h y h' t) {u : Task.Id} (hu : y.kernel.outcome? u = none) :
    x.kernel.outcome? u = none := by
  cases hx : x.kernel.outcome? u with
  | none => rfl
  | some o => simp [l.outcome hx] at hu

lemma mem_issues (l : Later x h y h' t) {i : Issue} (hi : i ∈ h.issues) : i ∈ h'.issues := by
  obtain ⟨new, hnew, -⟩ := l.issues
  exact hnew ▸ List.mem_append_left _ hi

lemma spare (l : Later x h y h' t) {g : Task.Id} (hg : x.Spare h g) : y.Spare h' g := by
  obtain ⟨hlt, hplain, hfuture⟩ := hg
  refine ⟨Nat.lt_of_lt_of_le hlt l.size, l.plain hlt hplain, fun i hi => ?_⟩
  obtain ⟨new, hnew, hfresh⟩ := l.issues
  rw [hnew] at hi
  rcases List.mem_append.1 hi with hi | hi
  · exact hfuture i hi
  · exact Nat.ne_of_gt (Nat.lt_of_lt_of_le hlt (hfresh i hi).2)

/-- A call that is not moved is still made by its task. -/
lemma makes (l : Later x h y h' t) (hx : Ledger h x.connection.peer x.kernel.outcome?)
    {u future : Task.Id} {uid : Nat} (hu : t ≠ some u) (hmakes : x.Makes h u uid future) :
    y.Makes h' u uid future := by
  obtain ⟨⟨i, hi, htask, huid, hfuture⟩, hentry⟩ := hmakes
  refine ⟨⟨i, l.mem_issues hi, htask, huid, hfuture⟩, fun hopen => ?_⟩
  obtain ⟨c, hc, hcuid, hcfuture⟩ := hentry (l.open_of_open hopen)
  rcases l.pending c hc (hcfuture ▸ hopen) with hc | ⟨j, hj, hjuid, hjtask⟩
  · exact ⟨c, hc, hcuid, hcfuture⟩
  · cases hx.uid_inj hi hj (by rw [huid, hjuid, hcuid])
    exact absurd (htask ▸ hjtask) hu

/-- A task that is not moved stays in its place. -/
lemma placed (l : Later x h y h' t) (hx : Orderly x h) {u : Task.Id}
    {b : Task.Activity Routine} {r : Routine} (hu : t ≠ some u) (hlt : u < x.kernel.futures.size)
    (hb : y.kernel.activity? u = some b) (hr : b.body = some r) : y.Placed h' u b r := by
  obtain ⟨a, ha, hbody, hwaiting, hcancel⟩ := l.stayed hu hlt hb
  have hplaced := hx.placed ha (hbody.trans hr)
  cases r with
  | call method args =>
    obtain ⟨hidle, hcaller, htask⟩ := hplaced
    refine ⟨hwaiting ▸ hidle, l.callers hcaller, fun i hi => ?_⟩
    obtain ⟨new, hnew, hfresh⟩ := l.issues
    rw [hnew] at hi
    rcases List.mem_append.1 hi with hi | hi
    · exact htask i hi
    · exact fun heq => hu (heq ▸ (hfresh i hi).1)
  | calling state =>
    cases state with
    | awaiting uid future =>
      exact ⟨hwaiting ▸ hplaced.1, l.makes hx.ledger hu hplaced.2⟩
    | draining uid future =>
      obtain ⟨⟨d, hd, hspare, hdraining⟩, hmakes⟩ := hplaced
      refine ⟨⟨d, hwaiting ▸ hd, l.spare hspare, fun hopen => ?_⟩, l.makes hx.ledger hu hmakes⟩
      exact l.draining d (hdraining (l.open_of_open hopen)) hopen
  | listen =>
    obtain ⟨hlistener, hclosed, hdrain, hwaits⟩ := hplaced
    obtain ⟨hread, hbuffer, hstream⟩ := l.stream (hlistener ▸ hu)
    refine ⟨l.listener.trans hlistener, fun hb => ?_, ?_, fun w hw => ?_⟩
    · rcases hcancel hb with ha | hne | hclosed'
      · exact l.closed (hclosed ha)
      · exact absurd hlistener hne
      · exact hclosed'
    · rw [History.received, hread, hbuffer]
      exact hdrain
    · obtain ⟨hspare, hready⟩ := hwaits w (hwaiting.trans hw)
      refine ⟨l.spare hspare, fun hopen => ?_⟩
      obtain ⟨hwaiter, hblocked⟩ := hready (l.open_of_open hopen)
      exact hstream w hopen hwaiter hblocked

end Later

/-- What has to be looked at after a step: the task that was moved and what is new. -/
lemma Orderly.later (hx : Orderly x h) (l : Later x h y h' t) (waking : y.kernel.Waking none)
    (tasksOnly : y.kernel.TasksOnly) (ledger : Ledger h' y.connection.peer y.kernel.outcome?)
    (futures : ∀ i ∈ h'.issues, i ∈ h.issues ∨
      i.future < y.kernel.futures.size ∧ y.kernel.activity? i.future = none)
    (placed : ∀ {u a b}, t = some u ∨ x.kernel.futures.size ≤ u → y.kernel.activity? u = some a →
      a.body = some b → y.Placed h' u a b)
    (makers : ∀ i ∈ h'.issues, i ∈ h.issues ∨ i.task ∈ y.callers)
    (callers : ∀ u ∈ y.callers, t = some u ∨ x.kernel.futures.size ≤ u →
      y.kernel.outcome? u = none → ∃ a, y.kernel.activity? u = some a)
    (answered : ∀ u ∈ y.callers, t = some u ∨ x.kernel.futures.size ≤ u →
      ∀ v, y.kernel.outcome? u = some (.value v) →
      ∃ i ∈ h'.issues, i.task = u ∧ Peer.firstVerdict i.uid (h'.since i) = some (.ok v))
    (listener : ∀ u, t = some u → x.connection.listener = some u →
      (∃ a, y.kernel.activity? u = some a ∧ a.body = some .listen) ∨
        y.connection.peer.closed = true ∧ ∃ o, y.kernel.outcome? u = some o)
    (waiter : ∀ w, y.connection.incoming.waiter = some w →
      (x.connection.incoming.waiter = some w ∨ y.Spare h' w) ∧ w ∉ y.connection.draining)
    (draining : ∀ d ∈ y.connection.draining, d ∈ x.connection.draining ∨ y.Spare h' d) :
    Orderly y h' where
  waking := waking
  tasksOnly := tasksOnly
  ledger := ledger
  futures i hi := by
    rcases futures i hi with hi | hplain
    · obtain ⟨hlt, hplain⟩ := hx.futures i hi
      exact ⟨Nat.lt_of_lt_of_le hlt l.size, l.plain hlt hplain⟩
    · exact hplain
  placed {u a b} ha hb := by
    by_cases hu : t = some u ∨ x.kernel.futures.size ≤ u
    · exact placed hu ha hb
    · obtain ⟨hne, hlt⟩ := not_or.1 hu
      exact l.placed hx hne (Nat.lt_of_not_le hlt) ha hb
  makers i hi := (makers i hi).elim (fun hi => l.callers (hx.makers i hi)) id
  callers u hu hopen := by
    by_cases hmoved : t = some u ∨ x.kernel.futures.size ≤ u
    · exact callers u hu hmoved hopen
    · obtain ⟨hne, hlt⟩ := not_or.1 hmoved
      obtain ⟨a, ha⟩ := hx.callers u ((l.newCallers hu).resolve_right hlt) (l.open_of_open hopen)
      exact l.stays hne ha
  answered u hu v hv := by
    by_cases hmoved : t = some u ∨ x.kernel.futures.size ≤ u
    · exact answered u hu hmoved v hv
    · obtain ⟨hne, hlt⟩ := not_or.1 hmoved
      have hcaller := (l.newCallers hu).resolve_right hlt
      cases ho : x.kernel.outcome? u with
      | none =>
        obtain ⟨a, ha⟩ := hx.callers u hcaller ho
        obtain ⟨b, hb⟩ := l.stays hne ha
        simp [waking.unsettled hb] at hv
      | some o =>
        rw [l.outcome ho] at hv
        cases hv
        obtain ⟨i, hi, htask, hverdict⟩ := hx.answered u hcaller v ho
        obtain ⟨new, hnew⟩ := l.received
        refine ⟨i, l.mem_issues hi, htask, ?_⟩
        rw [hx.ledger.since_append hnew hi, Peer.firstVerdict_append, hverdict, Option.some_or]
  listener := by
    obtain ⟨u, hu, hcaller, hstate⟩ := hx.listener
    have hlt : u < x.kernel.futures.size := by
      rcases hstate with ⟨a, ha, -⟩ | ⟨-, o, ho⟩
      · exact Task.Kernel.lt_size_of_activity? ha
      · exact Task.Kernel.lt_size_of_outcome? ho
    refine ⟨u, l.listener.trans hu, fun hmem => ?_, ?_⟩
    · exact (l.newCallers hmem).elim hcaller (Nat.not_le_of_lt hlt)
    · by_cases hmoved : t = some u
      · exact listener u hmoved hu
      · rcases hstate with ⟨a, ha, hb⟩ | ⟨hclosed, o, ho⟩
        · obtain ⟨b, hb'⟩ := l.stays hmoved ha
          obtain ⟨a', ha', hbody, -⟩ := l.stayed hmoved hlt hb'
          rw [ha] at ha'
          cases ha'
          exact .inl ⟨b, hb', hbody ▸ hb⟩
        · exact .inr ⟨l.closed hclosed, o, l.outcome ho⟩
  waiter w hw := by
    obtain ⟨hw', hd⟩ := waiter w hw
    exact ⟨hw'.elim (fun hw' => l.spare (hx.waiter w hw').1) id, hd⟩
  draining d hd := (draining d hd).elim (fun hd => l.spare (hx.draining d hd)) id

/-! ## Turns of calls -/

section CallTurn

variable {u : Task.Id} {a : Task.Activity Routine} {made : Nat}
  {os : List (Task.Id × Outcome Sexp Failure)} {progress : Progress Routine Sexp Failure}

/-- What a turn settles, it settles for the futures of the calls. -/
lemma outcome_future (hx : Orderly x h) (turn : Turn x.kernel y.kernel u made os progress)
    (ha : x.kernel.activity? u = some a) {i : Issue} (hi : i ∈ h.issues) :
    y.kernel.outcome? i.future = (x.kernel.outcome? i.future).or (os.lookup i.future) := by
  refine turn.outcome _ fun heq => ?_
  simp [← heq, (hx.futures i hi).2] at ha

/-- The turn of a call. -/
lemma Later.of_turn (turn : Turn x.kernel y.kernel u made os progress)
    (ha : x.kernel.activity? u = some a) (calls : y.calls = x.calls)
    (issues : ∃ new, h'.issues = h.issues ++ new ∧
      ∀ i ∈ new, some u = some i.task ∧ x.kernel.futures.size ≤ i.future)
    (received : ∃ new, h'.received = h.received ++ new)
    (listener : y.connection.listener = x.connection.listener)
    (closed : x.connection.peer.closed = true → y.connection.peer.closed = true)
    (pending : ∀ c ∈ x.connection.peer.pending, y.kernel.outcome? c.future = none →
      c ∈ y.connection.peer.pending ∨ ∃ i ∈ h.issues, i.uid = c.uid ∧ some u = some i.task)
    (draining : ∀ d ∈ x.connection.draining, d ∈ y.connection.draining)
    (stream : some u ≠ x.connection.listener → h'.read = h.read ∧
      y.connection.peer.buffer = x.connection.peer.buffer ∧
      y.connection.incoming = x.connection.incoming) : Later x h y h' (some u) where
  size := by rw [turn.size]; exact Nat.le_add_right _ _
  outcome := turn.outcome_eq_some
  plain {v} _ hv := by
    rw [turn.other v (fun heq => by simp [← heq, hv] at ha), hv]
  stays {v b} hv hb := ⟨b, by rw [turn.other v (fun heq => hv (heq ▸ rfl)), hb]⟩
  stayed {v b} hv _ hb := by
    rw [turn.other v (fun heq => hv (heq ▸ rfl))] at hb
    exact ⟨b, hb, rfl, rfl, fun hcancel => .inl hcancel⟩
  issues := issues
  received := received
  callers hv := by rwa [Exchange.callers, calls]
  newCallers hv := .inl (by rwa [Exchange.callers, calls] at hv)
  listener := listener
  closed := closed
  pending := pending
  draining d hd _ := draining d hd
  stream hne := by
    obtain ⟨hread, hbuffer, hincoming⟩ := stream hne
    rw [hincoming]
    exact ⟨hread, hbuffer, fun w _ hw hready => ⟨hw, hready⟩⟩

lemma Orderly.callers_lt (hx : Orderly x h) {v : Task.Id} (hv : v ∈ x.callers) :
    v < x.kernel.futures.size := by
  cases ho : x.kernel.outcome? v with
  | some o => exact Task.Kernel.lt_size_of_outcome? ho
  | none =>
    obtain ⟨b, hb⟩ := hx.callers v hv ho
    exact Task.Kernel.lt_size_of_activity? hb

/-- Nothing is known after a turn of what was not there before it. -/
lemma activity?_of_turn (turn : Turn x.kernel y.kernel u made os progress)
    (ha : x.kernel.activity? u = some a) {v : Task.Id} (hv : x.kernel.futures.size ≤ v) :
    v ≠ u ∧ y.kernel.activity? v = none := by
  have hne : v ≠ u :=
    Nat.ne_of_gt (Nat.lt_of_lt_of_le (Task.Kernel.lt_size_of_activity? ha) hv)
  exact ⟨hne, by rw [turn.other v hne, (Task.Kernel.views_of_size_le hv).2.1]⟩

/-- A turn of a call keeps the order, if it keeps the ledger and leaves its own task in its
place. -/
lemma Orderly.call_turn (hx : Orderly x h) (turn : Turn x.kernel y.kernel u made os progress)
    (ha : x.kernel.activity? u = some a) (hcaller : u ∈ x.callers) (calls : y.calls = x.calls)
    {d : Connection NamedCallback} {closes : Nat} (connection : y.connection = { d with closes })
    (incoming : d.incoming = x.connection.incoming)
    (listener : d.listener = x.connection.listener)
    (buffer : d.peer.buffer = x.connection.peer.buffer)
    (closed : x.connection.peer.closed = true → d.peer.closed = true)
    (read : h'.read = h.read)
    (issues : ∃ new, h'.issues = h.issues ++ new ∧ ∀ i ∈ new,
      i.task = u ∧ x.kernel.futures.size ≤ i.future ∧ i.future < y.kernel.futures.size)
    (pending : ∀ c ∈ x.connection.peer.pending, y.kernel.outcome? c.future = none →
      c ∈ d.peer.pending ∨ ∃ i ∈ h.issues, i.uid = c.uid ∧ i.task = u)
    (draining : ∀ g ∈ x.connection.draining, g ∈ d.draining)
    (added : ∀ g ∈ d.draining,
      g ∈ x.connection.draining ∨ x.kernel.futures.size ≤ g ∧ y.Spare h' g)
    (ledger : Ledger h' d.peer y.kernel.outcome?)
    (waits : ∀ {b r}, y.kernel.activity? u = some b → b.body = some r → y.Placed h' u b r)
    (ended : ∀ v, y.kernel.outcome? u = some (.value v) →
      ∃ i ∈ h'.issues, i.task = u ∧ Peer.firstVerdict i.uid (h'.since i) = some (.ok v)) :
    Orderly y h' ∧ Later x h y h' (some u) := by
  have hpeer : y.connection.peer = d.peer := by rw [connection]
  have hincoming : y.connection.incoming = d.incoming := by rw [connection]
  have hdraining : y.connection.draining = d.draining := by rw [connection]
  have hlistener : y.connection.listener = d.listener := by rw [connection]
  rw [← hpeer] at buffer closed pending ledger
  rw [← hincoming] at incoming
  rw [← hdraining] at draining added
  rw [← hlistener] at listener
  obtain ⟨new, hnew, hfresh⟩ := issues
  have hcallers : y.callers = x.callers := by rw [Exchange.callers, calls]; rfl
  have hlater : Later x h y h' (some u) :=
    .of_turn turn ha calls
      ⟨new, hnew, fun i hi => ⟨by rw [(hfresh i hi).1], (hfresh i hi).2.1⟩⟩
      ⟨[], by rw [History.received, read, List.append_nil]; rfl⟩ listener closed
      (fun c hc hopen => (pending c hc hopen).imp id fun ⟨i, hi, huid, htask⟩ =>
        ⟨i, hi, huid, by rw [htask]⟩) draining
      fun _ => ⟨read, buffer, incoming⟩
  refine ⟨hx.later hlater turn.waking turn.tasksOnly ledger ?_ ?_ ?_ ?_ ?_ ?_ ?_ ?_, hlater⟩
  · intro i hi
    rw [hnew, List.mem_append] at hi
    refine hi.imp id fun hi => ⟨(hfresh i hi).2.2, ?_⟩
    exact (activity?_of_turn turn ha (hfresh i hi).2.1).2
  · rintro v b r (heq | hv) hb hr
    · cases heq
      exact waits hb hr
    · simp [(activity?_of_turn turn ha hv).2] at hb
  · intro i hi
    rw [hnew, List.mem_append] at hi
    exact hi.imp id fun hi => by rw [(hfresh i hi).1, hcallers]; exact hcaller
  · rintro v hv (heq | hle) hopen
    · cases heq
      cases progress with
      | ends o => simp [(turn.ended o rfl).2] at hopen
      | waits b g =>
        obtain ⟨-, b, hb, -⟩ := turn.waits b g rfl
        exact ⟨b, hb⟩
    · exact absurd (hx.callers_lt (hcallers ▸ hv)) (Nat.not_lt_of_le hle)
  · rintro v hv (heq | hle) w hw
    · cases heq
      exact ended w hw
    · exact absurd (hx.callers_lt (hcallers ▸ hv)) (Nat.not_lt_of_le hle)
  · rintro v heq hv
    cases heq
    obtain ⟨l, hl, hnot, -⟩ := hx.listener
    rw [hv] at hl
    cases hl
    exact absurd hcaller hnot
  · intro w hw
    rw [incoming] at hw
    obtain ⟨hspare, hnot⟩ := hx.waiter w hw
    refine ⟨.inl hw, fun hmem => ?_⟩
    rcases added w hmem with hmem | ⟨hle, -⟩
    · exact hnot hmem
    · exact absurd hspare.1 (Nat.not_lt_of_le hle)
  · exact fun d hd => (added d hd).imp id And.right

/-- The task `u` makes the call `i`, which the history `h'` notes, be it a new one; the peer `p` has
it on its list while its future is open, and is else the peer of `x`. -/
structure Lists (x : Exchange) (h : History) (u : Task.Id) (made : Nat) (p : Peer NamedCallback)
    (h' : History) (i : Issue) : Prop where
  ledger : Ledger h' p x.kernel.outcome?
  buffer : p.buffer = x.connection.peer.buffer
  closed : p.closed = x.connection.peer.closed
  kept : ∀ c ∈ x.connection.peer.pending, c ∈ p.pending
  mem : i ∈ h'.issues
  task : i.task = u
  entry : x.kernel.outcome? i.future = none →
    ∃ c ∈ p.pending, c.uid = i.uid ∧ c.future = i.future
  read : h'.read = h.read
  issues : ∃ new, h'.issues = h.issues ++ new ∧ ∀ j ∈ new,
    j.task = u ∧ x.kernel.futures.size ≤ j.future ∧ j.future < x.kernel.futures.size + made

namespace Lists

variable {p : Peer NamedCallback} {i : Issue} {es : List (Peer.Effect NamedCallback)}

lemma mem_issues (l : Lists x h u made p h' i) {j : Issue} (hj : j ∈ h.issues) :
    j ∈ h'.issues := by
  obtain ⟨new, hnew, -⟩ := l.issues
  exact hnew ▸ List.mem_append_left _ hj

/-- The issues that are new, for a turn that makes their futures. -/
lemma fresh (l : Lists x h u made p h' i) (turn : Turn x.kernel y.kernel u made os progress) :
    ∃ new, h'.issues = h.issues ++ new ∧ ∀ j ∈ new,
      j.task = u ∧ x.kernel.futures.size ≤ j.future ∧ j.future < y.kernel.futures.size :=
  turn.size ▸ l.issues

lemma outcome (l : Lists x h u made p h' i) (hx : Orderly x h)
    (turn : Turn x.kernel y.kernel u made os progress) (ha : x.kernel.activity? u = some a)
    {j : Issue} (hj : j ∈ h'.issues) :
    y.kernel.outcome? j.future = (x.kernel.outcome? j.future).or (os.lookup j.future) := by
  refine turn.outcome _ fun heq => ?_
  obtain ⟨new, hnew, hfresh⟩ := l.issues
  rw [hnew, List.mem_append] at hj
  rcases hj with hj | hj
  · simp [← heq, (hx.futures j hj).2] at ha
  · exact (activity?_of_turn turn ha (hfresh j hj).2.1).1 heq

/-- A turn that settles nothing leaves the ledger as it is. -/
lemma ledger_of_nil (l : Lists x h u made p h' i) (hx : Orderly x h)
    (turn : Turn x.kernel y.kernel u made (outcomesOf es) progress)
    (ha : x.kernel.activity? u = some a) (hes : settlements es = []) :
    Ledger h' p y.kernel.outcome? := by
  refine l.ledger.of_outcome fun j hj o ho => .inl ?_
  rwa [l.outcome hx turn ha hj, outcomesOf, hes, List.map_nil, List.lookup_nil,
    Option.or_none] at ho

/-- The task still makes its call. -/
lemma makes (l : Lists x h u made p h' i) (turn : Turn x.kernel y.kernel u made os progress)
    (hpending : y.connection.peer.pending = p.pending) : y.Makes h' u i.uid i.future := by
  refine ⟨⟨i, l.mem, l.task, rfl, rfl⟩, fun hopen => ?_⟩
  rw [hpending]
  refine l.entry ?_
  cases hout : x.kernel.outcome? i.future with
  | none => rfl
  | some o => simp [turn.outcome_eq_some hout] at hopen

/-- The peer is closed: no other call is left unsettled. -/
lemma gone (l : Lists x h u made p h' i) (hx : Orderly x h)
    (turn : Turn x.kernel y.kernel u made (outcomesOf es) progress)
    (ha : x.kernel.activity? u = some a) {q : Peer NamedCallback}
    {verdict : Nat → Option (Except Failure Sexp)}
    (handled : Handled (p.forget i.uid) q x.kernel.isDone verdict es) {c : PendingCall}
    (hc : c ∈ x.connection.peer.pending) (hopen : y.kernel.outcome? c.future = none) :
    c ∈ q.pending ∨ ∃ i ∈ h.issues, i.uid = c.uid ∧ i.task = u := by
  obtain ⟨j, hj, huid, hfuture, -⟩ := hx.ledger.entries c hc
  have hj' := l.mem_issues hj
  by_cases hc' : c.uid = i.uid
  · cases l.ledger.uid_inj hj' l.mem (huid.trans hc')
    exact .inr ⟨i, hj, huid, l.task⟩
  · refine .inl (handled.gone (fun _ => rfl) (List.mem_filter.2 ⟨l.kept c hc, ?_⟩) ?_)
    · simpa using hc'
    · rw [← hfuture, ← l.outcome hx turn ha hj', hfuture, hopen]

end Lists

/-- A task that waits is in its place if that is so for every task that waits so. -/
lemma placed_of_waits {state : CallState} {g : Task.Id}
    (turn : Turn x.kernel y.kernel u made os (callTurn (.waits state g)))
    (hstate : ∀ b, b.waitingFor = some g → y.Placed h' u b (.calling state))
    {b : Task.Activity Routine} {r : Routine} (hb : y.kernel.activity? u = some b)
    (hr : b.body = some r) : y.Placed h' u b r := by
  obtain ⟨-, b', hb', hr', hw, -⟩ := turn.waits _ _ rfl
  rw [hb] at hb'
  cases hb'
  rw [hr] at hr'
  cases hr'
  exact hstate b hw

/-- A call that has a number goes on. -/
lemma Orderly.went (hx : Orderly x h) {p : Peer NamedCallback} {i : Issue}
    {drained : Option Task.Id} {d : Connection NamedCallback}
    {es : List (Peer.Effect NamedCallback)} {progress : CallProgress} {closes : Nat}
    (ha : x.kernel.activity? u = some a) (hcaller : u ∈ x.callers)
    (l : Lists x h u made p h' i)
    (spare : ∀ g, drained = some g → x.kernel.futures.size ≤ g ∧ y.Spare h' g)
    (went : Went { x.connection with peer := p } x.kernel.isDone i.uid i.future drained d es
      progress)
    (turn : Turn x.kernel y.kernel u made (outcomesOf es) (callTurn progress))
    (connection : y.connection = { d with closes }) (calls : y.calls = x.calls) :
    Orderly y h' ∧ Later x h y h' (some u) := by
  have hissues := l.fresh turn
  cases went with
  | awaits hes =>
    have hmakes := l.makes turn (by rw [connection])
    refine hx.call_turn turn ha hcaller calls connection rfl rfl l.buffer (fun h => l.closed ▸ h)
      l.read hissues (fun c hc _ => .inl (l.kept c hc)) (fun _ hg => hg) (fun _ hg => .inl hg)
      (l.ledger_of_nil hx turn ha hes) (placed_of_waits turn fun b hw => ⟨hw, hmakes⟩)
      fun v hv => ?_
    simp [(turn.waits _ _ rfl).1] at hv
  | @drains _ g hes hd =>
    have hmakes := l.makes turn (by rw [connection])
    obtain ⟨hle, hspare⟩ := spare g hd
    have hmem : g ∈ y.connection.draining := by
      rw [connection]
      exact List.mem_append_right _ (List.mem_singleton_self g)
    refine hx.call_turn turn ha hcaller calls connection rfl rfl l.buffer (fun h => l.closed ▸ h)
      l.read hissues (fun c hc _ => .inl (l.kept c hc)) (fun _ hg => List.mem_append_left _ hg)
      (fun d hd => (List.mem_append.1 hd).imp id fun hd => ?_) (l.ledger_of_nil hx turn ha hes)
      (placed_of_waits turn fun b hw => ⟨⟨g, hw, hspare, fun _ => hmem⟩, hmakes⟩) fun v hv => ?_
    · exact List.mem_singleton.1 hd ▸ ⟨hle, hspare⟩
    · simp [(turn.waits _ _ rfl).1] at hv
  | leaves hes hfailed =>
    obtain ⟨hnone, hsome⟩ := turn.ended _ rfl
    refine hx.call_turn turn ha hcaller calls connection rfl rfl l.buffer (fun h => l.closed ▸ h)
      l.read hissues (fun c hc _ => .inl (l.kept c hc)) (fun _ hg => hg) (fun _ hg => .inl hg)
      (l.ledger_of_nil hx turn ha hes) (fun hb _ => ?_) fun v hv => ?_
    · simp [hnone] at hb
    · rw [hsome] at hv
      rcases hfailed with rfl | ⟨e, -, rfl⟩ <;> cases hv
  | breaks handled closed' buffer' =>
    obtain ⟨hnone, hsome⟩ := turn.ended _ rfl
    have hledger := @Ledger.broken _ _ _ _ _
      (fun f => (x.kernel.outcome? f).or ((outcomesOf es).lookup f)) (l.ledger.forget i.uid) _ _
      handled closed' fun _ => rfl
    refine hx.call_turn turn ha hcaller calls connection rfl rfl (buffer'.trans l.buffer)
      (fun _ => closed') l.read hissues (fun c hc hopen => l.gone hx turn ha handled hc hopen)
      (fun _ hg => hg) (fun _ hg => .inl hg)
      (hledger.of_outcome fun j hj o ho => .inl (by rwa [l.outcome hx turn ha hj] at ho))
      (fun hb _ => ?_) fun v hv => ?_
    · simp [hnone] at hb
    · simp [hsome] at hv

end CallTurn

/-! ## Turns of the listener -/

section ListenerTurn

variable {u : Task.Id} {a : Task.Activity Routine} {made : Nat}
  {os : List (Task.Id × Outcome Sexp Failure)} {progress : Progress Routine Sexp Failure}

/-- A turn of the listener keeps the order, if it keeps the ledger and leaves the listener in its
place or the peer closed. -/
lemma Orderly.listener_turn (hx : Orderly x h) (turn : Turn x.kernel y.kernel u made os progress)
    (ha : x.kernel.activity? u = some a) (hlisten : x.connection.listener = some u)
    (calls : y.calls = x.calls) (listener : y.connection.listener = x.connection.listener)
    (closed : x.connection.peer.closed = true → y.connection.peer.closed = true)
    (issues : h'.issues = h.issues) (received : ∃ new, h'.received = h.received ++ new)
    (pending : ∀ c ∈ x.connection.peer.pending, y.kernel.outcome? c.future = none →
      c ∈ y.connection.peer.pending)
    (draining : y.connection.draining = x.connection.draining)
    (waiter : ∀ w, y.connection.incoming.waiter = some w → x.connection.incoming.waiter = some w ∨
      x.kernel.futures.size ≤ w ∧ w < y.kernel.futures.size)
    (ledger : Ledger h' y.connection.peer y.kernel.outcome?)
    (waits : ∀ {b r}, y.kernel.activity? u = some b → b.body = some r → y.Placed h' u b r)
    (ended : (∃ b, y.kernel.activity? u = some b ∧ b.body = some .listen) ∨
      y.connection.peer.closed = true ∧ ∃ o, y.kernel.outcome? u = some o) :
    Orderly y h' ∧ Later x h y h' (some u) := by
  have hcallers : y.callers = x.callers := by rw [Exchange.callers, calls]; rfl
  have hlater : Later x h y h' (some u) :=
    .of_turn turn ha calls ⟨[], by rw [issues, List.append_nil], by simp⟩ received listener closed
      (fun c hc hopen => .inl (pending c hc hopen)) (fun g hg => draining ▸ hg)
      fun hne => absurd hlisten.symm hne
  have hcaller : ∀ v ∈ y.callers, ¬(some u = some v ∨ x.kernel.futures.size ≤ v) := by
    rintro v hv (heq | hle)
    · cases heq
      obtain ⟨l, hl, hnot, -⟩ := hx.listener
      rw [hlisten] at hl
      cases hl
      exact hnot (hcallers ▸ hv)
    · exact absurd (hx.callers_lt (hcallers ▸ hv)) (Nat.not_lt_of_le hle)
  refine ⟨hx.later hlater turn.waking turn.tasksOnly ledger (fun i hi => .inl (issues ▸ hi)) ?_
    (fun i hi => .inl (issues ▸ hi)) (fun v hv hmoved => absurd hmoved (hcaller v hv))
    (fun v hv hmoved => absurd hmoved (hcaller v hv)) ?_ ?_ (fun g hg => .inl (draining ▸ hg)),
    hlater⟩
  · rintro v b r (heq | hv) hb hr
    · cases heq
      exact waits hb hr
    · simp [(activity?_of_turn turn ha hv).2] at hb
  · rintro v heq -
    cases heq
    exact ended
  · intro w hw
    rw [draining]
    rcases waiter w hw with hw | ⟨hle, hlt⟩
    · exact ⟨.inl hw, (hx.waiter w hw).2⟩
    · refine ⟨.inr ⟨hlt, (activity?_of_turn turn ha hle).2, fun i hi => ?_⟩, fun hmem => ?_⟩
      · exact Nat.ne_of_lt (Nat.lt_of_lt_of_le (hx.futures i (issues ▸ hi)).1 hle)
      · exact absurd (hx.draining w hmem).1 (Nat.not_lt_of_le hle)

/-- What the listener has read, and what it received thereby. -/
lemma received_add (hx : Orderly x h) (ha : x.kernel.activity? u = some a)
    (hb : a.body = some .listen) (bytes : Bytes) :
    (h.add bytes).received =
      h.received ++ Frame.leading (x.connection.peer.buffer ++ bytes) := by
  obtain ⟨-, -, hdrain, -⟩ := hx.placed ha hb
  exact Frame.leading_append_of_drain hdrain bytes

/-- The ledger after a turn of the listener. -/
lemma Orderly.listened (hx : Orderly x h) (turn : Turn x.kernel y.kernel u made os progress)
    (ha : x.kernel.activity? u = some a) (hb : a.body = some .listen)
    {d : Connection NamedCallback} {bytes : Bytes} {done : List Text} {rejection : Option Failure}
    {es : List (Peer.Effect NamedCallback)} {pause : Connection.Pause}
    (hlistened : Listened x.connection d x.kernel.isDone bytes done rejection es pause)
    (hos : os = outcomesOf es) :
    Ledger (h.add bytes) d.peer y.kernel.outcome? ∧
      ∀ c ∈ x.connection.peer.pending, y.kernel.outcome? c.future = none → c ∈ d.peer.pending := by
  have hout : ∀ i ∈ h.issues, y.kernel.outcome? i.future =
      (x.kernel.outcome? i.future).or ((outcomesOf es).lookup i.future) := fun i hi =>
    hos ▸ outcome_future hx turn ha hi
  obtain ⟨rest, hrest⟩ := hlistened.done_prefix
  have hclosed : x.connection.peer.closed = true → d.peer.closed = true := by
    intro hclosed
    cases pause with
    | blocked => rw [(hlistened.blocked rfl).2.1, hclosed]
    | ended cause => exact (hlistened.ended cause rfl).1
  have hempty : d.peer.closed = true → d.peer.pending = [] := by
    intro hd
    rw [hlistened.handled.pending]
    cases pause with
    | blocked =>
      rw [(hlistened.blocked rfl).2.1] at hd
      rw [hx.ledger.closed hd, List.filter_nil]
    | ended cause =>
      obtain ⟨-, e, rfl, -⟩ := hlistened.ended cause rfl
      rw [List.filter_eq_nil_iff]
      intro c _
      simp [Connection.verdictOn]
  have hkept : ∀ c ∈ x.connection.peer.pending, Connection.verdictOn done rejection c.uid = none →
      Peer.firstVerdict c.uid (Frame.leading (x.connection.peer.buffer ++ bytes)) = none := by
    intro c _ hnone
    obtain ⟨hdone, hrejection⟩ := Option.or_eq_none_iff.1 hnone
    cases pause with
    | blocked =>
      rwa [Frame.leading_of_drain (hlistened.blocked rfl).2.2.2]
    | ended cause =>
      obtain ⟨-, e, rfl, -⟩ := hlistened.ended cause rfl
      cases hrejection
  have hgiven : ∀ c ∈ x.connection.peer.pending, ∀ r,
      Connection.verdictOn done rejection c.uid = some r →
      Peer.firstVerdict c.uid (Frame.leading (x.connection.peer.buffer ++ bytes)) = some r ∨
        d.peer.closed = true ∧ ∃ e, r = .error e ∧ Connection.IsClosing e := by
    intro c _ r hr
    rw [← hrest, Peer.firstVerdict_append]
    rcases Option.or_eq_some_iff.1 hr with hdone | ⟨-, hrejection⟩
    · exact .inl (by rw [hdone, Option.some_or])
    · cases pause with
      | blocked =>
        rw [(hlistened.blocked rfl).1] at hrejection
        cases hrejection
      | ended cause =>
        obtain ⟨hd, e, rfl, he⟩ := hlistened.ended cause rfl
        cases hrejection
        exact .inr ⟨hd, e, rfl, he⟩
  constructor
  · have hledger := @Ledger.handled _ _ _ _ _
      (fun f => (x.kernel.outcome? f).or ((outcomesOf es).lookup f)) hx.ledger _ _ _
      hlistened.handled hclosed hempty _ _ (received_add hx ha hb bytes) hkept hgiven fun _ => rfl
    exact hledger.of_outcome fun i hi o ho => .inl (by rwa [hout i hi] at ho)
  · intro c hc hopen
    obtain ⟨i, hi, -, hfuture, -⟩ := hx.ledger.entries c hc
    refine hlistened.handled.gone (fun _ => rfl) hc ?_
    rw [← hfuture, ← hout i hi, hfuture, hopen]

end ListenerTurn

/-! ## Jobs -/

/-- A job that no call begins with notes no call. -/
lemma note_of_none {limit : Float} (hissue : ∀ n, x.issue? limit n = none)
    (hbuffer : y.connection.incoming.buffer = x.connection.incoming.buffer) :
    note h x limit y = h := by
  rw [note_eq h hbuffer, hissue]
  simp

lemma not_mem_callers (hx : Orderly x h) {u : Task.Id} (hu : u ∈ x.callers) :
    x.connection.listener ≠ some u := by
  intro hl
  obtain ⟨l, hl', hnot, -⟩ := hx.listener
  rw [hl] at hl'
  cases hl'
  exact hnot hu

/-- A call that was going on ends as its future was settled. -/
lemma Orderly.answers (hx : Orderly x h) {u : Task.Id} {a : Task.Activity Routine} {uid : Nat}
    {future : Task.Id} {o o' : Outcome Sexp Failure} {closes : Nat}
    (ha : x.kernel.activity? u = some a) (hmakes : x.Makes h u uid future)
    (ho : x.kernel.outcome? future = some o) (ho' : o' = .cancelled ∨ o' = o)
    (turn : Turn x.kernel y.kernel u 0 [] (.ends o'))
    (connection : y.connection =
      { x.connection with peer := x.connection.peer.forget uid, closes })
    (calls : y.calls = x.calls) : Orderly y h ∧ Later x h y h (some u) := by
  obtain ⟨⟨i, hi, htask, huid, rfl⟩, -⟩ := hmakes
  have hcaller : u ∈ x.callers := htask ▸ hx.makers i hi
  obtain ⟨hnone, hsome⟩ := turn.ended o' rfl
  refine @Orderly.call_turn x y h h u a 0 [] _ hx turn ha hcaller calls
    { x.connection with peer := x.connection.peer.forget uid } closes connection rfl rfl rfl id rfl
    ⟨[], (List.append_nil _).symm, by simp⟩ (fun c hc _ => ?_) (fun _ hg => hg)
    (fun _ hg => .inl hg) ?_ (fun hb _ => by simp [hnone] at hb) fun v hv => ?_
  · by_cases hc' : c.uid = uid
    · exact .inr ⟨i, hi, huid.trans hc'.symm, htask⟩
    · exact .inl (List.mem_filter.2 ⟨hc, by simpa using hc'⟩)
  · refine (hx.ledger.forget uid).of_outcome fun j hj o hjo => .inl ?_
    rwa [outcome_future hx turn ha hj, List.lookup_nil, Option.or_none] at hjo
  · rw [hsome] at hv
    rcases ho' with rfl | rfl
    · cases hv
    · cases hv
      exact ⟨i, hi, htask, (hx.ledger.settled i hi _ ho).value⟩

/-- A call that begins. -/
lemma Orderly.begins (hx : Orderly x h) {u : Task.Id} {a : Task.Activity Routine} {method : Text}
    {args : List Sexp} {d : Connection NamedCallback} {es : List (Peer.Effect NamedCallback)}
    {progress : CallProgress} {closes : Nat} (ha : x.kernel.activity? u = some a)
    (hb : a.body = some (.call method args))
    (begun : Begun x.connection x.kernel.isDone x.kernel.futures.size (x.kernel.futures.size + 1) d
      es progress)
    (turn : Turn x.kernel y.kernel u 2 (outcomesOf es) (callTurn progress))
    (connection : y.connection = { d with closes }) (calls : y.calls = x.calls) :
    ∀ h', h' = (if x.connection.peer.closed then h
      else h.note ⟨u, x.connection.peer.nextUid, x.kernel.futures.size, h.received.length⟩) →
    Orderly y h' ∧ Later x h y h' (some u) := by
  obtain ⟨hidle, hcaller, htask⟩ := hx.placed ha hb
  have hfuture : ∀ i ∈ h.issues, i.future ≠ x.kernel.futures.size := fun i hi =>
    Nat.ne_of_lt (hx.futures i hi).1
  have hopen := (Task.Kernel.views_of_size_le (Nat.le_refl x.kernel.futures.size)).1
  have hsize : y.kernel.futures.size = x.kernel.futures.size + 2 := turn.size
  have hne : x.kernel.futures.size ≠ u :=
    (activity?_of_turn turn ha (Nat.le_refl x.kernel.futures.size)).1
  intro h' hh'
  -- the call that is noted, if the peer is open
  have hissues : ∃ new, (h.note ⟨u, x.connection.peer.nextUid, x.kernel.futures.size,
      h.received.length⟩).issues = h.issues ++ new ∧ ∀ i ∈ new, i.task = u ∧
        x.kernel.futures.size ≤ i.future ∧ i.future < y.kernel.futures.size := by
    refine ⟨_, rfl, fun i hi => ?_⟩
    rw [List.mem_singleton.1 hi, hsize]
    exact ⟨rfl, Nat.le_refl _, Nat.lt_add_of_pos_right Nat.two_pos⟩
  cases begun with
  | refused hclosed =>
    rw [hclosed, if_pos rfl] at hh'
    subst hh'
    obtain ⟨hnone, hsome⟩ := turn.ended _ rfl
    refine hx.call_turn turn ha hcaller calls connection rfl rfl rfl id rfl
      ⟨[], (List.append_nil _).symm, by simp⟩ (fun c hc _ => .inl hc) (fun _ hg => hg)
      (fun _ hg => .inl hg) (hx.ledger.of_outcome fun j hj o hjo => .inl ?_)
      (fun hb _ => by simp [hnone] at hb) fun v hv => by simp [hsome] at hv
    rw [outcome_future hx turn ha hj] at hjo
    simpa [outcomesOf, settlements] using hjo
  | unsendable hclosed =>
    rw [hclosed, if_neg Bool.false_ne_true] at hh'
    subst hh'
    obtain ⟨hnone, hsome⟩ := turn.ended _ rfl
    refine hx.call_turn turn ha hcaller calls connection rfl rfl rfl id rfl hissues
      (fun c hc _ => .inl hc) (fun _ hg => hg) (fun _ hg => .inl hg)
      ((hx.ledger.numbered htask hfuture hopen).of_outcome fun j hj o hjo => .inl ?_)
      (fun hb _ => by simp [hnone] at hb) fun v hv => by simp [hsome] at hv
    rcases List.mem_append.1 hj with hj | hj
    · rw [outcome_future hx turn ha hj] at hjo
      simpa [outcomesOf, settlements] using hjo
    · rw [List.mem_singleton.1 hj, turn.outcome _ hne] at hjo
      rw [List.mem_singleton.1 hj]
      simpa [outcomesOf, settlements] using hjo
  | @issued m now _ _ _ hclosed went =>
    rw [hclosed, if_neg Bool.false_ne_true] at hh'
    subst hh'
    have hlists : Lists x h u 2 _ _ _ :=
      { ledger := hx.ledger.listed hclosed htask hfuture hopen m now
        buffer := rfl
        closed := rfl
        kept := fun c hc => List.mem_append_left _ hc
        mem := List.mem_append_right _ (List.mem_singleton_self _)
        task := rfl
        entry := fun _ => ⟨_, List.mem_append_right _ (List.mem_singleton_self _), rfl, rfl⟩
        read := rfl
        issues := hsize ▸ hissues }
    refine hx.went ha hcaller hlists (fun g hg => ?_) went turn connection calls
    cases hg
    refine ⟨Nat.le_succ _, hsize ▸ Nat.lt_succ_self _,
      (activity?_of_turn turn ha (Nat.le_succ _)).2, fun j hj => ?_⟩
    rcases List.mem_append.1 hj with hj | hj
    · exact Nat.ne_of_lt (Nat.lt_succ_of_lt (hx.futures j hj).1)
    · rw [List.mem_singleton.1 hj]
      exact Nat.ne_of_lt (Nat.lt_succ_self _)

/-- The listener has treated what was there and waits for more. -/
lemma Orderly.listens (hx : Orderly x h) {u : Task.Id} {a : Task.Activity Routine} {bytes : Bytes}
    {done : List Text} {rejection : Option Failure} {d : Connection NamedCallback}
    {es : List (Peer.Effect NamedCallback)} {closes : Nat} (ha : x.kernel.activity? u = some a)
    (hb : a.body = some .listen)
    (listened : Listened x.connection d x.kernel.isDone bytes done rejection es .blocked)
    (turn : Turn x.kernel y.kernel u 1 (outcomesOf es) (.waits .listen x.kernel.futures.size))
    (connection : y.connection =
      { d with closes, incoming := { d.incoming with waiter := some x.kernel.futures.size } })
    (calls : y.calls = x.calls) :
    Orderly y (h.add bytes) ∧ Later x h y (h.add bytes) (some u) := by
  obtain ⟨hlistener, -, hdrain, -⟩ := hx.placed ha hb
  obtain ⟨hledger, hpending⟩ := hx.listened turn ha hb listened rfl
  obtain ⟨-, hclosed, hready, hdone⟩ := listened.blocked rfl
  have hpeer : y.connection.peer = d.peer := by rw [connection]
  have hsame : y.connection.listener = x.connection.listener := by rw [connection, listened.same]
  have hreceived := received_add hx ha hb bytes
  obtain ⟨-, b', hb', hr', hw', hcancel'⟩ := turn.waits _ _ rfl
  refine hx.listener_turn turn ha hlistener calls hsame (by rw [hpeer, hclosed]; exact id) rfl
    ⟨_, hreceived⟩ (by rwa [hpeer]) (by rw [connection, listened.same]) (fun w hw => ?_)
    (by rwa [hpeer]) (fun {b r} hb hr => ?_) (.inl ⟨b', hb', hr'⟩)
  · rw [connection] at hw
    cases hw
    exact .inr ⟨Nat.le_refl _, turn.size ▸ Nat.lt_succ_self _⟩
  · rw [hb] at hb'
    cases hb'
    rw [hr] at hr'
    cases hr'
    refine ⟨hsame.trans hlistener, fun hcancel => by simp [hcancel'] at hcancel, ?_, fun w hw => ?_⟩
    · rw [hpeer, hreceived, Frame.leading_of_drain hdone, History.add,
        Frame.drain_append_of_ok hdrain, hdone]
      rfl
    · rw [hw'] at hw
      cases hw
      refine ⟨⟨turn.size ▸ Nat.lt_succ_self _,
        (activity?_of_turn turn ha (Nat.le_refl _)).2, fun i hi => ?_⟩, fun _ => ?_⟩
      · exact Nat.ne_of_lt (hx.futures i hi).1
      · rw [connection]
        exact ⟨rfl, hready⟩

/-- The listener has found the connection over. -/
lemma Orderly.closes (hx : Orderly x h) {u : Task.Id} {a : Task.Activity Routine} {bytes : Bytes}
    {done : List Text} {rejection : Option Failure} {d : Connection NamedCallback}
    {es : List (Peer.Effect NamedCallback)} {cause : Option Text} {closes : Nat}
    (ha : x.kernel.activity? u = some a) (hb : a.body = some .listen)
    (listened : Listened x.connection d x.kernel.isDone bytes done rejection es (.ended cause))
    (turn : Turn x.kernel y.kernel u 0 (outcomesOf es) (.ends (.value .nil)))
    (connection : y.connection = { d with closes }) (calls : y.calls = x.calls) :
    Orderly y (h.add bytes) ∧ Later x h y (h.add bytes) (some u) := by
  obtain ⟨hlistener, -, -, -⟩ := hx.placed ha hb
  obtain ⟨hledger, hpending⟩ := hx.listened turn ha hb listened rfl
  obtain ⟨hclosed, -⟩ := listened.ended cause rfl
  obtain ⟨hnone, hsome⟩ := turn.ended _ rfl
  have hpeer : y.connection.peer = d.peer := by rw [connection]
  refine hx.listener_turn turn ha hlistener calls (by rw [connection, listened.same])
    (fun _ => hpeer ▸ hclosed) rfl ⟨_, received_add hx ha hb bytes⟩ (by rwa [hpeer])
    (by rw [connection, listened.same]) (fun w hw => .inl ?_) (by rwa [hpeer])
    (fun hb _ => by simp [hnone] at hb) (.inr ⟨hpeer ▸ hclosed, _, hsome⟩)
  rwa [connection, listened.same] at hw

/-- Whatever the next job does keeps the order. -/
lemma Orderly.work (hx : Orderly x h) {limit : Float} (hwork : Work x limit y) :
    Orderly y (note h x limit y) ∧ ∃ t, Later x h y (note h x limit y) t := by
  cases hwork with
  | @cancelled u a b ha hb hidle hasked turn hissue hconnection hcalls =>
    rw [note_of_none hissue (by rw [hconnection])]
    obtain ⟨hnone, hsome⟩ := turn.ended _ rfl
    have hledger : Ledger h x.connection.peer y.kernel.outcome? :=
      hx.ledger.of_outcome fun j hj o hjo => .inl (by
        rwa [outcome_future hx turn ha hj, List.lookup_nil, Option.or_none] at hjo)
    have hplaced := hx.placed ha hb
    cases b with
    | call method args =>
      obtain ⟨horder, hlater⟩ := @Orderly.call_turn x y h h u a 0 [] _ hx turn ha hplaced.2.1 hcalls
        x.connection x.connection.closes hconnection rfl rfl rfl id rfl
        ⟨[], (List.append_nil _).symm, by simp⟩ (fun c hc _ => .inl hc) (fun _ hg => hg)
        (fun _ hg => .inl hg) hledger (fun hb _ => by simp [hnone] at hb)
        fun v hv => by simp [hsome] at hv
      exact ⟨horder, _, hlater⟩
    | calling state =>
      cases state with
      | awaiting uid future => simp [hplaced.1] at hidle
      | draining uid future =>
        obtain ⟨⟨d, hd, -⟩, -⟩ := hplaced
        simp [hd] at hidle
    | listen =>
      obtain ⟨horder, hlater⟩ := @Orderly.listener_turn x y h h u a 0 [] _ hx turn ha hplaced.1
        hcalls (by rw [hconnection]) (by rw [hconnection]; exact id) rfl
        ⟨[], (List.append_nil _).symm⟩ (by rw [hconnection]; exact fun _ hc _ => hc)
        (by rw [hconnection]) (by rw [hconnection]; exact fun _ hw => .inl hw)
        (by rw [hconnection]; exact hledger) (fun hb _ => by simp [hnone] at hb)
        (.inr ⟨by rw [hconnection]; exact hplaced.2.1 hasked, _, hsome⟩)
      exact ⟨horder, _, hlater⟩
  | @call u a method args d es progress closes ha hb begun turn hissue hconnection hcalls _ =>
    obtain ⟨horder, hlater⟩ := hx.begins ha hb begun turn hconnection hcalls
      (note h x limit y) (by
        rw [note_eq h (by rw [hconnection, begun.incoming]), hissue]
        split
        · simp
        · rfl)
    exact ⟨horder, _, hlater⟩
  | @answered u a uid future o ha hb ho turn hissue hconnection hcalls =>
    rw [note_of_none hissue (by rw [hconnection])]
    obtain ⟨-, hmakes⟩ := hx.placed ha hb
    obtain ⟨horder, hlater⟩ := hx.answers ha hmakes ho (by split <;> simp) turn hconnection hcalls
    exact ⟨horder, _, hlater⟩
  | @drained u a uid future d es progress closes ha hb _ went turn hissue hconnection hcalls _ =>
    rw [note_of_none hissue (by rw [hconnection, went.incoming])]
    obtain ⟨-, ⟨i, hi, htask, rfl, rfl⟩, hentry⟩ := hx.placed ha hb
    have hlists : Lists x h u 0 x.connection.peer h i :=
      { ledger := hx.ledger
        buffer := rfl
        closed := rfl
        kept := fun _ hc => hc
        mem := hi
        task := htask
        entry := hentry
        read := rfl
        issues := ⟨[], (List.append_nil _).symm, by simp⟩ }
    obtain ⟨horder, hlater⟩ := hx.went ha (htask ▸ hx.makers i hi) hlists
      (fun _ hg => by cases hg) went turn hconnection hcalls
    exact ⟨horder, _, hlater⟩
  | @late u a uid future o closes ha hb _ ho turn hissue hconnection hcalls =>
    rw [note_of_none hissue (by rw [hconnection])]
    obtain ⟨-, hmakes⟩ := hx.placed ha hb
    obtain ⟨horder, hlater⟩ := hx.answers ha hmakes ho (.inr rfl) turn hconnection hcalls
    exact ⟨horder, _, hlater⟩
  | @listens u a bytes done rejection d es closes ha hb listened _ turn hissue hconnection hcalls =>
    rw [note_of_read h hissue (by rw [hconnection]; exact listened.read)]
    obtain ⟨horder, hlater⟩ := hx.listens ha hb listened turn hconnection hcalls
    exact ⟨horder, _, hlater⟩
  | @closes u a bytes done rejection d es cause closes ha hb listened _ _ turn hissue hconnection
      hcalls =>
    rw [note_of_read h hissue (by rw [hconnection]; exact listened.read)]
    obtain ⟨horder, hlater⟩ := hx.closes ha hb listened turn hconnection hcalls
    exact ⟨horder, _, hlater⟩

end SuggestBridge.Exchange
