import SuggestBridge.Proofs.Peer.Run

/-!
# What a job does

One task has its turn: a call begins, goes on or ends, or the listener treats what has arrived
(`Work`).  Whatever is proved about the steps of a run is proved for these cases
(`work_of_step?`), and no other proof looks into the routines.
-/

namespace SuggestBridge.Exchange

open Peer (outcomesOf settlements History)
open Connection (Begun Went Listened CallProgress)
open SuggestBridge.Task (Outcome Progress)
open SuggestBridge.Task.Kernel (Running Turn)

/-! ## The cases -/

/-- How far the task of a call came. -/
def callTurn : CallProgress → Progress Routine Sexp Failure
  | .waits state future => .waits (.calling state) future
  | .ends o => .ends o

/-- What the next job does: some task has its turn. -/
inductive Work (x : Exchange) (limit : Float) (y : Exchange) : Prop
  /-- The task was cancelled before it began. -/
  | cancelled {t a b} (activity : x.kernel.activity? t = some a) (body : a.body = some b)
    (idle : a.waitingFor = none) (asked : a.mustCancel = true)
    (turn : Turn x.kernel y.kernel t 0 [] (.ends .cancelled))
    (issue : ∀ n, x.issue? limit n = none)
    (connection : y.connection = x.connection) (calls : y.calls = x.calls)
  /-- A call begins. -/
  | call {t a method args d es progress closes} (activity : x.kernel.activity? t = some a)
    (body : a.body = some (.call method args))
    (begun : Begun x.connection x.kernel.isDone x.kernel.futures.size (x.kernel.futures.size + 1) d
      es progress)
    (turn : Turn x.kernel y.kernel t 2 (outcomesOf es) (callTurn progress))
    (issue : ∀ n, x.issue? limit n =
      if x.connection.peer.closed then none
      else some ⟨t, x.connection.peer.nextUid, x.kernel.futures.size, n⟩)
    (connection : y.connection = { d with closes }) (calls : y.calls = x.calls)
    (fault : d.peer.closed ≠ x.connection.peer.closed → ∃ f : Fault,
      (x.connection.writeFault = some f ∨ x.connection.drainFault = some f) ∧ f.isSystem = true)
    (left : ∀ o, progress = .ends o → d.peer.closed = true ∨
      d.peer.pending = x.connection.peer.pending ∨
        ∃ f : Fault, f.isSystem = false ∧ o = .failure (.fault f))
  /-- A call that waited for its reply ends. -/
  | answered {t a uid future o} (activity : x.kernel.activity? t = some a)
    (body : a.body = some (.calling (.awaiting uid future)))
    (settled : x.kernel.outcome? future = some o)
    (turn : Turn x.kernel y.kernel t 0 [] (.ends (if a.mustCancel then .cancelled else o)))
    (issue : ∀ n, x.issue? limit n = none)
    (connection : y.connection =
      { x.connection with peer := x.connection.peer.forget uid }) (calls : y.calls = x.calls)
  /-- A call that waited for the write buffer to drain goes on. -/
  | drained {t a uid future d es progress closes} (activity : x.kernel.activity? t = some a)
    (body : a.body = some (.calling (.draining uid future)))
    (told : ∃ g o, a.waitingFor = some g ∧ x.kernel.outcome? g = some o)
    (went : Went x.connection x.kernel.isDone uid future none d es progress)
    (turn : Turn x.kernel y.kernel t 0 (outcomesOf es) (callTurn progress))
    (issue : ∀ n, x.issue? limit n = none)
    (connection : y.connection = { d with closes }) (calls : y.calls = x.calls)
    (fault : d.peer.closed ≠ x.connection.peer.closed → ∃ g f, a.waitingFor = some g ∧
      x.kernel.outcome? g = some (.failure (.fault f)) ∧ f.isSystem = true)
    (left : ∀ o, progress = .ends o → d.peer.closed = true ∨ o = .cancelled ∨
      ∃ g, a.waitingFor = some g ∧ x.kernel.outcome? g = some o)
  /-- A call whose reply came while it waited for the write buffer to drain ends. -/
  | late {t a uid future o closes} (activity : x.kernel.activity? t = some a)
    (body : a.body = some (.calling (.draining uid future)))
    (told : ∃ g o, a.waitingFor = some g ∧ x.kernel.outcome? g = some o)
    (settled : x.kernel.outcome? future = some o) (turn : Turn x.kernel y.kernel t 0 [] (.ends o))
    (issue : ∀ n, x.issue? limit n = none)
    (connection : y.connection =
      { x.connection with peer := x.connection.peer.forget uid, closes })
    (calls : y.calls = x.calls)
  /-- The listener has treated what was there and waits for more. -/
  | listens {t a bytes done rejection d es closes} (activity : x.kernel.activity? t = some a)
    (body : a.body = some .listen)
    (listened : Listened x.connection d x.kernel.isDone bytes done rejection es .blocked)
    (told : ∀ w, a.waitingFor = some w → ∃ o, x.kernel.outcome? w = some o)
    (turn : Turn x.kernel y.kernel t 1 (outcomesOf es) (.waits .listen x.kernel.futures.size))
    (issue : ∀ n, x.issue? limit n = none)
    (connection : y.connection =
      { d with closes, incoming := { d.incoming with waiter := some x.kernel.futures.size } })
    (calls : y.calls = x.calls)
  /-- The listener has found the connection over. -/
  | closes {t a bytes done rejection d es cause closes} (activity : x.kernel.activity? t = some a)
    (body : a.body = some .listen)
    (listened : Listened x.connection d x.kernel.isDone bytes done rejection es (.ended cause))
    (told : ∀ w, a.waitingFor = some w → ∃ o, x.kernel.outcome? w = some o)
    (why : a.mustCancel = true ∨
      (∃ w o, a.waitingFor = some w ∧ x.kernel.outcome? w = some o ∧ ∀ v, o ≠ .value v) ∨
      x.connection.Over bytes ∧
        (a.waitingFor = none → x.connection.incoming.readiness ≠ .blocked))
    (turn : Turn x.kernel y.kernel t 0 (outcomesOf es) (.ends (.value .nil)))
    (issue : ∀ n, x.issue? limit n = none)
    (connection : y.connection = { d with closes }) (calls : y.calls = x.calls)

/-! ## Effects -/

lemma applyAll_eq (x : Exchange) (c : Connection NamedCallback)
    (es : List (Peer.Effect NamedCallback)) :
    (∃ closes, (x.applyAll c es).connection = { c with closes }) ∧
      (x.applyAll c es).kernel = (outcomesOf es).foldl (fun k p => k.settle p.1 p.2) x.kernel ∧
      (x.applyAll c es).calls = x.calls := by
  rw [applyAll]
  have hall : ∀ z : Exchange,
      (∃ closes, (es.foldl apply z).connection = { z.connection with closes }) ∧
        (es.foldl apply z).kernel = (outcomesOf es).foldl (fun k p => k.settle p.1 p.2) z.kernel ∧
        (es.foldl apply z).calls = z.calls := by
    induction es with
    | nil => exact fun z => ⟨⟨z.connection.closes, rfl⟩, rfl, rfl⟩
    | cons e es ih =>
      intro z
      obtain ⟨⟨closes, hconnection⟩, hkernel, hcalls⟩ := ih (z.apply e)
      rw [List.foldl_cons, hconnection, hkernel, hcalls]
      cases e with
      | callback k =>
        obtain ⟨name, raises⟩ := k
        cases raises <;> exact ⟨⟨closes, rfl⟩, rfl, rfl⟩
      | _ => exact ⟨⟨closes, rfl⟩, rfl, rfl⟩
  exact hall { x with connection := c }

/-- A running task makes effects happen. -/
lemma running_applyAll {x : Exchange} {k : Task.Kernel Routine Empty Sexp Failure} {t : Task.Id}
    {made : Nat} (h : Running k x.kernel t made []) (c : Connection NamedCallback)
    {es : List (Peer.Effect NamedCallback)}
    (hplain : ∀ f r, (f, r) ∈ settlements es →
      f < x.kernel.futures.size ∧ x.kernel.activity? f = none) :
    Running k (x.applyAll c es).kernel t made (outcomesOf es) := by
  rw [(applyAll_eq x c es).2.1]
  refine h.settleAll (outcomesOf es) fun p hp => ?_
  obtain ⟨⟨f, r⟩, hmem, rfl⟩ := List.mem_map.1 hp
  exact hplain f r hmem

/-- A running task that settled nothing sees what was settled before. -/
lemma isDone_of_running {k k' : Task.Kernel Routine Empty Sexp Failure} {t : Task.Id} {made : Nat}
    (h : Running k k' t made []) : k'.isDone = k.isDone := by
  funext u
  rw [Task.Kernel.isDone, Task.Kernel.isDone, h.outcome, List.lookup_nil, Option.or_none]

/-! ## Turns of calls -/

variable {x z : Exchange} {h : History} {k : Task.Kernel Routine Empty Sexp Failure} {t : Task.Id}
  {made : Nat} {os : List (Task.Id × Outcome Sexp Failure)}

/-- A call that runs ends or waits for what is open. -/
lemma turn_follow (hrun : Running k z.kernel t made os) {progress : CallProgress}
    (hwaits : ∀ state g, progress = .waits state g → g < z.kernel.futures.size ∧
      ((∃ uid future, state = .draining uid future) ∨ z.kernel.outcome? g = none)) :
    Turn k (z.follow t progress).kernel t made os (callTurn progress) ∧
      (z.follow t progress).connection = z.connection ∧
      (z.follow t progress).calls = z.calls := by
  cases progress with
  | ends o => exact ⟨hrun.ends o, rfl, rfl⟩
  | waits state g =>
    obtain ⟨hg, hstate⟩ := hwaits state g rfl
    have hfollow : z.follow t (.waits state g) =
        { z with kernel := z.kernel.suspend t (.calling state) g } := by
      rcases hstate with ⟨uid, future, rfl⟩ | hnone
      · unfold follow
        simp
      · simp only [follow, hnone]
    rw [hfollow]
    exact ⟨hrun.waits (.calling state) hg, rfl, rfl⟩

/-- A call whose future is settled already does not wait for it. -/
lemma turn_follow_late (hrun : Running k z.kernel t made []) {uid : Nat} {future : Task.Id}
    {o : Outcome Sexp Failure} (ho : z.kernel.outcome? future = some o) :
    Turn k (z.follow t (.waits (.awaiting uid future) future)).kernel t made [] (.ends o) ∧
      (z.follow t (.waits (.awaiting uid future) future)).connection =
        { z.connection with peer := z.connection.peer.forget uid } ∧
      (z.follow t (.waits (.awaiting uid future) future)).calls = z.calls := by
  have hfollow : z.follow t (.waits (.awaiting uid future) future) =
      { z with
        kernel := z.kernel.finish t o
        connection := { z.connection with peer := z.connection.peer.forget uid } } := by
    simp only [follow, ho]
    rfl
  rw [hfollow]
  exact ⟨hrun.ends o, rfl, rfl⟩

/-- Whatever a call settles was waited for. -/
lemma mem_pending_of_went {c d : Connection NamedCallback} {isDone : Task.Id → Bool} {uid : Nat}
    {future : Task.Id} {drained : Option Task.Id} {es : List (Peer.Effect NamedCallback)}
    {progress : CallProgress} (hwent : Went c isDone uid future drained d es progress)
    {f : Task.Id} {r : Except Failure Sexp} (hmem : (f, r) ∈ settlements es) :
    ∃ p ∈ c.peer.pending, p.future = f := by
  cases hwent with
  | awaits hes => simp [hes] at hmem
  | drains hes => simp [hes] at hmem
  | leaves hes => simp [hes] at hmem
  | breaks handled =>
    obtain ⟨p, hp, hf, -⟩ := (handled.settled f r).1 hmem
    exact ⟨p, List.mem_of_mem_filter hp, hf⟩

/-- A call that begins. -/
lemma work_begin_call (hx : Orderly x h) {limit : Float}
    {k : Task.Kernel Routine Empty Sexp Failure} {a : Task.Activity Routine} {method : Text} {args : List Sexp}
    (ha : x.kernel.activity? t = some a) (hb : a.body = some (.call method args))
    (hnext : x.kernel.next? limit = some (k, .begin t (.call method args)))
    (hrun : Running x.kernel k t 0 []) :
    Work x limit (begin { x with kernel := k } t (.call method args)) := by
  have hsize : k.futures.size = x.kernel.futures.size := hrun.size
  have hrun₂ : Running x.kernel k.fresh.1.fresh.1 t 2 [] := hrun.fresh.fresh
  have hfuture : ∀ c ∈ x.connection.peer.pending, c.future ≠ x.kernel.futures.size := by
    intro c hc
    exact Nat.ne_of_lt (hx.pending_plain c hc).1
  have hbegun := Connection.begun_beginCall hx.ledger.distinct hx.ledger.pending_uid_lt hfuture
    x.kernel.isDone k.fresh.1.fresh.1.now (x.kernel.futures.size + 1) method args
  have hfault := @Connection.fault_of_beginCall _ x.kernel.isDone x.connection
    k.fresh.1.fresh.1.now x.kernel.futures.size (x.kernel.futures.size + 1) method args
  have hleft := fun o => @Connection.left_beginCall _ x.kernel.isDone x.connection
    k.fresh.1.fresh.1.now x.kernel.futures.size (x.kernel.futures.size + 1) method args o
  have hbegin : begin { x with kernel := k } t (.call method args) =
      let r := x.connection.beginCall k.fresh.1.fresh.1.isDone k.fresh.1.fresh.1.now k.futures.size
        k.fresh.1.futures.size method args
      (applyAll { x with kernel := k.fresh.1.fresh.1 } r.1 r.2.1).follow t r.2.2 := rfl
  have hsize₁ : k.fresh.1.futures.size = x.kernel.futures.size + 1 := hrun.fresh.size
  rw [hbegin, isDone_of_running hrun₂, hsize, hsize₁]
  revert hbegun hfault hleft
  generalize x.connection.beginCall x.kernel.isDone k.fresh.1.fresh.1.now x.kernel.futures.size
    (x.kernel.futures.size + 1) method args = r
  obtain ⟨d, es, progress⟩ := r
  intro hbegun hfault hleft
  dsimp only at hbegun hfault hleft ⊢
  obtain ⟨⟨closes, hconnection⟩, -, hcalls⟩ :=
    applyAll_eq { x with kernel := k.fresh.1.fresh.1 } d es
  have hunknown := Task.Kernel.views_of_size_le (Nat.le_refl x.kernel.futures.size)
  have hplain : ∀ f r, (f, r) ∈ settlements es →
      f < k.fresh.1.fresh.1.futures.size ∧ k.fresh.1.fresh.1.activity? f = none := by
    intro f r hmem
    have hold : f < x.kernel.futures.size + 2 ∧ x.kernel.activity? f = none := by
      cases hbegun with
      | refused => exact absurd hmem List.not_mem_nil
      | unsendable => exact absurd hmem List.not_mem_nil
      | issued _ went =>
        obtain ⟨p, hp, rfl⟩ := mem_pending_of_went went hmem
        rcases List.mem_append.1 hp with hp | hp
        · obtain ⟨hlt, hnone⟩ := hx.pending_plain p hp
          exact ⟨Nat.lt_add_right 2 hlt, hnone⟩
        · rw [List.mem_singleton.1 hp]
          exact ⟨Nat.lt_add_of_pos_right Nat.two_pos, hunknown.2.1⟩
    exact hrun₂.plain ha hold
  have hrunning := @running_applyAll { x with kernel := k.fresh.1.fresh.1 } _ _ _ hrun₂ d es hplain
  have hwaits : ∀ state g, progress = .waits state g →
      g < (applyAll { x with kernel := k.fresh.1.fresh.1 } d es).kernel.futures.size ∧
        ((∃ uid future, state = .draining uid future) ∨
          (applyAll { x with kernel := k.fresh.1.fresh.1 } d es).kernel.outcome? g = none) := by
    rintro state g rfl
    rw [hrunning.size]
    cases hbegun with
    | issued _ went =>
      cases went with
      | awaits hes =>
        refine ⟨Nat.lt_add_of_pos_right Nat.two_pos, .inr ?_⟩
        rw [hrunning.outcome, hunknown.1, Option.none_or, outcomesOf, hes]
        rfl
      | drains hes hd =>
        cases hd
        exact ⟨Nat.lt_succ_self _, .inl ⟨_, _, rfl⟩⟩
  obtain ⟨hturn, hconnection', hcalls'⟩ := turn_follow hrunning hwaits
  exact .call ha hb hbegun hturn (fun n => by rw [issue?, hnext]) (hconnection'.trans hconnection)
    (hcalls'.trans hcalls) hfault hleft

/-- A call that waited for its reply goes on. -/
lemma work_resume_awaiting {limit : Float} {k : Task.Kernel Routine Empty Sexp Failure}
    {a : Task.Activity Routine} {uid : Nat} {future : Task.Id} {o : Outcome Sexp Failure}
    (ha : x.kernel.activity? t = some a) (hb : a.body = some (.calling (.awaiting uid future)))
    (ho : x.kernel.outcome? future = some o) (hissue : ∀ n, x.issue? limit n = none)
    (hrun : Running x.kernel k t 0 []) :
    Work x limit (resume { x with kernel := k } t (.calling (.awaiting uid future))
      (if a.mustCancel then .cancelled else o)) :=
  .answered ha hb ho (hrun.ends _) hissue rfl rfl

/-- A call that waited for the write buffer to drain goes on. -/
lemma work_resume_draining (hx : Orderly x h) {limit : Float}
    {k : Task.Kernel Routine Empty Sexp Failure} {a : Task.Activity Routine} {uid : Nat}
    {future g : Task.Id} {o : Outcome Sexp Failure} (ha : x.kernel.activity? t = some a)
    (hb : a.body = some (.calling (.draining uid future))) (hg : a.waitingFor = some g)
    (ho : x.kernel.outcome? g = some o) (hissue : ∀ n, x.issue? limit n = none)
    (hrun : Running x.kernel k t 0 []) :
    Work x limit (resume { x with kernel := k } t (.calling (.draining uid future))
      (if a.mustCancel then .cancelled else o)) := by
  have htold : ∃ g o, a.waitingFor = some g ∧ x.kernel.outcome? g = some o := ⟨g, o, hg, ho⟩
  generalize hinput : (if a.mustCancel then Outcome.cancelled else o) = input
  have hfault : (x.connection.resumeCall x.kernel.isDone (.draining uid future)
        input).1.peer.closed ≠ x.connection.peer.closed → ∃ g f, a.waitingFor = some g ∧
      x.kernel.outcome? g = some (.failure (.fault f)) ∧ f.isSystem = true := by
    intro hclosed
    obtain ⟨f, rfl, hf⟩ := Connection.fault_of_resumeCall hclosed
    split at hinput
    · cases hinput
    · exact ⟨g, f, hg, hinput ▸ ho, hf⟩
  have hleft : ∀ o', (x.connection.resumeCall x.kernel.isDone (.draining uid future)
        input).2.2 = .ends o' →
      (x.connection.resumeCall x.kernel.isDone (.draining uid future) input).1.peer.closed = true ∨
        o' = .cancelled ∨ ∃ g, a.waitingFor = some g ∧ x.kernel.outcome? g = some o' := by
    refine fun o' ho' => (Connection.left_resumeCall ho').imp_right fun heq => ?_
    subst heq
    split at hinput
    · exact .inl hinput.symm
    · exact .inr ⟨g, hg, hinput ▸ ho⟩
  have hwent := Connection.went_resumeCall hx.ledger.distinct hx.ledger.closed x.kernel.isDone uid
    future input
  have hresume : resume { x with kernel := k } t (.calling (.draining uid future)) input =
      let r := x.connection.resumeCall k.isDone (.draining uid future) input
      (applyAll { x with kernel := k } r.1 r.2.1).follow t r.2.2 := rfl
  rw [hresume, isDone_of_running hrun]
  revert hwent hfault hleft
  generalize x.connection.resumeCall x.kernel.isDone (.draining uid future) input = r
  obtain ⟨d, es, progress⟩ := r
  intro hfault hleft hwent
  dsimp only at hwent hfault hleft ⊢
  obtain ⟨⟨closes, hconnection⟩, -, hcalls⟩ := applyAll_eq { x with kernel := k } d es
  have hplain : ∀ f r, (f, r) ∈ settlements es → f < k.futures.size ∧ k.activity? f = none := by
    intro f r hmem
    obtain ⟨p, hp, rfl⟩ := mem_pending_of_went hwent hmem
    exact hrun.plain ha (hx.pending_plain p hp)
  have hrunning := @running_applyAll { x with kernel := k } _ _ _ hrun d es hplain
  have hmakes : future < x.kernel.futures.size := by
    obtain ⟨-, ⟨i, hi, -, -, rfl⟩, -⟩ := hx.placed ha hb
    exact (hx.futures i hi).1
  cases hwent with
  | awaits hes =>
    have hnone : outcomesOf es = [] := by rw [outcomesOf, hes]; rfl
    rw [hnone] at hrunning
    cases ho : (applyAll { x with kernel := k } x.connection es).kernel.outcome? future with
    | none =>
      obtain ⟨hturn, hconnection', hcalls'⟩ :=
        @turn_follow _ _ _ _ _ hrunning (.waits (.awaiting uid future) future) (by
          rintro _ _ ⟨⟩
          exact ⟨hrunning.size ▸ hmakes, .inr ho⟩)
      exact .drained ha hb htold (.awaits hes) (hnone ▸ hturn) hissue
        (hconnection'.trans hconnection) (hcalls'.trans hcalls) hfault hleft
    | some o =>
      obtain ⟨hturn, hconnection', hcalls'⟩ := @turn_follow_late _ _ _ _ hrunning uid future o ho
      rw [hrunning.outcome, List.lookup_nil, Option.or_none] at ho
      exact .late ha hb htold ho hturn hissue (hconnection'.trans (by rw [hconnection]))
        (hcalls'.trans hcalls)
  | drains hes hd => cases hd
  | leaves hes hvalue =>
    obtain ⟨hturn, hconnection', hcalls'⟩ := @turn_follow _ _ _ _ _ hrunning (.ends _) nofun
    exact .drained ha hb htold (.leaves hes hvalue) hturn hissue (hconnection'.trans hconnection)
      (hcalls'.trans hcalls) hfault hleft
  | breaks handled closed buffer =>
    obtain ⟨hturn, hconnection', hcalls'⟩ := @turn_follow _ _ _ _ _ hrunning (.ends _) nofun
    exact .drained ha hb htold (.breaks handled closed buffer) hturn hissue
      (hconnection'.trans hconnection) (hcalls'.trans hcalls) hfault hleft

/-! ## Turns of the listener -/

/-- The listener has had its turn. -/
lemma work_pause (hx : Orderly x h) {limit : Float} {k : Task.Kernel Routine Empty Sexp Failure}
    {a : Task.Activity Routine} (ha : x.kernel.activity? t = some a) (hb : a.body = some .listen)
    (hissue : ∀ n, x.issue? limit n = none) (hrun : Running x.kernel k t 0 [])
    {r : Connection NamedCallback × List (Peer.Effect NamedCallback) × Connection.Pause}
    {bytes : Bytes} {done : List Text} {rejection : Option Failure}
    (hlistened : Listened x.connection r.1 x.kernel.isDone bytes done rejection r.2.1 r.2.2)
    (htold : ∀ w, a.waitingFor = some w → ∃ o, x.kernel.outcome? w = some o)
    (hwhy : r.2.2 ≠ .blocked → a.mustCancel = true ∨
      (∃ w o, a.waitingFor = some w ∧ x.kernel.outcome? w = some o ∧ ∀ v, o ≠ .value v) ∨
      x.connection.Over bytes ∧
        (a.waitingFor = none → x.connection.incoming.readiness ≠ .blocked)) :
    Work x limit (pause { x with kernel := k } t r) := by
  obtain ⟨d, es, why⟩ := r
  dsimp only at hlistened hwhy
  have hplain : ∀ f r, (f, r) ∈ settlements es → f < k.futures.size ∧ k.activity? f = none := by
    intro f r hmem
    obtain ⟨p, hp, rfl, -⟩ := (hlistened.handled.settled f r).1 hmem
    exact hrun.plain ha (hx.pending_plain p hp)
  have hrunning := @running_applyAll { x with kernel := k } _ _ _ hrun d es hplain
  obtain ⟨⟨closes, hconnection⟩, -, hcalls⟩ := applyAll_eq { x with kernel := k } d es
  generalize hz : applyAll { x with kernel := k } d es = z at hrunning hconnection hcalls
  have hsize : z.kernel.futures.size = x.kernel.futures.size := hrunning.size
  cases why with
  | ended cause =>
    have hpause : pause { x with kernel := k } t (d, es, .ended cause) =
        { z with kernel := z.kernel.finish t (.value .nil) } := by
      rw [pause, hz]
    rw [hpause]
    exact .closes ha hb hlistened htold (hwhy nofun) (hrunning.ends (.value .nil)) hissue
      hconnection hcalls
  | blocked =>
    have hpause : pause { x with kernel := k } t (d, es, .blocked) =
        { z with
          kernel := z.kernel.fresh.1.suspend t .listen x.kernel.futures.size
          connection := { z.connection with
            incoming :=
              { z.connection.incoming with waiter := some x.kernel.futures.size } } } := by
      rw [pause, hz, ← hsize]
      rfl
    have hwaiter : { z.connection with
          incoming := { z.connection.incoming with waiter := some x.kernel.futures.size } } =
        { d with
          closes, incoming := { d.incoming with waiter := some x.kernel.futures.size } } := by
      rw [hconnection]
    rw [hpause]
    refine .listens ha hb hlistened htold (hrunning.fresh.waits .listen ?_) hissue hwaiter hcalls
    rw [hrunning.fresh.size]
    exact Nat.lt_succ_self _

/-- The listener begins. -/
lemma work_begin_listen (hx : Orderly x h) {limit : Float}
    {k : Task.Kernel Routine Empty Sexp Failure} {a : Task.Activity Routine}
    (ha : x.kernel.activity? t = some a) (hb : a.body = some .listen)
    (hidle : a.waitingFor = none) (hissue : ∀ n, x.issue? limit n = none)
    (hrun : Running x.kernel k t 0 []) :
    Work x limit (begin { x with kernel := k } t .listen) := by
  obtain ⟨-, -, hdrain, -⟩ := hx.placed ha hb
  have hfront : Frame.front x.connection.peer.buffer = .incomplete := by
    obtain ⟨-, -, -, hfront⟩ := Frame.drain_eq_ok_iff.1 hdrain
    exact hfront
  obtain ⟨bytes, done, rejection, hlistened, hover⟩ := Connection.listened_beginListening
    hx.ledger.distinct hx.ledger.closed hfront x.kernel.isDone k.now
  have hbegin : begin { x with kernel := k } t .listen = pause { x with kernel := k } t
      (x.connection.beginListening x.kernel.isDone k.now) := by
    rw [← isDone_of_running hrun]
    rfl
  rw [hbegin]
  exact work_pause hx ha hb hissue hrun hlistened (fun w hw => by simp [hidle] at hw)
    fun hpause => .inr (.inr ⟨(hover hpause).1, fun _ => (hover hpause).2⟩)

/-- The listener goes on. -/
lemma work_resume_listen (hx : Orderly x h) {limit : Float}
    {k : Task.Kernel Routine Empty Sexp Failure} {a : Task.Activity Routine} {w : Task.Id}
    {o : Outcome Sexp Failure} (ha : x.kernel.activity? t = some a) (hb : a.body = some .listen)
    (hw : a.waitingFor = some w) (ho : x.kernel.outcome? w = some o)
    (hissue : ∀ n, x.issue? limit n = none) (hrun : Running x.kernel k t 0 []) :
    Work x limit (resume { x with kernel := k } t .listen
      (if a.mustCancel then .cancelled else o)) := by
  obtain ⟨bytes, done, rejection, hlistened, hover⟩ := Connection.listened_resumeListening
    hx.ledger.distinct hx.ledger.closed x.kernel.isDone k.now
    (if a.mustCancel then .cancelled else o)
  have hresume : resume { x with kernel := k } t .listen (if a.mustCancel then .cancelled else o) =
      pause { x with kernel := k } t (x.connection.resumeListening x.kernel.isDone k.now
        (if a.mustCancel then .cancelled else o)) := by
    rw [← isDone_of_running hrun]
    rfl
  rw [hresume]
  refine work_pause hx ha hb hissue hrun hlistened (fun v hv => ⟨o, ?_⟩) fun hpause => ?_
  · rw [hw] at hv
    cases hv
    exact ho
  rcases hover hpause with hvalue | hover
  · cases hcancel : a.mustCancel with
    | true => exact .inl rfl
    | false =>
      rw [hcancel] at hvalue
      exact .inr (.inl ⟨w, o, hw, ho, hvalue⟩)
  · exact .inr (.inr ⟨hover, fun hidle => by simp [hw] at hidle⟩)

/-! ## The next job -/

/-- Every job is the turn of one task. -/
theorem work_of_step? (hx : Orderly x h) {limit : Float} {y : Exchange}
    (hstep : x.step? limit = some y) : Work x limit y := by
  obtain ⟨n, hnext⟩ := Task.Kernel.next?_eq hx.tasksOnly.timers limit
  cases hready : x.kernel.ready with
  | nil => simp [step?, hnext, hready] at hstep
  | cons job rest =>
    rw [hready] at hnext
    dsimp only at hnext
    obtain ⟨t, rfl | ⟨g, rfl⟩⟩ := hx.tasksOnly.jobs job (by simp [hready])
    · obtain ⟨a, b, ha, hb, hidle, ⟨hasked, hperform, hrun⟩ | ⟨k, hperform, htaken⟩⟩ :=
        Task.Kernel.perform_start hx.waking hready n
      · rw [hperform] at hnext
        simp only [step?, hnext, Option.some.injEq] at hstep
        subst hstep
        exact .cancelled ha hb hidle hasked
          (Task.Kernel.turn_of_cancelled hx.waking hx.tasksOnly hready hrun)
          (fun n => by rw [issue?, hnext]) rfl rfl
      · rw [hperform] at hnext
        simp only [step?, hnext, Option.some.injEq] at hstep
        subst hstep
        have hrun := Running.of_taken hready hx.tasksOnly htaken
        have hplaced := hx.placed ha hb
        cases b with
        | call method args => exact work_begin_call hx ha hb hnext hrun
        | calling state =>
          -- a call that waits is woken, not begun
          cases state with
          | awaiting uid future => simp [hplaced.1] at hidle
          | draining uid future =>
            obtain ⟨⟨d, hd, -⟩, -⟩ := hplaced
            simp [hd] at hidle
        | listen => exact work_begin_listen hx ha hb hidle (fun n => by rw [issue?, hnext]) hrun
    · obtain ⟨a, b, o, k, ha, hb, hg, ho, hperform, htaken⟩ :=
        Task.Kernel.perform_notify_wake hx.waking hready n
      rw [hperform] at hnext
      have hissue : ∀ n, x.issue? limit n = none := fun n => by rw [issue?, hnext]
      simp only [step?, hnext, Option.some.injEq] at hstep
      subst hstep
      have hrun := Running.of_taken hready hx.tasksOnly htaken
      have hplaced := hx.placed ha hb
      cases b with
      | call method args => simp [hplaced.1] at hg
      | calling state =>
        cases state with
        | awaiting uid future =>
          rw [hplaced.1] at hg
          cases hg
          exact work_resume_awaiting ha hb ho hissue hrun
        | draining uid future => exact work_resume_draining hx ha hb hg ho hissue hrun
      | listen => exact work_resume_listen hx ha hb hg ho hissue hrun

end SuggestBridge.Exchange
