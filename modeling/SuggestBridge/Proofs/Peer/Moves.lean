import SuggestBridge.Proofs.Peer.Events

/-!
# What all jobs have in common

Whatever a job does, one task has its turn (`Orderly.moves`): what it waited for has come, it settles
nothing but futures of calls, and only the listener touches the stream of incoming bytes.  What
holds of a run because of that alone needs no look at the seven kinds of jobs.
-/

namespace SuggestBridge.Exchange

open Peer (History outcomesOf settlements)
open Connection (Begun Went Listened)
open SuggestBridge.Task (Outcome Progress)
open SuggestBridge.Task.Kernel (Turn)

variable {x y : Exchange} {h : History} {t : Task.Id} {a : Task.Activity Routine} {made : Nat}
  {os : List (Task.Id × Outcome Sexp Failure)} {progress : Progress Routine Sexp Failure}

/-! ## What a turn settles -/

/-- What a peer settles are the futures of calls. -/
lemma Orderly.future_of_lookup (hx : Orderly x h) {q : Peer NamedCallback}
    {isDone : Task.Id → Bool} {verdict : Nat → Option (Except Failure Sexp)}
    {es : List (Peer.Effect NamedCallback)}
    (hhandled : Peer.Handled x.connection.peer q isDone verdict es) {g : Task.Id}
    {o : Outcome Sexp Failure} (ho : (outcomesOf es).lookup g = some o) :
    (∃ i ∈ h.issues, i.future = g) ∧ ∃ r, o = .ofExcept r := by
  obtain ⟨r, hmem, hr⟩ := Peer.mem_settlements_of_lookup ho
  obtain ⟨c, hc, hg, -⟩ := (hhandled.settled g r).1 hmem
  obtain ⟨i, hi, -, hfuture, -⟩ := hx.ledger.entries c hc
  exact ⟨⟨i, hi, hfuture.trans hg⟩, r, hr⟩

/-- No peer settles a future that is not that of a call. -/
lemma Orderly.lookup_eq_none (hx : Orderly x h) {q : Peer NamedCallback}
    {isDone : Task.Id → Bool} {verdict : Nat → Option (Except Failure Sexp)}
    {es : List (Peer.Effect NamedCallback)}
    (hhandled : Peer.Handled x.connection.peer q isDone verdict es) {g : Task.Id}
    (hg : ∀ i ∈ h.issues, i.future ≠ g) : (outcomesOf es).lookup g = none := by
  cases ho : (outcomesOf es).lookup g with
  | none => rfl
  | some o =>
    obtain ⟨⟨i, hi, heq⟩, -⟩ := hx.future_of_lookup hhandled ho
    exact absurd heq (hg i hi)

/-- A turn changes the outcome of a future that is no task only by settling it. -/
lemma outcome_of_plain (turn : Turn x.kernel y.kernel t made os progress)
    (ha : x.kernel.activity? t = some a) {g : Task.Id} (hg : x.kernel.activity? g = none) :
    y.kernel.outcome? g = (x.kernel.outcome? g).or (os.lookup g) :=
  turn.outcome g fun heq => by simp [← heq, hg] at ha

/-- A listener that has treated what was there waits for what is open. -/
lemma Orderly.waits_for_bytes (hx : Orderly x h) {new : Bytes} {done : List Text}
    {rejection : Option Failure} {c : Connection NamedCallback}
    {es : List (Peer.Effect NamedCallback)} {pause : Connection.Pause}
    (ha : x.kernel.activity? t = some a)
    (listened : Listened x.connection c x.kernel.isDone new done rejection es pause)
    (turn : Turn x.kernel y.kernel t made (outcomesOf es) progress) :
    y.kernel.outcome? x.kernel.futures.size = none := by
  obtain ⟨hnone, hplain, -⟩ :=
    Task.Kernel.views_of_size_le (Nat.le_refl x.kernel.futures.size)
  rw [outcome_of_plain turn ha hplain, hnone, Option.none_or]
  exact hx.lookup_eq_none listened.handled fun i hi => Nat.ne_of_lt (hx.futures i hi).1

/-! ## Turns -/

/-- A task has its turn. -/
structure Moves (x : Exchange) (h : History) (y : Exchange) (t : Task.Id)
    (a : Task.Activity Routine) (made : Nat) (os : List (Task.Id × Outcome Sexp Failure))
    (progress : Progress Routine Sexp Failure) : Prop where
  activity : x.kernel.activity? t = some a
  turn : Turn x.kernel y.kernel t made os progress
  /-- What it waited for has come. -/
  told : ∀ g, a.waitingFor = some g → ∃ o, x.kernel.outcome? g = some o
  /-- It settles nothing but futures of calls. -/
  settles : ∀ f o, (f, o) ∈ os → (∃ r, o = .ofExcept r) ∧
    (x.kernel.futures.size ≤ f ∨ ∃ i ∈ h.issues, i.future = f)
  /-- What it waits for from now on is open, unless it is a reply. -/
  waits : ∀ b g, progress = .waits b g → (∃ uid future, b = .calling (.awaiting uid future)) ∨
    (b = .listen ∨ ∃ uid future, b = .calling (.draining uid future)) ∧
      y.kernel.outcome? g = none
  /-- A call that waits for its reply ends as its future was settled, unless it is given up. -/
  answers : ∀ uid future, a.body = some (.calling (.awaiting uid future)) →
    ∃ o, x.kernel.outcome? future = some o ∧
      progress = .ends (if a.mustCancel then .cancelled else o)
  /-- Only the listener takes bytes from the stream. -/
  incoming : a.body ≠ some .listen → y.connection.incoming = x.connection.incoming
  reads : ∃ bytes, x.connection.incoming.buffer = bytes ++ y.connection.incoming.buffer
  stream : y.connection.incoming.ended = x.connection.incoming.ended ∧
    y.connection.incoming.failure = x.connection.incoming.failure
  faults : y.connection.writeFault = x.connection.writeFault ∧
    y.connection.drainFault = x.connection.drainFault

namespace Moves

/-- A turn leaves alone what is neither a task nor the future of a call. -/
lemma outcome_spare (m : Moves x h y t a made os progress) {g : Task.Id} (hg : x.Spare h g) :
    y.kernel.outcome? g = x.kernel.outcome? g := by
  obtain ⟨hlt, hplain, hfuture⟩ := hg
  have hlookup : os.lookup g = none := by
    rw [List.lookup_eq_none_iff]
    rintro ⟨f, o⟩ hp
    rcases (m.settles f o hp).2 with hle | ⟨i, hi, rfl⟩
    · simpa using Nat.ne_of_lt (Nat.lt_of_lt_of_le hlt hle)
    · simpa using (hfuture i hi).symm
  rw [outcome_of_plain m.turn m.activity hplain, hlookup, Option.or_none]

/-- A turn settles a future of a call with a result. -/
lemma outcome_future (m : Moves x h y t a made os progress) {f : Task.Id}
    (hf : x.kernel.activity? f = none) (hopen : x.kernel.outcome? f = none)
    {o : Outcome Sexp Failure} (ho : y.kernel.outcome? f = some o) : ∃ r, o = .ofExcept r := by
  rw [outcome_of_plain m.turn m.activity hf, hopen, Option.none_or] at ho
  exact (m.settles f o (Task.Kernel.mem_of_lookup ho)).1

/-- Whoever waits for what is open is left as it is. -/
lemma other (m : Moves x h y t a made os progress) {u g : Task.Id} {b : Task.Activity Routine}
    (hb : x.kernel.activity? u = some b) (hg : b.waitingFor = some g)
    (hopen : x.kernel.outcome? g = none) : y.kernel.activity? u = some b := by
  have hne : u ≠ t := by
    rintro rfl
    cases hb.symm.trans m.activity
    obtain ⟨o, ho⟩ := m.told g hg
    simp [hopen] at ho
  rw [m.turn.other u hne, hb]

/-- Whoever waits after a turn, for what has come and not for a reply, was left as it was. -/
lemma other_of_settled (m : Moves x h y t a made os progress) {u g : Task.Id}
    {b : Task.Activity Routine} {r : Routine} {o : Outcome Sexp Failure}
    (hb : y.kernel.activity? u = some b) (hr : b.body = some r) (hg : b.waitingFor = some g)
    (ho : y.kernel.outcome? g = some o) (hreply : ∀ uid future, r ≠ .calling (.awaiting uid future)) :
    u ≠ t ∧ x.kernel.activity? u = some b := by
  have hne : u ≠ t := by
    rintro rfl
    cases hprogress : progress with
    | ends o => simp [(m.turn.ended o hprogress).1] at hb
    | waits b' g' =>
      obtain ⟨-, c, hc, hbody, hwaiting, -⟩ := m.turn.waits b' g' hprogress
      cases hc.symm.trans hb
      cases hbody.symm.trans hr
      cases hwaiting.symm.trans hg
      rcases m.waits _ _ hprogress with ⟨uid, future, rfl⟩ | ⟨-, hnone⟩
      · exact hreply uid future rfl
      · simp [ho] at hnone
  exact ⟨hne, by rw [← m.turn.other u hne, hb]⟩

end Moves

/-! ## Every job is a turn -/

lemma faults_of_went {c d : Connection NamedCallback} {isDone : Task.Id → Bool} {uid : Nat}
    {future : Task.Id} {drained : Option Task.Id} {es : List (Peer.Effect NamedCallback)}
    {progress : Connection.CallProgress} (h : Went c isDone uid future drained d es progress) :
    d.writeFault = c.writeFault ∧ d.drainFault = c.drainFault := by
  cases h <;> exact ⟨rfl, rfl⟩

lemma faults_of_begun {c d : Connection NamedCallback} {isDone : Task.Id → Bool}
    {future drained : Task.Id} {es : List (Peer.Effect NamedCallback)}
    {progress : Connection.CallProgress} (h : Begun c isDone future drained d es progress) :
    d.writeFault = c.writeFault ∧ d.drainFault = c.drainFault := by
  cases h with
  | refused => exact ⟨rfl, rfl⟩
  | unsendable => exact ⟨rfl, rfl⟩
  | issued _ went =>
    obtain ⟨hwrite, hdrain⟩ := faults_of_went went
    exact ⟨hwrite, hdrain⟩

/-- What a call settles when it goes on. -/
lemma Orderly.settles_of_went (hx : Orderly x h) {c d : Connection NamedCallback}
    {isDone : Task.Id → Bool} {uid : Nat} {future : Task.Id} {drained : Option Task.Id}
    {es : List (Peer.Effect NamedCallback)} {progress : Connection.CallProgress}
    (hwent : Went c isDone uid future drained d es progress)
    (hpending : ∀ p ∈ c.peer.pending, p ∈ x.connection.peer.pending ∨
      x.kernel.futures.size ≤ p.future) {f : Task.Id} {o : Outcome Sexp Failure}
    (hmem : (f, o) ∈ outcomesOf es) :
    (∃ r, o = .ofExcept r) ∧ (x.kernel.futures.size ≤ f ∨ ∃ i ∈ h.issues, i.future = f) := by
  obtain ⟨⟨_, r⟩, hsettled, heq⟩ := List.mem_map.1 hmem
  cases heq
  obtain ⟨p, hp, rfl⟩ := mem_pending_of_went hwent hsettled
  refine ⟨⟨r, rfl⟩, (hpending p hp).symm.imp_right fun hp => ?_⟩
  obtain ⟨i, hi, -, hfuture, -⟩ := hx.ledger.entries p hp
  exact ⟨i, hi, hfuture⟩

/-- What a call waits for when it goes on. -/
lemma waits_of_went {c d : Connection NamedCallback} {isDone : Task.Id → Bool} {uid : Nat}
    {future : Task.Id} {drained : Option Task.Id} {es : List (Peer.Effect NamedCallback)}
    {progress : Connection.CallProgress} (hwent : Went c isDone uid future drained d es progress)
    (hopen : ∀ g, drained = some g → settlements es = [] → y.kernel.outcome? g = none)
    {b : Routine} {g : Task.Id} (hprogress : callTurn progress = .waits b g) :
    (∃ uid future, b = .calling (.awaiting uid future)) ∨
      (b = .listen ∨ ∃ uid future, b = .calling (.draining uid future)) ∧
        y.kernel.outcome? g = none := by
  cases hwent with
  | awaits hes =>
    cases hprogress
    exact .inl ⟨_, _, rfl⟩
  | drains hes hd =>
    cases hprogress
    exact .inr ⟨.inr ⟨_, _, rfl⟩, hopen _ hd hes⟩
  | leaves hes ho => cases hprogress
  | breaks handled => cases hprogress

/-- A call that begins has its turn. -/
lemma Orderly.moves_of_begun (hx : Orderly x h) {method : Text} {args : List Sexp}
    {d : Connection NamedCallback} {es : List (Peer.Effect NamedCallback)}
    {progress : Connection.CallProgress} {closes : Nat} (ha : x.kernel.activity? t = some a)
    (hb : a.body = some (.call method args))
    (begun : Begun x.connection x.kernel.isDone x.kernel.futures.size (x.kernel.futures.size + 1) d
      es progress)
    (turn : Turn x.kernel y.kernel t 2 (outcomesOf es) (callTurn progress))
    (connection : y.connection = { d with closes }) :
    Moves x h y t a 2 (outcomesOf es) (callTurn progress) where
  activity := ha
  turn := turn
  told g hg := by simp [(hx.placed ha hb).1] at hg
  settles f o hmem := by
    cases begun with
    | refused => exact absurd hmem List.not_mem_nil
    | unsendable => exact absurd hmem List.not_mem_nil
    | issued _ went =>
      refine hx.settles_of_went went (fun p hp => (List.mem_append.1 hp).imp_right fun hp => ?_) hmem
      rw [List.mem_singleton.1 hp]
  waits b g hprogress := by
    cases begun with
    | refused => cases hprogress
    | unsendable => cases hprogress
    | issued _ went =>
      refine waits_of_went went (fun g hg hes => ?_) hprogress
      cases hg
      obtain ⟨hnone, hplain, -⟩ :=
        Task.Kernel.views_of_size_le (Nat.le_succ x.kernel.futures.size)
      rw [outcome_of_plain turn ha hplain, hnone, outcomesOf, hes]
      rfl
  answers _ _ hbody := by simp [hb] at hbody
  incoming _ := by rw [connection, begun.incoming]
  reads := ⟨[], by rw [connection, begun.incoming]; rfl⟩
  stream := by rw [connection, begun.incoming]; exact ⟨rfl, rfl⟩
  faults := by
    obtain ⟨hwrite, hdrain⟩ := faults_of_begun begun
    rw [connection]
    exact ⟨hwrite, hdrain⟩

/-- The listener has its turn. -/
lemma Orderly.moves_of_listened (hx : Orderly x h) {d : Connection NamedCallback} {bytes : Bytes}
    {done : List Text} {rejection : Option Failure} {es : List (Peer.Effect NamedCallback)}
    {pause : Connection.Pause} (ha : x.kernel.activity? t = some a) (hb : a.body = some .listen)
    (listened : Listened x.connection d x.kernel.isDone bytes done rejection es pause)
    (told : ∀ w, a.waitingFor = some w → ∃ o, x.kernel.outcome? w = some o)
    (turn : Turn x.kernel y.kernel t made (outcomesOf es) progress)
    (waits : ∀ b g, progress = .waits b g → b = .listen ∧ g = x.kernel.futures.size)
    (reads : y.connection.incoming.buffer = d.incoming.buffer)
    (stream : y.connection.incoming.ended = d.incoming.ended ∧
      y.connection.incoming.failure = d.incoming.failure)
    (faults : y.connection.writeFault = d.writeFault ∧ y.connection.drainFault = d.drainFault) :
    Moves x h y t a made (outcomesOf es) progress where
  activity := ha
  turn := turn
  told := told
  settles f o hmem := by
    obtain ⟨⟨_, r⟩, hsettled, heq⟩ := List.mem_map.1 hmem
    cases heq
    obtain ⟨c, hc, rfl, -⟩ := (listened.handled.settled _ _).1 hsettled
    obtain ⟨i, hi, -, hfuture, -⟩ := hx.ledger.entries c hc
    exact ⟨⟨r, rfl⟩, .inr ⟨i, hi, hfuture⟩⟩
  waits b g hprogress := by
    obtain ⟨rfl, rfl⟩ := waits b g hprogress
    exact .inr ⟨.inl rfl, hx.waits_for_bytes ha listened turn⟩
  answers _ _ hbody := by simp [hb] at hbody
  incoming hne := absurd hb hne
  reads := ⟨bytes, by rw [reads, listened.read]⟩
  stream := by rw [stream.1, stream.2, listened.same]; exact ⟨rfl, rfl⟩
  faults := by rw [faults.1, faults.2, listened.same]; exact ⟨rfl, rfl⟩

/-- Whatever the next job does, one task has its turn. -/
theorem Orderly.moves (hx : Orderly x h) {limit : Float} (hwork : Work x limit y) :
    ∃ t a made os progress, Moves x h y t a made os progress := by
  cases hwork with
  | @cancelled t a b ha hb hidle hasked turn hissue hconnection hcalls =>
    exact ⟨t, a, 0, [], _,
      { activity := ha
        turn := turn
        told := fun g hg => by simp [hidle] at hg
        settles := fun _ _ hmem => absurd hmem List.not_mem_nil
        waits := nofun
        answers := fun uid future hbody => by
          cases hb.symm.trans hbody
          simp [(hx.placed ha hb).1] at hidle
        incoming := fun _ => by rw [hconnection]
        reads := ⟨[], by rw [hconnection]; rfl⟩
        stream := by rw [hconnection]; exact ⟨rfl, rfl⟩
        faults := by rw [hconnection]; exact ⟨rfl, rfl⟩ }⟩
  | call ha hb begun turn hissue hconnection =>
    exact ⟨_, _, _, _, _, hx.moves_of_begun ha hb begun turn hconnection⟩
  | @answered t a uid future o ha hb ho turn hissue hconnection hcalls =>
    refine ⟨t, a, 0, [], _,
      { activity := ha
        turn := turn
        told := fun g hg => ?_
        settles := fun _ _ hmem => absurd hmem List.not_mem_nil
        waits := nofun
        answers := fun uid' future' hbody => by
          cases hb.symm.trans hbody
          exact ⟨o, ho, rfl⟩
        incoming := fun _ => by rw [hconnection]
        reads := ⟨[], by rw [hconnection]; rfl⟩
        stream := by rw [hconnection]; exact ⟨rfl, rfl⟩
        faults := by rw [hconnection]; exact ⟨rfl, rfl⟩ }⟩
    cases (hx.placed ha hb).1.symm.trans hg
    exact ⟨o, ho⟩
  | @drained t a uid future d es progress closes ha hb told went turn hissue hconnection hcalls =>
    refine ⟨t, a, 0, outcomesOf es, _,
      { activity := ha
        turn := turn
        told := fun g hg => ?_
        settles := fun f o hmem => hx.settles_of_went went (fun p hp => .inl hp) hmem
        waits := fun b g hprogress => waits_of_went went nofun hprogress
        answers := fun _ _ hbody => by simp [hb] at hbody
        incoming := fun _ => by rw [hconnection, went.incoming]
        reads := ⟨[], by rw [hconnection, went.incoming]; rfl⟩
        stream := by rw [hconnection, went.incoming]; exact ⟨rfl, rfl⟩
        faults := by
          obtain ⟨hwrite, hdrain⟩ := faults_of_went went
          rw [hconnection]
          exact ⟨hwrite, hdrain⟩ }⟩
    obtain ⟨g', o, hg', ho⟩ := told
    cases hg'.symm.trans hg
    exact ⟨o, ho⟩
  | @late t a uid future o closes ha hb told ho turn hissue hconnection hcalls =>
    refine ⟨t, a, 0, [], _,
      { activity := ha
        turn := turn
        told := fun g hg => ?_
        settles := fun _ _ hmem => absurd hmem List.not_mem_nil
        waits := nofun
        answers := fun _ _ hbody => by simp [hb] at hbody
        incoming := fun _ => by rw [hconnection]
        reads := ⟨[], by rw [hconnection]; rfl⟩
        stream := by rw [hconnection]; exact ⟨rfl, rfl⟩
        faults := by rw [hconnection]; exact ⟨rfl, rfl⟩ }⟩
    obtain ⟨g', o, hg', ho⟩ := told
    cases hg'.symm.trans hg
    exact ⟨o, ho⟩
  | listens ha hb listened told turn hissue hconnection =>
    refine ⟨_, _, _, _, _, hx.moves_of_listened ha hb listened told turn ?_ ?_ ?_ ?_⟩
    · rintro b g ⟨⟩
      exact ⟨rfl, rfl⟩
    · rw [hconnection]
    · rw [hconnection]
      exact ⟨rfl, rfl⟩
    · rw [hconnection]
      exact ⟨rfl, rfl⟩
  | closes ha hb listened told why turn hissue hconnection =>
    refine ⟨_, _, _, _, _, hx.moves_of_listened ha hb listened told turn nofun ?_ ?_ ?_⟩
    · rw [hconnection]
    · rw [hconnection]
      exact ⟨rfl, rfl⟩
    · rw [hconnection]
      exact ⟨rfl, rfl⟩

end SuggestBridge.Exchange
