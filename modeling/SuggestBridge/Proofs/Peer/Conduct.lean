import SuggestBridge.Proofs.Peer.Outward
import SuggestBridge.Proofs.Peer.Work

/-!
# What a run shows outside

The frames that were sent and the callbacks that were run are recorded by an exchange.  `Shows` says
that a step added to the records what the peer did to the outside, and nothing else.  Every job
does that, except for a call that begins on an open peer (`shows_of_step?`), and so does every event
but the registration of a callback (`shows_occur`).
-/

namespace SuggestBridge.Exchange

open Peer (Outward IsFrameOf callMessage frames called)
open Connection (numbered listed)
open SuggestBridge.Task (Outcome)

variable {x y z : Exchange} {es fs : List (Peer.Effect NamedCallback)}

/-- From `x` to `y` the effects of a peer were recorded. -/
structure Shows (x y : Exchange) (es : List (Peer.Effect NamedCallback)) : Prop where
  outward : Outward x.connection.peer y.connection.peer es
  sent : y.sent = x.sent ++ frames es
  notified : y.notified = x.notified ++ (called es).map (·.name)

namespace Shows

/-- Nothing was shown. -/
lemma of_peer (hpeer : Outward x.connection.peer y.connection.peer [])
    (hsent : y.sent = x.sent) (hnotified : y.notified = x.notified) : Shows x y [] where
  outward := hpeer
  sent := hsent.trans (List.append_nil _).symm
  notified := hnotified.trans (List.append_nil _).symm

lemma trans (h : Shows x y es) (h' : Shows y z fs) : Shows x z (es ++ fs) where
  outward := h.outward.trans h'.outward
  sent := by rw [h'.sent, h.sent, Peer.frames_append, List.append_assoc]
  notified := by
    rw [h'.notified, h.notified, Peer.called_append, List.map_append, List.append_assoc]

/-- A change that leaves the peer and the records as they were. -/
lemma of_eq (hpeer : y.connection.peer = x.connection.peer) (hsent : y.sent = x.sent)
    (hnotified : y.notified = x.notified) : Shows x y [] :=
  .of_peer (hpeer ▸ .of_inner rfl rfl rfl nofun) hsent hnotified

end Shows

/-! ## Effects -/

/-- The records grow by what is shown. -/
lemma records_applyAll (x : Exchange) (c : Connection NamedCallback)
    (es : List (Peer.Effect NamedCallback)) :
    (x.applyAll c es).sent = x.sent ++ frames es ∧
      (x.applyAll c es).notified = x.notified ++ (called es).map (·.name) := by
  rw [applyAll]
  have hall : ∀ z : Exchange, (es.foldl apply z).sent = z.sent ++ frames es ∧
      (es.foldl apply z).notified = z.notified ++ (called es).map (·.name) := by
    induction es with
    | nil => exact fun z => ⟨(List.append_nil _).symm, (List.append_nil _).symm⟩
    | cons e es ih =>
      intro z
      obtain ⟨hsent, hnotified⟩ := ih (z.apply e)
      rw [List.foldl_cons, hsent, hnotified]
      cases e with
      | send frame => exact ⟨List.append_assoc _ [frame] _, rfl⟩
      | callback k =>
        obtain ⟨name, raises⟩ := k
        cases raises <;> exact ⟨rfl, List.append_assoc _ [name] _⟩
      | _ => exact ⟨rfl, rfl⟩
  exact hall { x with connection := c }

lemma peer_applyAll (x : Exchange) (c : Connection NamedCallback)
    (es : List (Peer.Effect NamedCallback)) : (x.applyAll c es).connection.peer = c.peer := by
  obtain ⟨⟨closes, hconnection⟩, -⟩ := applyAll_eq x c es
  rw [hconnection]

lemma shows_applyAll {c : Connection NamedCallback} (h : Outward x.connection.peer c.peer es) :
    Shows x (x.applyAll c es) es where
  outward := peer_applyAll x c es ▸ h
  sent := (records_applyAll x c es).1
  notified := (records_applyAll x c es).2

/-! ## Jobs -/

lemma shows_follow (x : Exchange) (t : Task.Id) (progress : Connection.CallProgress) :
    Shows x (x.follow t progress) [] := by
  unfold follow
  split
  · exact .of_eq rfl rfl rfl
  · split
    · next uid g =>
      -- the reply came before the call could wait for it
      exact .of_peer (.of_inner rfl rfl rfl (by simp)) rfl rfl
    · exact .of_eq rfl rfl rfl

lemma shows_pause (t : Task.Id)
    {r : Connection NamedCallback × List (Peer.Effect NamedCallback) × Connection.Pause}
    (h : Outward x.connection.peer r.1.peer r.2.1) : Shows x (x.pause t r) r.2.1 := by
  have happly := shows_applyAll h
  obtain ⟨c, es, why⟩ := r
  cases why with
  | blocked => exact ⟨happly.outward, happly.sent, happly.notified⟩
  | ended cause => exact ⟨happly.outward, happly.sent, happly.notified⟩

lemma shows_resume (x : Exchange) (t : Task.Id) (body : Routine) (input : Outcome Sexp Failure) :
    ∃ es, Shows x (x.resume t body input) es := by
  cases body with
  | call method args => exact ⟨[], .of_eq rfl rfl rfl⟩
  | calling state =>
    have happly := shows_applyAll (Connection.outward_resumeCall x.connection x.kernel.isDone state
      input)
    exact ⟨_, happly.trans (shows_follow _ t _)⟩
  | listen =>
    exact ⟨_, shows_pause t (Connection.outward_resumeListening x.connection x.kernel.isDone
      x.kernel.now input)⟩

/-- A job adds to the records what the peer shows, unless it begins a call on an open peer. -/
theorem shows_of_step? {limit : Float} (hstep : x.step? limit = some y) :
    (∃ es, Shows x y es) ∨
      ∃ k t method args, x.connection.peer.closed = false ∧
        x.kernel.next? limit = some (k, .begin t (.call method args)) ∧
        y = begin { x with kernel := k } t (.call method args) := by
  unfold step? at hstep
  split at hstep
  · cases hstep
  · next k activation hnext =>
    cases activation with
    | done =>
      cases hstep
      exact .inl ⟨[], .of_eq rfl rfl rfl⟩
    | resume t body input =>
      cases hstep
      obtain ⟨es, h⟩ := shows_resume { x with kernel := k } t body input
      exact .inl ⟨es, h.outward, h.sent, h.notified⟩
    | hook e source => exact e.elim
    | «begin» t body =>
      cases hstep
      cases body with
      | calling state => exact .inl ⟨[], .of_eq rfl rfl rfl⟩
      | listen =>
        have h := shows_pause (x := { x with kernel := k }) t
          (Connection.outward_beginListening x.connection k.isDone k.now)
        exact .inl ⟨_, h.outward, h.sent, h.notified⟩
      | call method args =>
        cases hclosed : x.connection.peer.closed with
        | false => exact .inr ⟨k, t, method, args, rfl, hnext, rfl⟩
        | true =>
          refine .inl ⟨[], .of_eq ?_ ?_ ?_⟩ <;>
          simp only [begin, Connection.beginCall,
            Connection.issue_of_closed x.connection.peer _ _ method args hclosed] <;> rfl

lemma frames_written (c : Connection NamedCallback) (frame : Bytes) :
    frames (c.written frame) = if c.writeFault.isNone then [frame] else [] := by
  rw [Connection.written]
  split <;> rfl

lemma called_written (c : Connection NamedCallback) (frame : Bytes) :
    called (c.written frame) = [] := by
  rw [Connection.written]
  split <;> rfl

/-- What the beginning of a call on an open peer shows. -/
inductive Placing (x : Exchange) (k : Task.Kernel Routine Empty Sexp Failure) (t : Task.Id)
    (method : Text) (args : List Sexp) (y : Exchange) : Prop
  /-- The call cannot be encoded. -/
  | fails (m : Text)
    (kernel : y.kernel = k.fresh.1.fresh.1.finish t (.failure (.unencodable m)))
    (connection : y.connection = { x.connection with peer := numbered x.connection.peer })
    (sent : y.sent = x.sent) (notified : y.notified = x.notified)
  /-- The call is put on the list of those that wait, and its frame is written. -/
  | issues (frame : Bytes) (es : List (Peer.Effect NamedCallback))
    (issued : x.connection.peer.issue k.now k.futures.size method args =
      (listed x.connection.peer method k.futures.size k.now,
        .ok (x.connection.peer.nextUid, frame)))
    (isFrame : IsFrameOf frame
      (callMessage x.connection.peer.nextUid method (Sexp.canonAll args)))
    (outward : Outward (listed x.connection.peer method k.futures.size k.now) y.connection.peer es)
    (sent : y.sent = x.sent ++ if x.connection.writeFault.isNone then [frame] else [])
    (notified : y.notified = x.notified ++ (called es).map (·.name))
    (waits : x.connection.writeFault = none → x.connection.drainFault = none →
      y.connection.peer = listed x.connection.peer method k.futures.size k.now)

lemma connection_follow_of_open {g : Task.Id} (hg : x.kernel.outcome? g = none) (t : Task.Id)
    (state : Connection.CallState) :
    (x.follow t (.waits state g)).connection = x.connection := by
  unfold follow
  simp only [hg]

theorem placing_begin (hopen : x.connection.peer.closed = false)
    (k : Task.Kernel Routine Empty Sexp Failure) (t : Task.Id) (method : Text) (args : List Sexp) :
    Placing x k t method args (begin { x with kernel := k } t (.call method args)) := by
  have hbegin : begin { x with kernel := k } t (.call method args) =
      let r := x.connection.beginCall k.fresh.1.fresh.1.isDone k.now k.futures.size
        k.fresh.1.futures.size method args
      (applyAll { x with kernel := k.fresh.1.fresh.1 } r.1 r.2.1).follow t r.2.2 := rfl
  rw [hbegin]
  rcases Connection.beginCall_cases x.connection hopen k.fresh.1.fresh.1.isDone k.now
    k.futures.size k.fresh.1.futures.size method args with
    ⟨m, heq⟩ | ⟨frame, d, es, progress, heq, hissue, hframe, hout, hsilent, hwaits⟩
  · rw [heq]
    exact .fails m rfl rfl rfl rfl
  · rw [heq]
    generalize hz : applyAll { x with kernel := k.fresh.1.fresh.1 } d
      (x.connection.written frame ++ es) = z
    obtain ⟨hsent, hnotified⟩ := records_applyAll { x with kernel := k.fresh.1.fresh.1 } d
      (x.connection.written frame ++ es)
    have hpeer := peer_applyAll { x with kernel := k.fresh.1.fresh.1 } d
      (x.connection.written frame ++ es)
    rw [hz] at hsent hnotified hpeer
    rw [Peer.frames_append, hsilent, frames_written, List.append_nil] at hsent
    rw [Peer.called_append, called_written, List.nil_append] at hnotified
    have hfollow := shows_follow z t progress
    dsimp only
    rw [hz]
    refine .issues frame es hissue hframe ?_ ?_ ?_ fun hwrite hdrain => ?_
    · have hall := (hpeer ▸ hout).trans hfollow.outward
      rwa [List.append_nil] at hall
    · exact (hfollow.sent.trans (List.append_nil _)).trans hsent
    · exact (hfollow.notified.trans (List.append_nil _)).trans hnotified
    · obtain ⟨hd, hes, state, hprogress⟩ := hwaits hwrite hdrain
      -- nothing has settled what is waited for, since it is new
      have hnew : ∀ {g}, k.futures.size ≤ g → z.kernel.outcome? g = none := fun hg => by
        have hkernel : z.kernel = k.fresh.1.fresh.1 := by
          rw [← hz, hes, Connection.written, hwrite]
          rfl
        rw [hkernel, Task.Kernel.fresh, Task.Kernel.outcome?_add rfl, Task.Kernel.fresh,
          Task.Kernel.outcome?_add rfl, (Task.Kernel.views_of_size_le hg).1]
      have hlater : k.futures.size ≤ k.fresh.1.futures.size := by
        rw [Task.Kernel.fresh, Task.Kernel.size_add]
        exact Nat.le_succ _
      rw [← hd, ← hpeer]
      rcases hprogress with rfl | rfl
      · exact congrArg (·.peer) (connection_follow_of_open (hnew (Nat.le_refl _)) t state)
      · exact congrArg (·.peer) (connection_follow_of_open (hnew hlater) t state)

/-- A task that begins runs. -/
lemma Orderly.running_of_begin {h : Peer.History} (hx : Orderly x h) {limit : Float}
    {k : Task.Kernel Routine Empty Sexp Failure} {t : Task.Id} {body : Routine}
    (hnext : x.kernel.next? limit = some (k, .begin t body)) :
    Task.Kernel.Running x.kernel k t 0 [] := by
  obtain ⟨n, heq⟩ := Task.Kernel.next?_eq hx.tasksOnly.timers limit
  rw [hnext] at heq
  cases hready : x.kernel.ready with
  | nil => simp [hready] at heq
  | cons job rest =>
    rw [hready, Option.some.injEq] at heq
    obtain ⟨u, rfl | ⟨g, rfl⟩⟩ := hx.tasksOnly.jobs job (by simp [hready])
    · obtain ⟨a, b, -, -, -, ⟨-, hperform, -⟩ | ⟨k', hperform, htaken⟩⟩ :=
        Task.Kernel.perform_start hx.waking hready n
      · simp [hperform] at heq
      · rw [hperform] at heq
        cases heq
        exact .of_taken hready hx.tasksOnly htaken
    · obtain ⟨a, b, o, k', -, -, -, -, hperform, -⟩ :=
        Task.Kernel.perform_notify_wake hx.waking hready n
      simp [hperform] at heq

/-! ## Events -/

/-- The peer is closed from this side, after other tasks were told so. -/
lemma shows_close (x : Exchange) (k : Task.Kernel Routine Empty Sexp Failure) :
    Shows x (applyAll { x with kernel := k }
      (x.connection.withPeer (x.connection.peer.close k.isDone none)).1
      (x.connection.withPeer (x.connection.peer.close k.isDone none)).2)
      (x.connection.peer.close k.isDone none).2 := by
  have h := shows_applyAll (x := { x with kernel := k })
    (c := (x.connection.withPeer (x.connection.peer.close k.isDone none)).1)
    (Peer.outward_close x.connection.peer k.isDone none)
  exact ⟨h.outward, h.sent, h.notified⟩

lemma shows_stop (x : Exchange) : ∃ es, Shows x x.stop es ∧ frames es = [] := by
  rw [stop]
  split
  · exact ⟨[], .of_eq rfl rfl rfl, rfl⟩
  · exact ⟨_, shows_close x _, (Peer.effects_close x.connection.peer _ none).1⟩

/-- An event sends nothing, and runs callbacks only by closing the peer. -/
theorem shows_occur (e : Event) (he : ∀ k, e ≠ .addCallback k) :
    ∃ es, Shows x (x.occur e) es ∧ frames es = [] := by
  cases e with
  | stop => exact shows_stop x
  | addCallback k => exact absurd rfl (he k)
  | cancel name =>
    refine ⟨[], ?_, rfl⟩
    rw [occur, cancel]
    split <;> exact .of_eq rfl rfl rfl
  | _ => exact ⟨[], .of_eq rfl rfl rfl, rfl⟩

end SuggestBridge.Exchange
