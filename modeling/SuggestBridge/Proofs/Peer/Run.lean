import SuggestBridge.Peer.Exchange
import SuggestBridge.Proofs.Peer.Ledger
import SuggestBridge.Proofs.Task.Turn

/-!
# Runs of an exchange

A run begins with a peer whose listener is to begin.  Then, in any order, something happens from
outside (`Event`) or the next job is done.  The history of a run notes the calls that took a number
and the bytes that the listener has read.

`Orderly` is what holds between two jobs of every run.  Each task stands in its place (`Placed`): a
call is to begin, or it waits for the write buffer or for its reply, with its entry on the list of
those that wait; the listener waits for bytes as long as the peer is open.
-/

namespace SuggestBridge.Exchange

open Peer (History Issue Ledger)

/-! ## Events and runs -/

/-- What can happen to an exchange from outside. -/
inductive Event where
  | call (name method : Text) (args : List Sexp)
  | cancel (name : Text)
  | data (bytes : Bytes)
  | endOfStream
  | readFault (fault : Fault)
  | stop
  | addCallback (k : NamedCallback)
  | congest
  | relieve (fault : Option Fault)
  /-- From now on writing, refusing, draining and closing report these. -/
  | faults (write refusal drain close : Option Fault)
  | elapse (now : Float)

/-- Lets something happen. -/
def occur (x : Exchange) : Event → Exchange
  | .call name method args => x.call name method args
  | .cancel name => x.cancel name
  | .data bytes => x.data bytes
  | .endOfStream => x.endOfStream
  | .readFault fault => x.readFault fault
  | .stop => x.stop
  | .addCallback k => (x.addCallback k).1
  | .congest => x.congest
  | .relieve fault => x.relieve fault
  | .faults write refusal drain close =>
    { x with
      connection := { x.connection with
        writeFault := write, refusalFault := refusal, drainFault := drain, closeFault := close } }
  | .elapse now => { x with kernel := { x.kernel with now := now } }

/-- The call that takes a number in the next job. -/
def issue? (x : Exchange) (limit : Float) (received : Nat) : Option Issue :=
  match x.kernel.next? limit with
  | some (_, .begin task (.call _ _)) =>
    if x.connection.peer.closed then none
    else
      some { task, uid := x.connection.peer.nextUid, future := x.kernel.futures.size, received }
  | _ => none

/-- The bytes that the listener took from the stream between two states. -/
def taken (x y : Exchange) : Bytes :=
  x.connection.incoming.buffer.take
    (x.connection.incoming.buffer.length - y.connection.incoming.buffer.length)

/-- Notes what a job did. -/
def note (h : History) (x : Exchange) (limit : Float) (y : Exchange) : History where
  issues := h.issues ++ (x.issue? limit h.received.length).toList
  read := h.read ++ taken x y

lemma note_eq {x y : Exchange} {limit : Float} (h : History)
    (hbuffer : y.connection.incoming.buffer = x.connection.incoming.buffer) :
    note h x limit y =
      { h with issues := h.issues ++ (x.issue? limit h.received.length).toList } := by
  rw [note, taken, hbuffer, Nat.sub_self, List.take_zero, List.append_nil]

lemma taken_of_append {x y : Exchange} {bytes : Bytes}
    (hread : x.connection.incoming.buffer = bytes ++ y.connection.incoming.buffer) :
    taken x y = bytes := by
  rw [taken, hread, List.length_append, Nat.add_sub_cancel, List.take_left]

lemma note_of_read {x y : Exchange} {limit : Float} (h : History)
    (hissue : ∀ n, x.issue? limit n = none) {bytes : Bytes}
    (hread : x.connection.incoming.buffer = bytes ++ y.connection.incoming.buffer) :
    note h x limit y = h.add bytes := by
  rw [note, taken_of_append hread, hissue]
  simp [History.add]

/-- What can come of a state, each with the history since the start. -/
inductive Leads (x : Exchange) (h : History) : Exchange → History → Prop
  | refl : Leads x h x h
  | occur {y h'} (e : Event) : Leads x h y h' → Leads x h (y.occur e) h'
  | work {y z h'} (limit : Float) : Leads x h y h' → y.step? limit = some z →
    Leads x h z (note h' y limit z)

/-- The states that can be reached: the listener is begun, and then anything may happen. -/
def Run (x : Exchange) (h : History) : Prop := Leads (start {}) {} x h

/-- What an exchange does by itself is part of its run. -/
lemma Leads.run {x y : Exchange} {h h' : History} (hl : Leads x h y h') (limit : Float) (fuel : Nat) :
    ∃ h'', Leads x h (y.run limit fuel) h'' := by
  induction fuel generalizing y h' with
  | zero => exact ⟨h', hl⟩
  | succ fuel ih =>
    rw [Exchange.run]
    split
    · exact ⟨h', hl⟩
    · next z hstep => exact ih (hl.work limit hstep)

lemma Run.settle {x : Exchange} {h : History} (hrun : Run x h) : ∃ h', Run x.settle h' := Leads.run hrun x.kernel.now x.fuel

lemma Run.call {x : Exchange} {h : History} (hrun : Run x h) (name method : Text)
    (args : List Sexp) :
    Run (x.call name method args) h :=
  Leads.occur (.call name method args) hrun

/-! ## Tasks in their places -/

/-- A future that is no task and not the future of a call. -/
def Spare (x : Exchange) (h : History) (g : Task.Id) : Prop :=
  g < x.kernel.futures.size ∧ x.kernel.activity? g = none ∧ ∀ i ∈ h.issues, i.future ≠ g

/-- A task makes the call with a number, which is on the list of those that wait as long as its
future is open. -/
def Makes (x : Exchange) (h : History) (t : Task.Id) (uid : Nat) (future : Task.Id) : Prop :=
  (∃ i ∈ h.issues, i.task = t ∧ i.uid = uid ∧ i.future = future) ∧
    (x.kernel.outcome? future = none →
      ∃ c ∈ x.connection.peer.pending, c.uid = uid ∧ c.future = future)

/-- The tasks of the calls. -/
def callers (x : Exchange) : List Task.Id := x.calls.map Prod.snd

/-- Where a task stands between two jobs. -/
def Placed (x : Exchange) (h : History) (t : Task.Id) (a : Task.Activity Routine) : Routine → Prop
  | .call _ _ => a.waitingFor = none ∧ t ∈ x.callers ∧ ∀ i ∈ h.issues, i.task ≠ t
  | .calling (.awaiting uid future) => a.waitingFor = some future ∧ x.Makes h t uid future
  | .calling (.draining uid future) =>
    (∃ d, a.waitingFor = some d ∧ x.Spare h d ∧
      (x.kernel.outcome? d = none → d ∈ x.connection.draining)) ∧ x.Makes h t uid future
  | .listen =>
    x.connection.listener = some t ∧
      (a.mustCancel = true → x.connection.peer.closed = true) ∧
      Frame.drain h.read = ⟨.ok h.received, x.connection.peer.buffer⟩ ∧
      ∀ w, a.waitingFor = some w → x.Spare h w ∧
        (x.kernel.outcome? w = none →
          x.connection.incoming.waiter = some w ∧ x.connection.incoming.readiness = .blocked)

/-- What holds between two jobs of a run. -/
structure Orderly (x : Exchange) (h : History) : Prop where
  waking : x.kernel.Waking none
  tasksOnly : x.kernel.TasksOnly
  ledger : Ledger h x.connection.peer x.kernel.outcome?
  futures : ∀ i ∈ h.issues, i.future < x.kernel.futures.size ∧ x.kernel.activity? i.future = none
  placed : ∀ {t a b}, x.kernel.activity? t = some a → a.body = some b → x.Placed h t a b
  makers : ∀ i ∈ h.issues, i.task ∈ x.callers
  callers : ∀ t ∈ x.callers, x.kernel.outcome? t = none → ∃ a, x.kernel.activity? t = some a
  answered : ∀ t ∈ x.callers, ∀ v, x.kernel.outcome? t = some (.value v) →
    ∃ i ∈ h.issues, i.task = t ∧ Peer.firstVerdict i.uid (h.since i) = some (.ok v)
  listener : ∃ l, x.connection.listener = some l ∧ l ∉ x.callers ∧
    ((∃ a, x.kernel.activity? l = some a ∧ a.body = some .listen) ∨
      x.connection.peer.closed = true ∧ ∃ o, x.kernel.outcome? l = some o)
  waiter : ∀ w, x.connection.incoming.waiter = some w → x.Spare h w ∧ w ∉ x.connection.draining
  draining : ∀ d ∈ x.connection.draining, x.Spare h d

/-- The future of a call that waits is no task. -/
lemma Orderly.pending_plain {x : Exchange} {h : History} (hx : Orderly x h) :
    ∀ c ∈ x.connection.peer.pending,
      c.future < x.kernel.futures.size ∧ x.kernel.activity? c.future = none := by
  intro c hc
  obtain ⟨i, hi, -, hfuture, -⟩ := hx.ledger.entries c hc
  exact hfuture ▸ hx.futures i hi

/-- A listener that has not ended is a task. -/
lemma Orderly.listener_active {x : Exchange} {h : History} (hx : Orderly x h) {l : Task.Id}
    (hl : x.connection.listener = some l) (hopen : x.kernel.outcome? l = none) :
    ∃ a, x.kernel.activity? l = some a := by
  obtain ⟨l', hl', -, ⟨a, ha, -⟩ | ⟨-, o, ho⟩⟩ := hx.listener
  · rw [hl] at hl'
    cases hl'
    exact ⟨a, ha⟩
  · rw [hl] at hl'
    cases hl'
    simp [hopen] at ho

end SuggestBridge.Exchange
