import SuggestBridge.Peer.Basic
import SuggestBridge.Task.Progress
import SuggestBridge.Task.Stream

/-!
# Connections

A peer together with the two directions of its connection: the stream of bytes that arrive, which a
listener hands to the peer, and the way out, which may report faults or be congested. Two routines
live here: the call of a method, and the listener.
-/

namespace SuggestBridge

/-- A peer and its connection. -/
structure Connection (κ : Type) where
  peer : Peer κ := {}
  incoming : Task.Stream Failure := {}
  /-- What writing reports. -/
  writeFault : Option Fault := none
  /-- What writing a refusal reports, even where other writing succeeds. -/
  refusalFault : Option Fault := none
  /-- What waiting for the write buffer to drain reports. -/
  drainFault : Option Fault := none
  /-- What waiting for the end of the connection reports. -/
  closeFault : Option Fault := none
  /-- Whether the write buffer is full. -/
  congested : Bool := false
  /-- The futures that are settled when the write buffer has drained, one for each call that waits
  for it. -/
  draining : List Task.Id := []
  /-- How often the connection was closed from this side. -/
  closes : Nat := 0
  /-- The task of the listener. -/
  listener : Option Task.Id := none

namespace Connection

variable {κ : Type}

/-- Changes the peer of a connection. -/
def withPeer (c : Connection κ) (r : Peer κ × List (Peer.Effect κ)) :
    Connection κ × List (Peer.Effect κ) :=
  ({ c with peer := r.1 }, r.2)

/-! ## Calling a method -/

/-- Where a call waits. -/
inductive CallState where
  /-- Its frame is written and the write buffer is to drain. -/
  | draining (uid : Nat) (future : Task.Id)
  /-- It waits for its reply. -/
  | awaiting (uid : Nat) (future : Task.Id)

/-- How far a call came. -/
abbrev CallProgress := Task.Progress CallState Sexp Failure

/-- Treats a fault of the way out while a call is being sent. A fault of the connection closes the
peer; any other one ends the call and leaves its entry behind. -/
def failSending (c : Connection κ) (isDone : Task.Id → Bool) (uid : Nat) (f : Fault) :
    Connection κ × List (Peer.Effect κ) × CallProgress :=
  if f.isSystem then
    let (c, effects) := c.withPeer ((c.peer.forget uid).close isDone (some f.message))
    (c, effects, .ends (.failure (.closed (Peer.closedMessage ++ ": " ++ f.message))))
  else (c, [], .ends (.failure (.fault f)))

/-- Goes on with a call whose frame is written and whose write buffer has drained. -/
def afterDrain (c : Connection κ) (uid : Nat) (future : Task.Id) :
    Connection κ × List (Peer.Effect κ) × CallProgress :=
  (c, [], .waits (.awaiting uid future) future)

/-- Begins a call. `future` is the future that its reply will settle, and `drained` the one that the
draining of the write buffer will settle, if the call has to wait for it. -/
def beginCall (c : Connection κ) (isDone : Task.Id → Bool) (now : Float)
    (future drained : Task.Id) (method : Text) (args : List Sexp) :
    Connection κ × List (Peer.Effect κ) × CallProgress :=
  match c.peer.issue now future method args with
  | (p, .error e) => ({ c with peer := p }, [], .ends (.failure e))
  | (p, .ok (uid, frame)) =>
    let c := { c with peer := p }
    match c.writeFault with
    | some f => c.failSending isDone uid f
    | none =>
      let (c, effects, progress) :=
        match c.drainFault, c.congested with
        | some f, _ => c.failSending isDone uid f
        | none, true =>
          ({ c with draining := c.draining ++ [drained] }, [],
            .waits (.draining uid future) drained)
        | none, false => c.afterDrain uid future
      (c, .send frame :: effects, progress)

/-- Goes on with a call that waited. However the wait for its reply ends, the call is taken off the
list of those that wait. -/
def resumeCall (c : Connection κ) (isDone : Task.Id → Bool) (state : CallState)
    (input : Task.Outcome Sexp Failure) :
    Connection κ × List (Peer.Effect κ) × CallProgress :=
  match state with
  | .awaiting uid _ => ({ c with peer := c.peer.forget uid }, [], .ends input)
  | .draining uid future =>
    match input with
    | .value _ => c.afterDrain uid future
    | .failure (.fault f) => c.failSending isDone uid f
    | o => (c, [], .ends o)

/-! ## The listener -/

/-- The largest number of bytes read at once. -/
def chunkSize : Nat := 65536

/-- Why a listener pauses. -/
inductive Pause where
  /-- No bytes are there. -/
  | blocked
  /-- The connection is over, for a cause or without one. -/
  | ended (cause : Option Text)
  deriving DecidableEq

/-- The cause that is given for a failure of the stream: failures of the system only. -/
def causeOf (e : Failure) : Option Text := if e.isSystem then some e.message else none

/-- Reads and treats chunks until no bytes are left. The first read takes what is there, without
looking whether the stream has failed meanwhile. -/
def absorb (c : Connection κ) (isDone : Task.Id → Bool) (now : Float) :
    Nat → Connection κ × List (Peer.Effect κ) × Pause
  | 0 => (c, [], .blocked)
  | fuel + 1 =>
    let (data, incoming) := c.incoming.take chunkSize
    let c := { c with incoming }
    if data.isEmpty then (c, c.peer.endOfStream, .ended none)
    else
      match c.peer.receive isDone now (c.refusalFault.or c.writeFault) data with
      | (p, effects, .stop cause) => ({ c with peer := p }, effects, .ended cause)
      | (p, effects, .proceed) =>
        let c := { c with peer := p }
        match c.incoming.readiness with
        | .failed e => (c, effects, .ended (causeOf e))
        | .blocked => (c, effects, .blocked)
        | .readable =>
          let (c, more, pause) := absorb c isDone now fuel
          (c, effects ++ more, pause)

/-- Closes the peer if the connection is over. -/
def endListening (isDone : Task.Id → Bool)
    (r : Connection κ × List (Peer.Effect κ) × Pause) :
    Connection κ × List (Peer.Effect κ) × Pause :=
  match r with
  | (c, effects, .ended cause) =>
    let (c, closing) := c.withPeer (c.peer.close isDone cause)
    (c, effects ++ closing, .ended cause)
  | r => r

/-- A bound on the chunks that can be read without waiting. -/
def absorbFuel (c : Connection κ) : Nat := c.incoming.buffer.length + 2

/-- Begins to listen. -/
def beginListening (c : Connection κ) (isDone : Task.Id → Bool) (now : Float) :
    Connection κ × List (Peer.Effect κ) × Pause :=
  endListening isDone <|
    match c.incoming.readiness with
    | .failed e => (c, [], .ended (causeOf e))
    | .blocked => (c, [], .blocked)
    | .readable => c.absorb isDone now c.absorbFuel

/-- Goes on listening after a wait. -/
def resumeListening {ν : Type} (c : Connection κ) (isDone : Task.Id → Bool) (now : Float)
    (input : Task.Outcome ν Failure) : Connection κ × List (Peer.Effect κ) × Pause :=
  endListening isDone <|
    match input with
    | .value _ => c.absorb isDone now c.absorbFuel
    | .failure e => (c, [], .ended (causeOf e))
    | .cancelled => (c, [], .ended none)

end Connection

end SuggestBridge
