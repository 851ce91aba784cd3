import SuggestBridge.Decimal.Format
import SuggestBridge.Failure
import SuggestBridge.Frame
import SuggestBridge.Log
import SuggestBridge.Sexp.Printer
import SuggestBridge.Task.Kernel

/-!
# Peers

A peer is one side of a connection over which calls are made. Any number of calls may be
outstanding; a reply is attributed by the number of its call, not by the order of arrival. The
operations here change the state of a peer and say what else has to happen, in order: frames to
send, calls to settle, lines to log, the connection to close, callbacks to run.

Call numbers start at one and are never used again, not even when a call could not be sent. Once a
peer is closed it stays closed, nothing is pending, and nothing is sent.
-/

namespace SuggestBridge

/-- A call that waits for its reply. -/
structure PendingCall where
  uid : Nat
  method : Text
  /-- The future that the reply settles. -/
  future : Task.Id
  issuedAt : Float

/-- The state of a peer; `κ` is the type of close callbacks. -/
structure Peer (κ : Type) where
  /-- Bytes that have arrived and belong to no complete frame yet. -/
  buffer : Bytes := []
  /-- The calls that wait for a reply, oldest first. -/
  pending : List PendingCall := []
  /-- The number of the next call. -/
  nextUid : Nat := 1
  closed : Bool := false
  /-- The callbacks to run on closing, in the order of their registration. -/
  callbacks : List κ := []

namespace Peer

/-- What an operation of a peer makes happen outside its state. -/
inductive Effect (κ : Type) where
  | send (frame : Bytes)
  | settle (future : Task.Id) (result : Except Failure Sexp)
  | log (line : LogLine)
  | closeConnection
  | callback (k : κ)

variable {κ : Type}

/-- The wording for calls on a closed connection. -/
def closedMessage : Text := "Connection closed"

/-- The wording for what cannot be attributed to a call. -/
def invalidMessage : Text := "Received invalid SExp data"

/-- The message of a call. -/
def callMessage (uid : Nat) (method : Text) (args : List Sexp) : Sexp :=
  .list [.symbol "call", .int uid, .symbol method, .list args]

/-- Why a message cannot be sent. -/
inductive SendError where
  | unwritable (e : Sexp.WriteError)
  | unframeable (e : Frame.EncodeError)

/-- The wording of a message that cannot be sent. -/
def SendError.message : SendError → Text
  | .unwritable e => e.message
  | .unframeable e => e.message

/-- The frame of a message. -/
def frameOf (message : Sexp) : Except SendError Bytes :=
  match message.write with
  | .error e => .error (.unwritable e)
  | .ok text => (Frame.encode text).mapError .unframeable

/-- Prepares a call: takes a number and puts the call on the list of those that wait. A call that
cannot be encoded uses up its number and changes nothing else. -/
def issue (p : Peer κ) (now : Float) (future : Task.Id) (method : Text) (args : List Sexp) :
    Peer κ × Except Failure (Nat × Bytes) :=
  if p.closed then (p, .error (.closed closedMessage))
  else
    let uid := p.nextUid
    let p := { p with nextUid := uid + 1 }
    match frameOf (callMessage uid method args) with
    | .error e =>
      (p, .error (.unencodable ("Cannot encode " ++ method ++ " call: " ++ e.message)))
    | .ok frame =>
      ({ p with pending := p.pending ++ [⟨uid, method, future, now⟩] }, .ok (uid, frame))

/-- Takes a call off the list of those that wait. -/
def forget (p : Peer κ) (uid : Nat) : Peer κ :=
  { p with pending := p.pending.filter (·.uid != uid) }

/-- Fails every call that waits and has not been abandoned by its caller. -/
def rejectAll (p : Peer κ) (isDone : Task.Id → Bool) (failure : Failure) :
    Peer κ × List (Effect κ) :=
  ({ p with pending := [] },
    p.pending.filterMap fun c =>
      if isDone c.future then none else some (.settle c.future (.error failure)))

/-- Closes a peer: fails the calls that wait, closes the connection, and runs the callbacks. A peer
that is closed already does nothing. -/
def close (p : Peer κ) (isDone : Task.Id → Bool) (cause : Option Text) :
    Peer κ × List (Effect κ) :=
  if p.closed then (p, [])
  else
    let line := match cause with
      | some e => Log.info ("EPC connection closed due to an error: " ++ e)
      | none => Log.debug "EPC connection closed"
    let (q, rejected) :=
      rejectAll { p with closed := true } isDone (.closed closedMessage)
    ({ q with callbacks := [] },
      .log line :: rejected ++ .closeConnection :: p.callbacks.map .callback)

/-- Registers a callback to run on closing; on a closed peer it is to run at once. -/
def addCallback (p : Peer κ) (k : κ) : Peer κ × List (Effect κ) :=
  if p.closed then (p, [.callback k]) else ({ p with callbacks := p.callbacks ++ [k] }, [])

/-- How the treatment of a message ended. -/
inductive Verdict where
  /-- The next message can be treated. -/
  | proceed
  /-- The connection is to be closed, for a cause or without one. -/
  | stop (cause : Option Text)
  deriving DecidableEq

/-- The answer to a call of the other side. -/
def refusalMessage (uid : Sexp) (text : Text) : Sexp :=
  .list [.symbol "epc-error", uid, .string text]

/-- Refuses a call of the other side. `fault` is what writing to the connection would report. -/
def refuse (p : Peer κ) (fault : Option Fault) (uid subject : Sexp) :
    List (Effect κ) × Verdict :=
  match subject.display with
  | .error _ => ([], .stop none)
  | .ok shown =>
    if p.closed then ([], .proceed)
    else
      match frameOf (refusalMessage uid ("Method calls are not supported: " ++ shown)) with
      | .error _ => ([], .stop none)
      | .ok frame =>
        match fault with
        | none => ([.send frame], .proceed)
        | some f =>
          if f.isSystem then
            ([.log (Log.debug ("Failed to answer EPC request: " ++ f.message))], .proceed)
          else ([], .stop none)

/-- What a reply of some kind makes of its call. -/
def replyResult (kind : Text) (value : Sexp) : Except Failure Sexp :=
  if kind = Text.ofString "return" then .ok value
  else if kind = Text.ofString "return-error" ∨ kind = Text.ofString "epc-error" then
    .error (.remote value kind)
  else .error (.protocol ("Unknown reply kind: " ++ kind))

/-- The number of a call, where a value can be one. -/
def uid? : Sexp → Option Nat
  | .int (.ofNat n) => some n
  | _ => none

/-- Attributes a reply to the call with its number and settles that call, unless its caller has
abandoned it. -/
def reply (p : Peer κ) (isDone : Task.Id → Bool) (now : Float) (kind : Text) (uid value : Sexp) :
    Peer κ × List (Effect κ) × Verdict :=
  match (uid? uid).bind fun n => p.pending.find? (·.uid == n) with
  | none =>
    match uid.shown with
    | .ok shown =>
      (p, [.log (Log.debug ("Dropping EPC reply for unknown call id " ++ shown))], .proceed)
    | .error _ => (p, [], .stop none)
  | some call =>
    let p := p.forget call.uid
    if isDone call.future then (p, [], .proceed)
    else
      let elapsed := Decimal.fixedText 1 ((now - call.issuedAt) * 1000)
      (p,
        [.log (Log.debug ("EPC " ++ kind ++ " for " ++ call.method ++ " #" ++
            Text.ofNat call.uid ++ " in " ++ elapsed ++ "ms")),
          .settle call.future (replyResult kind value)],
        .proceed)

/-- The parts of a message: its kind, the number of its call, and what it carries. -/
def parts? : Sexp → Option (Text × Sexp × Sexp)
  | .list (.symbol kind :: uid :: value :: _) => some (kind, uid, value)
  | _ => none

/-- How much of an invalid message is shown. -/
def shownPayload : Nat := 200

/-- Treats a message. One that cannot be attributed to any call fails all that wait. -/
def dispatch (p : Peer κ) (isDone : Task.Id → Bool) (now : Float) (fault : Option Fault)
    (payload : Text) : Peer κ × List (Effect κ) × Verdict :=
  let invalid : Peer κ × List (Effect κ) × Verdict :=
    let (q, rejected) := p.rejectAll isDone (.protocol invalidMessage)
    let line := Log.warning
      ("Received invalid SExp data: " ++ Text.quoted (payload.take shownPayload))
    (q, .log line :: rejected, .proceed)
  match Sexp.read payload with
  | .error (.digits _) => (p, [], .stop none)
  | .error (.malformed _) => invalid
  | .ok message =>
    match parts? message with
    | none => invalid
    | some (kind, uid, value) =>
      if kind = Text.ofString "call" ∨ kind = Text.ofString "methods" then
        let (effects, verdict) := p.refuse fault uid value
        (p, effects, verdict)
      else p.reply isDone now kind uid value

/-- Treats messages one after the other until one of them asks to close the connection. -/
def dispatchAll (p : Peer κ) (isDone : Task.Id → Bool) (now : Float) (fault : Option Fault) :
    List Text → Peer κ × List (Effect κ) × Verdict
  | [] => (p, [], .proceed)
  | payload :: payloads =>
    match p.dispatch isDone now fault payload with
    | (p, effects, .proceed) =>
      let (p, more, verdict) := dispatchAll p isDone now fault payloads
      (p, effects ++ more, verdict)
    | r => r

/-- Treats a chunk of bytes. A corrupt header fails all calls that wait, and the messages that the
chunk completed before it are lost. -/
def receive (p : Peer κ) (isDone : Task.Id → Bool) (now : Float) (fault : Option Fault)
    (data : Bytes) : Peer κ × List (Effect κ) × Verdict :=
  let fed := Frame.feed p.buffer data
  let p := { p with buffer := fed.buffer }
  match fed.payloads with
  | .ok payloads => p.dispatchAll isDone now fault payloads
  | .error e =>
    let (p, rejected) := p.rejectAll isDone (.protocol e.message)
    (p, .log (Log.error ("EPC stream desynchronized: " ++ e.message)) :: rejected,
      .stop (some e.message))

/-- Takes note of the end of the stream. -/
def endOfStream (p : Peer κ) : List (Effect κ) :=
  if p.buffer.isEmpty then []
  else
    [.log (Log.warning ("EPC connection closed mid-frame, discarding " ++
      Text.ofNat p.buffer.length ++ " bytes"))]

end Peer

end SuggestBridge
