import SuggestBridge.Sexp.Display

/-!
# Failures

Why a call, a startup or a request can fail.
-/

namespace SuggestBridge

/-- What kind of fault the system or a callback reported. -/
inductive FaultKind where
  /-- A fault of the operating system or of a connection. -/
  | system (name : Text)
  /-- An operation of the operating system took too long. -/
  | timeout
  /-- The process that was meant has gone. -/
  | noSuchProcess
  /-- Nothing listens at the other end. -/
  | connectionRefused
  /-- Any other fault. -/
  | other (name : Text)
  deriving DecidableEq

/-- A fault that the system or a callback reported. -/
structure Fault where
  kind : FaultKind
  message : Text
  deriving DecidableEq

/-- Whether a fault comes from the operating system or a connection. -/
def Fault.isSystem (f : Fault) : Bool :=
  match f.kind with
  | .other _ => false
  | _ => true

/-- Why a call, a startup or a request failed. -/
inductive Failure where
  /-- The connection is closed, or closed before the reply. -/
  | closed (message : Text)
  /-- The other side sent what cannot be decoded or attributed. -/
  | protocol (message : Text)
  /-- The other side answered with an error. -/
  | remote (payload : Sexp) (kind : Text)
  /-- The arguments cannot be sent; nothing was. -/
  | unencodable (message : Text)
  /-- The daemon could not be started. -/
  | startup (message : Text)
  /-- The daemon announced no usable port. -/
  | handshake (message : Text)
  /-- An integer exceeds the limit on digits. -/
  | digits (e : DigitLimit)
  /-- The system or a callback reported a fault. -/
  | fault (f : Fault)

/-- The wording of a failure. -/
def Failure.message : Failure → Text
  | .closed m => m
  | .protocol m => m
  | .remote payload _ =>
    match payload.display with
    | .ok t => t
    | .error e => e.message
  | .unencodable m => m
  | .startup m => m
  | .handshake m => m
  | .digits e => e.message
  | .fault f => f.message

/-- Whether a failure comes from the operating system or a connection. -/
def Failure.isSystem : Failure → Bool
  | .fault f => f.isSystem
  | _ => false

end SuggestBridge
