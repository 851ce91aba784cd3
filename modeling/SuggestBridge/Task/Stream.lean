import SuggestBridge.Task.Kernel
import SuggestBridge.Text.Basic

/-!
# Byte streams between tasks

A stream collects bytes until a task reads them. At most one task waits for it; the task is woken
when bytes arrive, when the stream ends, and when it fails.
-/

namespace SuggestBridge.Task

/-- Bytes that have arrived and not been read, and the task that waits for more. -/
structure Stream (ε : Type) where
  buffer : Bytes := []
  ended : Bool := false
  failure : Option ε := none
  /-- The future that the waiting task watches. -/
  waiter : Option Id := none

namespace Stream

variable {ρ κ ν ε : Type} [Inhabited ν]

/-- Wakes the waiting task. -/
def notify (k : Kernel ρ κ ν ε) (s : Stream ε) (o : Outcome ν ε) :
    Kernel ρ κ ν ε × Stream ε :=
  match s.waiter with
  | some w => (k.settle w o, { s with waiter := none })
  | none => (k, s)

/-- Bytes arrive. Nothing arrives behind the end. -/
def feed (k : Kernel ρ κ ν ε) (s : Stream ε) (data : Bytes) : Kernel ρ κ ν ε × Stream ε :=
  if data.isEmpty || s.ended then (k, s)
  else notify k { s with buffer := s.buffer ++ data } (.value default)

/-- The stream ends. -/
def finish (k : Kernel ρ κ ν ε) (s : Stream ε) : Kernel ρ κ ν ε × Stream ε :=
  notify k { s with ended := true } (.value default)

/-- The stream fails. -/
def fail (k : Kernel ρ κ ν ε) (s : Stream ε) (e : ε) : Kernel ρ κ ν ε × Stream ε :=
  notify k { s with failure := some e } (.failure e)

/-- What a task that wants to read meets. -/
inductive Readiness (ε : Type) where
  | failed (e : ε)
  | readable
  | blocked

/-- Whether a task can read now. -/
def readiness (s : Stream ε) : Readiness ε :=
  match s.failure with
  | some e => .failed e
  | none => if s.buffer.isEmpty && !s.ended then .blocked else .readable

/-- Takes up to a number of bytes. -/
def take (s : Stream ε) (limit : Nat) : Bytes × Stream ε :=
  (s.buffer.take limit, { s with buffer := s.buffer.drop limit })

/-- Makes the future that a task watches until it can read. -/
def await (k : Kernel ρ κ ν ε) (s : Stream ε) : Kernel ρ κ ν ε × Stream ε × Id :=
  let (k, w) := k.fresh
  (k, { s with waiter := some w }, w)

/-- The line feed at the end of a line. -/
def lineFeed : UInt8 := 0x0A

/-- The first line with its line feed, if it has arrived in full. -/
def line? (s : Stream ε) : Option (Bytes × Stream ε) :=
  if s.buffer.contains lineFeed then
    let line := s.buffer.takeWhile (· != lineFeed) ++ [lineFeed]
    some (line, { s with buffer := s.buffer.drop line.length })
  else none

end Stream

end SuggestBridge.Task
