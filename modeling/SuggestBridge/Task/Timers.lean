/-!
# Timers

Jobs that are due at a later time, in a binary heap: an entry is never due before the one above it.
Which of several entries that are due together comes first is decided by the heap alone.
-/

namespace SuggestBridge.Task

/-- A job that is due at some time. A cancelled one stays in the heap until it comes to the top. -/
structure Timer (α : Type) where
  due : Float
  id : Nat
  job : α
  cancelled : Bool := false

namespace Timers

variable {α : Type}

/-- Moves an entry up as long as it is due before the one above it, and puts it there. -/
def siftUp (heap : Array (Timer α)) (t : Timer α) : Nat → Nat → Array (Timer α)
  | 0, pos => heap.setIfInBounds pos t
  | fuel + 1, pos =>
    if pos = 0 then heap.setIfInBounds pos t
    else
      let above := (pos - 1) / 2
      match heap[above]? with
      | some p =>
        if t.due < p.due then siftUp (heap.setIfInBounds pos p) t fuel above
        else heap.setIfInBounds pos t
      | none => heap.setIfInBounds pos t

/-- Adds an entry. -/
def push (heap : Array (Timer α)) (t : Timer α) : Array (Timer α) :=
  siftUp (heap.push t) t (heap.size + 1) heap.size

/-- Moves the gap at a position down to a leaf, filling it with the earlier of the two entries
below, the right one where they are due together; gives the position of the leaf. -/
def siftDown (heap : Array (Timer α)) : Nat → Nat → Array (Timer α) × Nat
  | 0, pos => (heap, pos)
  | fuel + 1, pos =>
    let left := 2 * pos + 1
    match heap[left]?, heap[left + 1]? with
    | some l, some r =>
      if l.due < r.due then siftDown (heap.setIfInBounds pos l) fuel left
      else siftDown (heap.setIfInBounds pos r) fuel (left + 1)
    | some l, none => siftDown (heap.setIfInBounds pos l) fuel left
    | none, _ => (heap, pos)

/-- Takes the first entry. -/
def pop? (heap : Array (Timer α)) : Option (Timer α × Array (Timer α)) :=
  match heap[0]?, heap.back? with
  | some top, some last =>
    let heap := heap.pop
    if heap.isEmpty then some (top, heap)
    else
      let (heap, pos) := siftDown heap heap.size 0
      some (top, siftUp heap last heap.size pos)
  | _, _ => none

/-- Marks an entry as cancelled. -/
def cancel (heap : Array (Timer α)) (id : Nat) : Array (Timer α) :=
  heap.map fun t => if t.id = id then { t with cancelled := true } else t

end Timers

end SuggestBridge.Task
