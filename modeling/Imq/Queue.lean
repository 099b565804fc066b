import Imq.Cpp

/-! # The queue (`Queue`)

A `std::queue` is the list of its elements, the oldest first.
-/

namespace Imq

variable {α : Type}

structure Queue (α : Type) where
  queue : List α := []

namespace Queue

/-- `Size`: the 64-bit count, cut off to an `unsigned`. -/
def size (q : Queue α) : UInt32 := (UInt64.ofNat q.queue.length).toUInt32

def push (element : α) : EStateM Exn (Queue α) Unit :=
  modify fun q => { q with queue := q.queue ++ [element] }

/-- `Pop`.  The result is the element that the returned reference refers to. -/
def pop : EStateM Exn (Queue α) α := do
  let q ← get
  if q.size = 0 then
    throw (.outOfRange "Cannot pop from empty queue.")
  match q.queue with
  | popped :: rest =>
    set { q with queue := rest }
    return popped
  | [] => throw (.undefined "front() of an empty queue")

end Queue

inductive QueueCall (α : Type) where
  | push (element : α)
  | pop

/-- A queue with the elements pushed and the elements popped so far, each in order. -/
structure QueueHistory (α : Type) where
  queue : Queue α := {}
  pushed : List α := []
  popped : List α := []

def QueueHistory.perform (s : QueueHistory α) : QueueCall α → QueueHistory α
  | .push element =>
    match (Queue.push element).run s.queue with
    | .ok _ q => { s with queue := q, pushed := s.pushed ++ [element] }
    | .error _ q => { s with queue := q }
  | .pop =>
    match Queue.pop.run s.queue with
    | .ok popped q => { s with queue := q, popped := s.popped ++ [popped] }
    | .error _ q => { s with queue := q }

end Imq
