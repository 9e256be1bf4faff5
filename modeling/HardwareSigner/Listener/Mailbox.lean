import HardwareSigner.Event
import HardwareSigner.Task.Lock

/-!
# The queue of one listener

A mailbox is filled by whoever dispatches events and emptied by one receiver. It holds a limited
number of events; tasks that find it full wait in line, and a place that becomes free belongs to the
first in line, whether that task has noticed yet or not. So a place is free for somebody new only if
there are more places than waiting tasks.

A mailbox remembers what has been taken out of it. What was ever put in is what was taken and what
is still queued, in this order:

> `Mailbox.accepted_accept`: putting an event in adds it at the end of all that was ever put in.
> `Mailbox.accepted_of_take?`, `Mailbox.accepted_drained`: taking events out changes none of it.
-/

namespace HardwareSigner

structure Mailbox (M : Type) where
  /-- The events that have been taken out, oldest first. -/
  taken : List (Event M) := []
  /-- The events that are waiting, oldest first. -/
  queued : List (Event M) := []
  /-- The tasks that wait for a place, in order of arrival. -/
  senders : List TaskId := []
  /-- The listener has been removed. -/
  cancelled : Bool := false
  /-- The receiver is gone. -/
  dropped : Bool := false

namespace Mailbox

variable {M : Type}

/-- Every event that was ever put in, oldest first. -/
def accepted (b : Mailbox M) : List (Event M) := b.taken ++ b.queued

/-- How many events are waiting. -/
def size (b : Mailbox M) : Nat := b.queued.length

/-- Whether the listener is still to be served. -/
def live (b : Mailbox M) : Bool := !b.cancelled && !b.dropped

/-- Whether there is a place that nobody is waiting for. -/
def hasRoom (b : Mailbox M) (capacity : Nat) : Bool := b.size + b.senders.length < capacity

/-- Whether a waiting task has been given a place. -/
def admits (b : Mailbox M) (capacity : Nat) (task : TaskId) : Bool :=
  match b.senders.idxOf? task with
  | none => false
  | some ahead => b.size + ahead < capacity

/-- Puts an event in. -/
def accept (b : Mailbox M) (event : Event M) : Mailbox M :=
  { b with queued := b.queued ++ [event] }

/-- Waits for a place. -/
def await (b : Mailbox M) (task : TaskId) : Mailbox M := { b with senders := b.senders ++ [task] }

/-- Stops waiting for a place. -/
def leave (b : Mailbox M) (task : TaskId) : Mailbox M :=
  { b with senders := b.senders.filter (· != task) }

/-- The oldest waiting event, and the mailbox without it. -/
def take? (b : Mailbox M) : Option (Event M × Mailbox M) :=
  match b.queued with
  | [] => none
  | event :: rest => some (event, { b with taken := b.taken ++ [event], queued := rest })

/-- The mailbox without any waiting events. -/
def drained (b : Mailbox M) : Mailbox M := { b with taken := b.accepted, queued := [] }

/-- The mailbox of a listener that has been removed. -/
def cancel (b : Mailbox M) : Mailbox M := { b with cancelled := true }

/-- The mailbox without its receiver. -/
def drop (b : Mailbox M) : Mailbox M := { b with dropped := true }

@[simp] theorem accepted_accept (b : Mailbox M) (event : Event M) :
    (b.accept event).accepted = b.accepted ++ [event] := by
  simp [accepted, accept]

@[simp] theorem accepted_drained (b : Mailbox M) : b.drained.accepted = b.accepted := by
  simp [accepted, drained]

theorem accepted_of_take? {b rest : Mailbox M} {event : Event M}
    (taken : b.take? = some (event, rest)) : rest.accepted = b.accepted := by
  unfold take? at taken
  split at taken
  · simp at taken
  · next queued =>
    obtain ⟨rfl, rfl⟩ := taken
    simp [accepted, queued]

@[simp] theorem accepted_await (b : Mailbox M) (task : TaskId) :
    (b.await task).accepted = b.accepted := rfl

@[simp] theorem accepted_leave (b : Mailbox M) (task : TaskId) :
    (b.leave task).accepted = b.accepted := rfl

@[simp] theorem accepted_cancel (b : Mailbox M) : b.cancel.accepted = b.accepted := rfl

@[simp] theorem accepted_drop (b : Mailbox M) : b.drop.accepted = b.accepted := rfl

end Mailbox

end HardwareSigner
