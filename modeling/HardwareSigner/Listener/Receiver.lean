import HardwareSigner.Listener.Registry

/-!
# Waiting for an event

A receiver waits for the next event of its mailbox, for a limited time or for as long as somebody
can still put one in. What is already in the mailbox can be taken even when nobody can put anything
in any more, and even when no time is left.
-/

namespace HardwareSigner

/-- A receiver that waits for an event. -/
structure Receiving where
  box : MailboxId
  /-- The time in milliseconds at which it gives up, and how long it will then have waited. -/
  limit? : Option (Nat × Duration)

/-- What comes of waiting. -/
inductive Receipt (M : Type)
  | arrived (event : Event M)
  /-- There is nothing in the mailbox, and nothing will come. -/
  | closed
  | timedOut (after : Duration)

namespace Receiving

variable {M : Type}

/-- Waits from now on for the given number of milliseconds. -/
def within (box : MailboxId) (clock : Nat) (ms : UInt64) : Receiving :=
  ⟨box, some (clock + ms.toNat, .ofMillis ms)⟩

/-- Waits without a limit. -/
def unlimited (box : MailboxId) : Receiving := ⟨box, none⟩

/-- What can be said at the given time, if anything, and what is left of the registry's events. -/
def poll (waiting : Receiving) (clock : Nat) (r : Registry M) : Option (Receipt M × Registry M) :=
  match r.receive? waiting.box with
  | some (event, rest) => some (.arrived event, rest)
  | none =>
    if r.closed waiting.box then some (.closed, r)
    else
      match waiting.limit? with
      | none => none
      | some (latest, after) => if latest ≤ clock then some (.timedOut after, r) else none

def wakeAt? (waiting : Receiving) : Option Nat := waiting.limit?.map Prod.fst

end Receiving

namespace Receipt

variable {M : Type}

/-- The event, or the reason why there is none. -/
def outcome : Receipt M → Except Failure (Event M)
  | .arrived event => .ok event
  | .closed => .error .notConnected
  | .timedOut after => .error (.timedOut after)

/-- The event, if there is one. -/
def event? : Receipt M → Option (Event M)
  | .arrived event => some event
  | _ => none

end Receipt

end HardwareSigner
