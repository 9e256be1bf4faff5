import HardwareSigner.Listener.Operation
import HardwareSigner.Listener.Receiver

/-!
# Mailboxes in scripts

A script holds receivers under names of its own choice. A receiver that is held under a name already
in use takes the place of the one before.
-/

namespace HardwareSigner

/-- A receiver that a script holds. -/
structure Holding where
  id : ListenerId
  box : MailboxId

/-- Receivers by the names under which a script holds them. -/
abbrev Held := List (String × Holding)

namespace Held

/-- Holds a receiver under a name. -/
def hold (held : Held) (name : String) (holding : Holding) : Held :=
  held.filter (fun entry => entry.1 != name) ++ [(name, holding)]

def without (held : Held) (name : String) : Held := held.filter fun entry => entry.1 != name

end Held

/-- What a script may do to a mailbox that it holds. -/
inductive MailboxRequest
  /-- Waits for an event, at most so many milliseconds. -/
  | receiveWithin (ms : UInt64)
  | receive
  | take
  | drain
  | look

/-- What a mailbox looks like from outside. -/
structure MailboxView where
  id : ListenerId
  size : Nat
  closed : Bool

def Holding.view {M : Type} (h : Holding) (r : Registry M) : MailboxView :=
  ⟨h.id, r.pending h.box, r.closed h.box⟩

/-- What comes of looking into a mailbox. -/
inductive Finding (M : Type)
  /-- An event, or the reason why there is none. -/
  | received (outcome : Except Failure (Event M))
  /-- An event, if there was one. -/
  | event? (event : Option (Event M))
  | events (events : List (Event M))
  | view (view : MailboxView)

namespace MailboxRequest

variable {M : Type}

/-- Waiting for an event, if that is what is asked for. -/
def waiting? (request : MailboxRequest) (box : MailboxId) (clock : Nat) : Option Receiving :=
  match request with
  | .receiveWithin ms => some (.within box clock ms)
  | .receive => some (.unlimited box)
  | _ => none

/-- What is found if it needs no waiting, and what that does to the registry. -/
def finding (request : MailboxRequest) (h : Holding) (r : Registry M) :
    Finding M × Option Registry.Act :=
  match request with
  | .take => (.event? ((r.receive? h.box).map Prod.fst), some (.take h.box))
  | .drain => (.events (r.drain h.box).1, some (.drain h.box))
  | _ => (.view (h.view r), none)

/-- What is found after waiting. Who waits without a limit is told no reason. -/
def ofReceipt (request : MailboxRequest) (receipt : Receipt M) : Finding M :=
  match request with
  | .receive => .event? receipt.event?
  | _ => .received receipt.outcome

end MailboxRequest

end HardwareSigner
