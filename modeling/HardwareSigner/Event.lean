import HardwareSigner.MessageType

/-!
# Events

What a listener learns: a message that came from the device, or a change of the connection.
-/

namespace HardwareSigner

/-- A change of the connection. -/
inductive SystemEvent
  /-- The link is open. -/
  | connected
  /-- The connection was closed from this side. -/
  | disconnected
  /-- The other side closed the stream between two frames. -/
  | endOfStream
  /-- Reading stopped because of an error. -/
  | failure
  deriving DecidableEq, Repr

def SystemEvent.display : SystemEvent → String
  | .connected => "CONNECTED"
  | .disconnected => "DISCONNECTED"
  | .endOfStream => "EOF"
  | .failure => "FAILURE"

inductive Event (M : Type)
  /-- A decoded message and the type its frame announced. -/
  | message (type : MessageType) (body : M)
  | system (event : SystemEvent)
  deriving DecidableEq, Repr

namespace Event

variable {M : Type}

def type? : Event M → Option MessageType
  | .message type _ => some type
  | .system _ => none

def body? : Event M → Option M
  | .message _ body => some body
  | .system _ => none

def system? : Event M → Option SystemEvent
  | .message .. => none
  | .system event => some event

def isSystem (e : Event M) : Bool := e.system?.isSome

/-- Whether the event is this change of the connection. -/
def isThe (e : Event M) (event : SystemEvent) : Bool := e.system? == some event

def display : Event M → String
  | .message type _ => type.display
  | .system event => s!"SYSTEM({event.display})"

end Event

end HardwareSigner
