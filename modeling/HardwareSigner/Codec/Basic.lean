import HardwareSigner.Frame.Reader
import HardwareSigner.SessionId

/-!
# Codecs

A codec turns messages of a type `M` into payloads and back. Between a codec and the frames there
are two rules. A frame carries the code of its message's type. And of a payload that a codec cannot
read, the frame is to blame: it is malformed, unless the codec itself has said what is wrong with
it.
-/

namespace HardwareSigner

/-- How messages of a type travel as payloads. -/
structure Codec (M : Type) where
  /-- The type a message is sent under. -/
  type : M → MessageType
  serialize : M → Except Failure Bytes
  /-- Reads the payload of a frame that announced the given type. -/
  deserialize : MessageType → Bytes → Except Failure M

/-- A codec for messages among which are the requests that clients make for themselves. -/
structure RequestCodec (M : Type) extends Codec M where
  /-- A request to send back a text. -/
  ping : String → M
  /-- A request to start the session with this identifier. -/
  startSession : SessionId → M

namespace Codec

variable {M : Type}

/-- The frame for a message, as bytes. -/
def encode (codec : Codec M) (message : M) : Except Failure Bytes := do
  Frame.encode (codec.type message) (← codec.serialize message)

/-- The message in a frame. -/
def decode (codec : Codec M) (frame : Frame) : Except DecodeFailure M :=
  match codec.deserialize frame.type frame.payload with
  | .ok message => .ok message
  | .error (.decode failure) => .error failure
  | .error failure => .error (.malformed frame.type (.unreadable failure.message))

/-- The next message of a source with the type its frame announced, `none` at a clean end. -/
def read (codec : Codec M) (s : Source) (limit : UInt32) :
    Except Failure (Option (MessageType × M)) × Source :=
  match Frame.read s limit with
  | (.error failure, after) => (.error failure, after)
  | (.ok none, after) => (.ok none, after)
  | (.ok (some frame), after) =>
    match codec.decode frame with
    | .error failure => (.error (.decode failure), after)
    | .ok message => (.ok (some (frame.type, message)), after)

end Codec

end HardwareSigner
