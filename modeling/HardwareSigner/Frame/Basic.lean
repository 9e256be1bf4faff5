import HardwareSigner.Frame.Header

/-!
# Frames

A frame is a header followed by its payload, byte for byte. The header of a frame that came from
elsewhere may announce another length than its payload has; `Frame.ofPayload` counts the payload
itself and refuses one that the four bytes of the length cannot express.
-/

namespace HardwareSigner

structure Frame where
  header : Header
  payload : Bytes
  deriving DecidableEq, Repr

namespace Frame

/-- The message type named by the header. -/
def type (f : Frame) : MessageType := f.header.type

/-- Header first, then the payload as it is. -/
def toBytes (f : Frame) : Bytes := f.header.encode ++ f.payload

/-- The frame for a payload, with the length counted from it. -/
def ofPayload (type : MessageType) (payload : Bytes) : Except Failure Frame :=
  if payload.length < UInt32.size then
    .ok ⟨⟨type.code, UInt32.ofNat payload.length⟩, payload⟩
  else .error (.payloadTooLarge payload.length)

/-- The bytes of the frame for a payload. -/
def encode (type : MessageType) (payload : Bytes) : Except Failure Bytes :=
  (ofPayload type payload).map toBytes

end Frame

end HardwareSigner
