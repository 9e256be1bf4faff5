import HardwareSigner.Body.Field
import HardwareSigner.Codec.Basic

/-!
# Raw messages

A raw message is a type and a payload that somebody else reads. The codec hands payloads through
unchanged, so every payload is a message. The two requests have bodies with one field.
-/

namespace HardwareSigner

/-- A message whose payload is not looked into. -/
structure RawMessage where
  type : MessageType
  payload : Bytes
  deriving DecidableEq, Repr

namespace RawMessage

def codec : RequestCodec RawMessage where
  type := type
  serialize message := .ok message.payload
  deserialize type payload := .ok ⟨type, payload⟩
  ping text := ⟨.ping, Body.write (Utf8.encode text)⟩
  startSession session := ⟨.startSession, Body.write session.bytes⟩

end RawMessage

end HardwareSigner
