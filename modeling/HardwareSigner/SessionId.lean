import HardwareSigner.Text.Hex

/-!
# Session identifiers

Eight bytes that a client sends when it starts a session, so that the device can tell sessions
apart. They are shown as sixteen hexadecimal digits.
-/

namespace HardwareSigner

structure SessionId where
  bytes : Bytes
  length_eq : bytes.length = 8 := by decide
  deriving DecidableEq

namespace SessionId

/-- The identifier with these bytes, if there are eight of them. -/
def ofBytes? (bytes : Bytes) : Option SessionId :=
  if h : bytes.length = 8 then some ⟨bytes, h⟩ else none

def display (id : SessionId) : String := Hex.encode id.bytes

end SessionId

end HardwareSigner
