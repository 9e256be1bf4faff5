import HardwareSigner.Duration
import HardwareSigner.Listener.Id
import HardwareSigner.MessageType
import HardwareSigner.Text.Quoted

/-!
# Failures

Everything that can go wrong, by cause. A cause is a constructor with the data a reader of the
message needs; the wording is in one function for each type. `Failure.cause?` gives the failure
that a larger one wraps.
-/

namespace HardwareSigner

/-- Why a payload is not the message its frame announced. -/
inductive Mismatch
  /-- It is a well-formed message, of another type. -/
  | decodesAs (actual : MessageType)
  /-- It is no message at all, for the given reason. -/
  | unreadable (reason : String)
  deriving DecidableEq, Repr

def Mismatch.message : Mismatch → String
  | .decodesAs actual => "payload decodes as " ++ actual.display
  | .unreadable reason => reason

/-- Why a frame could not be turned into a message. -/
inductive DecodeFailure
  /-- The bytes ended inside a frame. -/
  | shortRead (expected actual : Nat)
  /-- The payload is not what the header announced. -/
  | malformed (type : MessageType) (mismatch : Mismatch)
  /-- The header announced more than is allowed. -/
  | oversized (size limit : UInt32)
  deriving DecidableEq, Repr

def DecodeFailure.message : DecodeFailure → String
  | .shortRead expected actual => s!"Short read: expected {expected} bytes, got {actual}"
  | .malformed type mismatch => s!"Malformed {type.display} payload: {mismatch.message}"
  | .oversized size limit => s!"Payload size {size} exceeds maximum {limit}"

/-- What makes a configuration unusable. -/
inductive SettingsFault
  | zeroPort
  | emptyHost
  | queueCapacity (given : Nat)
  | readTimeout (given : UInt64)
  | maxPayloadSize (given : UInt32)
  deriving DecidableEq, Repr

def SettingsFault.message : SettingsFault → String
  | .zeroPort => "port must not be 0"
  | .emptyHost => "host must not be empty"
  | .queueCapacity n => s!"queue_capacity must be at least 1, got {n}"
  | .readTimeout n => s!"read_timeout_ms must be at least 1, got {n}"
  | .maxPayloadSize n => s!"max_payload_size must be at least 1, got {n}"

/-- Faults that the operating system reports without a text of ours. -/
inductive SystemFault
  | networkUnreachable
  | brokenPipe
  | isDirectory
  | notUtf8
  deriving DecidableEq, Repr

def SystemFault.message : SystemFault → String
  | .networkUnreachable => "network is unreachable"
  | .brokenPipe => "broken pipe"
  | .isDirectory => "is a directory"
  | .notUtf8 => "the text is not valid UTF-8"

/-- Why an input or output operation failed. -/
inductive IoCause
  /-- The link or device gave its own text. -/
  | reported (text : String)
  | system (fault : SystemFault)
  deriving DecidableEq, Repr

def IoCause.message : IoCause → String
  | .reported text => text
  | .system fault => fault.message

/-- Why an operation failed. -/
inductive Failure
  | io (cause : IoCause)
  /-- The host or device could not be reached. -/
  | connect (target : String) (cause : IoCause)
  /-- No attached device has the configured identifiers. -/
  | deviceNotFound (vendor product : UInt16) (serial : Option String)
  /-- The device or the layer below it reported an error. -/
  | hid (text : String)
  | decode (failure : DecodeFailure)
  /-- An outbound payload is too long for the length field of a frame. -/
  | payloadTooLarge (size : Nat)
  /-- A report claims more payload bytes than fit into one. -/
  | reportTooLong (length : UInt8)
  | endOfStream
  | notConnected
  | alreadyConnected
  | duplicateListener (id : ListenerId)
  | unknownListener (id : ListenerId)
  /-- No event came within the allowed time. -/
  | timedOut (after : Duration)
  /-- A payload could not be read as a MessagePack message. -/
  | unreadableMessage (reason : String)
  | settings (fault : SettingsFault)
  /-- A configuration text could not be read. -/
  | unreadableSettings (reason : String)
  /-- A configuration holds a number that its text form cannot. -/
  | unwritableSettings (reason : String)
  deriving DecidableEq, Repr

/-- Whether two operations have come to the same. -/
instance decEqExcept {ε α : Type} [DecidableEq ε] [DecidableEq α] : DecidableEq (Except ε α)
  | .ok a, .ok b => decidable_of_iff (a = b) ⟨congrArg _, Except.ok.inj⟩
  | .error a, .error b => decidable_of_iff (a = b) ⟨congrArg _, Except.error.inj⟩
  | .ok _, .error _ => isFalse nofun
  | .error _, .ok _ => isFalse nofun

namespace Failure

/-- Four digits after `0x`. -/
def identifier (id : UInt16) : String := "0x" ++ Hex.padded 4 id.toNat

def message : Failure → String
  | .io cause => s!"I/O error: {cause.message}"
  | .connect target cause => s!"Failed to connect to {target}: {cause.message}"
  | .deviceNotFound vendor product serial =>
    s!"No matching device attached (vendor {identifier vendor}, product {identifier product}, " ++
      s!"serial {Text.quoted? serial})"
  | .hid text => s!"HID error: {text}"
  | .decode failure => s!"Decode error: {failure.message}"
  | .payloadTooLarge size => s!"Payload of {size} bytes does not fit in a frame"
  | .reportTooLong length => s!"HID report length {length} exceeds 63"
  | .endOfStream => "End of stream"
  | .notConnected => "Not connected"
  | .alreadyConnected => "Already connected"
  | .duplicateListener id => s!"Listener {id.display} is already registered"
  | .unknownListener id => s!"Listener {id.display} is not registered"
  | .timedOut after => s!"Timed out after {after.display} waiting for an event"
  | .unreadableMessage reason => s!"MsgPack decode error: {reason}"
  | .settings fault => s!"Invalid configuration: {fault.message}"
  | .unreadableSettings reason => s!"Configuration parse error: {reason}"
  | .unwritableSettings reason => s!"Configuration serialize error: {reason}"

/-- The wording of the failure that this one wraps. -/
def cause? : Failure → Option String
  | .io cause => some cause.message
  | .connect _ cause => some cause.message
  | .decode failure => some failure.message
  | .unreadableMessage reason => some reason
  | .settings fault => some fault.message
  | .unreadableSettings reason => some reason
  | .unwritableSettings reason => some reason
  | _ => none

end Failure

end HardwareSigner
