import HardwareSigner.Codec.Basic
import HardwareSigner.MessagePack.Record

/-!
# Messages as MessagePack values

A message set says which MessagePack value each of its messages is, and under which type it is
sent. The payload is that value in shortest form. A payload is read up to the end of its value, what
follows is not looked at; a message that is well formed but of another type than its frame announced
is refused.

Three sets are here. In `TaggedMessage` the variant name is the one key of an outer map that holds
the fields; in `TypedMessage` it is the value of the field `type` beside the others;
`FeaturesMessage` has no variants.
-/

namespace HardwareSigner

open MessagePack (Value)

/-- How messages of a type are MessagePack values. -/
structure MessageSet (M : Type) where
  type : M → MessageType
  toValue : M → Value
  /-- How deep the values of the set may be nested. -/
  depth : Nat
  ofValue? : Value → Option M

namespace MessageSet

variable {M : Type}

/-- The depth at which reading gives up inside one value. -/
def maxDepth : Nat := 1023

def codec (set : MessageSet M) : Codec M where
  type := set.type
  serialize message := .ok (set.toValue message).write
  deserialize type payload :=
    match (Value.read? set.depth payload).bind fun read => set.ofValue? read.1 with
    | none => .error (.unreadableMessage "not a message of this set")
    | some message =>
      if set.type message = type then .ok message
      else .error (.decode (.malformed type (.decodesAs (set.type message))))

end MessageSet

/-! ## Variant names outside -/

/-- Messages whose variant name is the key of an outer map. -/
inductive TaggedMessage
  | ping (message : String)
  | startSession (session : SessionId)
  | success (message : Option String)
  deriving DecidableEq

namespace TaggedMessage

open MessagePack

def type : TaggedMessage → MessageType
  | .ping _ => .ping
  | .startSession _ => .startSession
  | .success _ => .success

/-- The variant names in order of declaration. -/
def variants : List String := ["Ping", "Initialize", "Success"]

def toValue : TaggedMessage → Value
  | .ping message => writeRecord [("Ping", writeRecord [("message", name message)])]
  | .startSession session =>
    writeRecord [("Initialize", writeRecord [("session_id", writeOctets session.bytes)])]
  | .success message =>
    writeRecord [("Success", writeRecord [("message", (message.map name).getD .nil)])]

/-- Eight numbers below 256, or eight bytes. -/
def session? : Value → Option SessionId
  | .binary data => SessionId.ofBytes? data
  | value => (octets? value).bind SessionId.ofBytes?

/-- A text, or `nil` for none. -/
def optionalText? : Value → Option (Option String)
  | .nil => some none
  | value => (text? value).map some

def ofFields? (variant : Nat) (content : Value) : Option TaggedMessage :=
  match variant with
  | 0 =>
    match readRecord? .anyWidth ["message"] content with
    | some [some message] => (text? message).map .ping
    | _ => none
  | 1 =>
    match readRecord? .anyWidth ["session_id"] content with
    | some [some session] => (session? session).map .startSession
    | _ => none
  | 2 =>
    match readRecord? .anyWidth ["message"] content with
    | some [some message] => (optionalText? message).map .success
    | some [none] => some (.success none)
    | _ => none
  | _ => none

def ofValue? : Value → Option TaggedMessage
  | .map [(variant, content)] =>
    match nameIndex? .anyWidth variants variant with
    | some (some index) => ofFields? index content
    | _ => none
  | _ => none

/-- The outer map is not counted into the depth. -/
def set : MessageSet TaggedMessage where
  type := type
  toValue := toValue
  depth := MessageSet.maxDepth + 1
  ofValue? := ofValue?

def codec : RequestCodec TaggedMessage where
  toCodec := set.codec
  ping := .ping
  startSession := .startSession

end TaggedMessage

/-! ## Variant names inside -/

/-- Messages whose variant name is the value of the field `type`. -/
inductive TypedMessage
  | ping (message : String)
  | startSession (session : Bytes)
  | success (message : String)
  deriving DecidableEq

namespace TypedMessage

open MessagePack

def type : TypedMessage → MessageType
  | .ping _ => .ping
  | .startSession _ => .startSession
  | .success _ => .success

/-- The variant names in order of declaration. -/
def variants : List String := ["Ping", "Initialize", "Success"]

/-- The field that holds the variant name. -/
def tag : String := "type"

def toValue : TypedMessage → Value
  | .ping message => writeRecord [(tag, name "Ping"), ("message", name message)]
  | .startSession session =>
    writeRecord [(tag, name "Initialize"), ("session_id", writeOctets session)]
  | .success message => writeRecord [(tag, name "Success"), ("message", name message)]

def ofFields? (variant : Nat) (content : Value) : Option TypedMessage :=
  match variant with
  | 0 =>
    match readRecord? .byteOrLong ["message"] content with
    | some [some message] => (text? message).map .ping
    | _ => none
  | 1 =>
    match readRecord? .byteOrLong ["session_id"] content with
    | some [some session] => (octets? session).map .startSession
    | _ => none
  | 2 =>
    match readRecord? .byteOrLong ["message"] content with
    | some [some message] => (text? message).map .success
    | _ => none
  | _ => none

/-- Whether a key is the name of the tag; a position never is. -/
def isTag : Value → Bool
  | .text utf8 | .binary utf8 => utf8 == Utf8.encode tag
  | _ => false

/-- The tag of a map, which is there exactly once, and the other entries; or the tag that opens an
array, and the other items. -/
def splitTag? : Value → Option (Value × Value)
  | .map entries =>
    match entries.filter fun entry => isTag entry.1 with
    | [(_, variant)] => some (variant, .map (entries.filter fun entry => !isTag entry.1))
    | _ => none
  | .array (variant :: items) => some (variant, .array items)
  | _ => none

def ofValue? (value : Value) : Option TypedMessage :=
  match splitTag? value with
  | none => none
  | some (variant, content) =>
    match nameIndex? .anyWidth variants variant with
    | some (some index) => ofFields? index content
    | _ => none

def set : MessageSet TypedMessage where
  type := type
  toValue := toValue
  depth := MessageSet.maxDepth
  ofValue? := ofValue?

def codec : RequestCodec TypedMessage where
  toCodec := set.codec
  ping := .ping
  startSession session := .startSession session.bytes

end TypedMessage

/-! ## No variants -/

/-- What a device says about itself. -/
structure FeaturesMessage where
  vendor : String
  major : UInt32
  deriving DecidableEq

namespace FeaturesMessage

open MessagePack

def toValue (message : FeaturesMessage) : Value :=
  writeRecord [("vendor", name message.vendor), ("major", .unsigned 32 message.major.toNat)]

def ofValue? (value : Value) : Option FeaturesMessage :=
  match readRecord? .anyWidth ["vendor", "major"] value with
  | some [some vendor, some major] => do
    return ⟨← text? vendor, UInt32.ofNat (← natBelow? UInt32.size major)⟩
  | _ => none

def set : MessageSet FeaturesMessage where
  type _ := .features
  toValue := toValue
  depth := MessageSet.maxDepth
  ofValue? := ofValue?

def codec : Codec FeaturesMessage := set.codec

end FeaturesMessage

end HardwareSigner
