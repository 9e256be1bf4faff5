import HardwareSigner.Codec.Packed
import HardwareSigner.Codec.Raw
import HardwareSigner.Proofs.Frame.Blocks
import HardwareSigner.Proofs.Frame.Reading
import HardwareSigner.Proofs.MessagePack.Records

/-!
# Messages come back as they were sent, and under their own type

A message is serialized, its payload is put into a frame, and the frame is read from a source that
hands out its bytes in pieces of any size. What comes back is the same message under the type it was
sent under, and the source stands right behind the frame (`Codec.Survives`).

For a set of messages that are MessagePack values this rests on one fact about the set, that it
reads what it writes (`MessageSet.Lawful`); the rest is the same for all sets. A payload that is a
message of another type than announced is refused with its own type named, and no payload is ever
taken for a message of another type than announced (`MessageSet.NeverMistaken`).

> `messages_survive`: so it is for raw messages under any code and for the three sets.
-/

namespace HardwareSigner

open MessagePack
open BigEndian (bound)

/-! ## Through a frame -/

/-- A written frame in front of a fair source is what is read first, and what follows it is left. -/
theorem Frame.read_of_written {s : Source} (fair : s.Fair) {limit : UInt32}
    {message : MessageType × Bytes} {more : Bytes} (fits : message.2.length ≤ limit.toNat)
    (holds : s.rest = (written message).toBytes ++ more) :
    ∃ after, Frame.read s limit = (.ok (some (written message)), after) ∧ after.rest = more := by
  obtain ⟨after, -, step⟩ := read_of_fair fair limit
  obtain ⟨counted, allowed⟩ := counted_written fits
  have front : (gathered s limit).next =
      .frame (written message) ((FrameBuffer.empty limit).extend more) := by
    rw [gathered, holds]
    exact FrameBuffer.next_of_written counted allowed more
  rw [front] at step
  refine ⟨after, step.1, ?_⟩
  exact (congrArg FrameBuffer.pending step.2).symm

namespace Codec

variable {M : Type}

/-- The message comes back from its frame, unless its payload is larger than is accepted. -/
def Survives (codec : Codec M) (message : M) : Prop :=
  ∃ payload, codec.serialize message = .ok payload ∧
    ∀ limit : UInt32, payload.length ≤ limit.toNat →
      ∃ block, codec.encode message = .ok block ∧
        ∀ (s : Source) (more : Bytes), s.Fair → s.rest = block ++ more →
          ∃ after, codec.read s limit = (.ok (some (codec.type message, message)), after) ∧
            after.rest = more

/-- A message survives if its code names its type and its payload is read as the message. -/
theorem survives_of_deserialize {codec : Codec M} {message : M} {payload : Bytes}
    (named : MessageType.ofCode (codec.type message).code = codec.type message)
    (written : codec.serialize message = .ok payload)
    (read : payload.length < UInt32.size →
      codec.deserialize (codec.type message) payload = .ok message) :
    codec.Survives message := by
  refine ⟨payload, written, fun limit fits => ?_⟩
  have short : payload.length < UInt32.size := Nat.lt_of_le_of_lt fits limit.toNat_lt
  have framed := @Frame.ofPayload_written limit (codec.type message, payload) fits
  refine ⟨(Frame.written (codec.type message, payload)).toBytes, ?_, ?_⟩
  · rw [Codec.encode, written]
    show Frame.encode (codec.type message) payload = _
    rw [Frame.encode, framed]
    rfl
  · intro s more fair holds
    obtain ⟨after, found, left⟩ := Frame.read_of_written fair fits holds
    refine ⟨after, ?_, left⟩
    have type : (Frame.written (codec.type message, payload)).type = codec.type message := named
    have decoded : codec.decode (Frame.written (codec.type message, payload)) = .ok message := by
      unfold Codec.decode
      rw [type, show (Frame.written (codec.type message, payload)).payload = payload from rfl,
        read short]
    rw [Codec.read, found]
    simp only [decoded, type]

end Codec

/-! ## Sets of messages -/

namespace MessageSet

variable {M : Type} {set : MessageSet M}

/-- The set reads what it writes: each message is written like a value in shortest form that is read
as the message. -/
def Lawful (set : MessageSet M) : Prop :=
  ∀ message, ∃ value : Value, value.Shortest set.depth ∧
    value.write = (set.toValue message).write ∧ set.ofValue? value = some message

/-- The payload of a message is read as the message, whatever type is asked for. -/
theorem Lawful.deserialize (lawful : set.Lawful) {message : M}
    (short : (set.toValue message).write.length < UInt32.size) (type : MessageType) :
    set.codec.deserialize type (set.toValue message).write =
      if set.type message = type then .ok message
      else .error (.decode (.malformed type (.decodesAs (set.type message)))) := by
  obtain ⟨value, shortest, same, read⟩ := lawful message
  rw [← same] at short ⊢
  have back : Value.read? set.depth value.write = some (value, []) := by
    have all := Value.read?_write shortest short []
    rwa [List.append_nil] at all
  unfold codec
  simp only [back, Option.bind_some, read]

theorem Lawful.survives (lawful : set.Lawful) {message : M}
    (named : MessageType.ofCode (set.type message).code = set.type message) :
    set.codec.Survives message := by
  have written : set.codec.serialize message = .ok (set.toValue message).write := rfl
  refine Codec.survives_of_deserialize named written fun short => ?_
  rw [lawful.deserialize short]
  exact if_pos rfl

/-- No message of the set is taken for one of another type. -/
structure NeverMistaken (set : MessageSet M) : Prop where
  /-- A message behind another type is refused for being what it is. -/
  refused : ∀ (message : M) (payload : Bytes), set.codec.serialize message = .ok payload →
    payload.length < UInt32.size → ∀ type : MessageType, type ≠ set.codec.type message →
      ∃ mismatch : Mismatch,
        set.codec.deserialize type payload = .error (.decode (.malformed type mismatch)) ∧
          mismatch.message = "payload decodes as " ++ (set.codec.type message).display
  /-- What is accepted, of all payloads, is of the type that was announced. -/
  honest : ∀ (type : MessageType) (payload : Bytes) (message : M),
    set.codec.deserialize type payload = .ok message → set.codec.type message = type

theorem type_of_deserialize {type : MessageType} {payload : Bytes} {message : M}
    (read : set.codec.deserialize type payload = .ok message) : set.type message = type := by
  unfold codec at read
  simp only at read
  split at read
  next => cases read
  next found _ =>
    split at read
    next same =>
      cases read
      exact same
    next => cases read

theorem Lawful.neverMistaken (lawful : set.Lawful) : set.NeverMistaken where
  refused := by
    intro message payload written short type other
    obtain rfl : (set.toValue message).write = payload := Except.ok.inj written
    refine ⟨.decodesAs (set.type message), ?_, rfl⟩
    rw [lawful.deserialize short]
    exact if_neg fun same => other same.symm
  honest := fun _ _ _ => type_of_deserialize

end MessageSet

/-! ## The sets -/

/-- A set whose values are in shortest form as they are. -/
theorem MessageSet.lawful_of_shortest {M : Type} {set : MessageSet M}
    (shortest : ∀ message, (set.toValue message).Shortest set.depth)
    (read : ∀ message, set.ofValue? (set.toValue message) = some message) : set.Lawful :=
  fun message => ⟨set.toValue message, shortest message, rfl, read message⟩

namespace TaggedMessage

/-- The one entry of the outer map says which variant the fields belong to. -/
theorem ofValue?_writeRecord {variant : String} {index : Nat}
    (found : (variants.findIdx? fun n => n = variant) = some index) (content : Value) :
    ofValue? (writeRecord [(variant, content)]) = ofFields? index content := by
  have named : nameIndex? .anyWidth variants (name variant) = some (some index) := by
    rw [nameIndex?_name, found]
  simp only [writeRecord, List.map_cons, List.map_nil, ofValue?, named]

theorem session?_writeOctets (session : SessionId) :
    session? (writeOctets session.bytes) = some session := by
  show (octets? (writeOctets session.bytes)).bind SessionId.ofBytes? = _
  rw [octets?_writeOctets]
  exact dif_pos session.length_eq

/-- Only `nil` is no text. -/
theorem optionalText?_getD (message : Option String) :
    optionalText? ((message.map name).getD .nil) = some message := by
  cases message with
  | none => rfl
  | some text =>
    show (text? (name text)).map some = _
    rw [text?_name]
    rfl

theorem ofValue?_toValue (message : TaggedMessage) : ofValue? (toValue message) = some message := by
  cases message with
  | ping text =>
    have variant : (variants.findIdx? fun n => n = "Ping") = some 0 := by decide
    rw [toValue, ofValue?_writeRecord variant, ofFields?, readRecord?_one]
    simp only [text?_name, Option.map_some]
  | startSession session =>
    have variant : (variants.findIdx? fun n => n = "Initialize") = some 1 := by decide
    rw [toValue, ofValue?_writeRecord variant, ofFields?, readRecord?_one]
    simp only [session?_writeOctets, Option.map_some]
  | success text =>
    have variant : (variants.findIdx? fun n => n = "Success") = some 2 := by decide
    rw [toValue, ofValue?_writeRecord variant, ofFields?, readRecord?_one]
    simp only [optionalText?_getD, Option.map_some]

/-- Three levels, of which the outermost is the variant name. -/
theorem shortest_toValue (message : TaggedMessage) : (toValue message).Shortest set.depth := by
  have record : ∀ (variant field : String) (value : Value), value.Shortest 1022 →
      (writeRecord [(variant, writeRecord [(field, value)])]).Shortest 1024 := by
    intro variant field value shortest
    refine Value.shortest_writeRecord (List.forall_mem_singleton.mpr ?_)
    exact Value.shortest_writeRecord (List.forall_mem_singleton.mpr shortest)
  cases message with
  | ping text => exact record _ _ _ (Value.shortest_name _ text)
  | startSession session => exact record _ _ _ (Value.shortest_writeOctets _ session.bytes)
  | success text =>
    refine record _ _ _ ?_
    cases text with
    | none => exact .nil
    | some text => exact Value.shortest_name _ text

theorem lawful : set.Lawful :=
  MessageSet.lawful_of_shortest shortest_toValue ofValue?_toValue

end TaggedMessage

namespace TypedMessage

theorem isTag_name (text : String) : isTag (name text) = decide (text = tag) := by
  show (Utf8.encode text == Utf8.encode tag) = _
  rw [Bool.eq_iff_iff, beq_iff_eq, decide_eq_true_iff, Utf8.encode_inj]

/-- The tag of a written message is split off, and the record of the field is left. -/
theorem splitTag?_writeRecord {field : String} (other : field ≠ tag) (variant value : Value) :
    splitTag? (writeRecord [(tag, variant), (field, value)]) =
      some (variant, writeRecord [(field, value)]) := by
  simp [writeRecord, splitTag?, isTag_name, other]

/-- The tag says which variant the field belongs to. -/
theorem ofValue?_writeRecord {variant field : String} {index : Nat}
    (found : (variants.findIdx? fun n => n = variant) = some index) (other : field ≠ tag)
    (value : Value) :
    ofValue? (writeRecord [(tag, name variant), (field, value)]) =
      ofFields? index (writeRecord [(field, value)]) := by
  have named : nameIndex? .anyWidth variants (name variant) = some (some index) := by
    rw [nameIndex?_name, found]
  simp only [ofValue?, splitTag?_writeRecord other, named]

theorem ofValue?_toValue (message : TypedMessage) : ofValue? (toValue message) = some message := by
  cases message with
  | ping text =>
    have variant : (variants.findIdx? fun n => n = "Ping") = some 0 := by decide
    rw [toValue, ofValue?_writeRecord variant (by decide), ofFields?, readRecord?_one]
    simp only [text?_name, Option.map_some]
  | startSession session =>
    have variant : (variants.findIdx? fun n => n = "Initialize") = some 1 := by decide
    rw [toValue, ofValue?_writeRecord variant (by decide), ofFields?, readRecord?_one]
    simp only [octets?_writeOctets, Option.map_some]
  | success text =>
    have variant : (variants.findIdx? fun n => n = "Success") = some 2 := by decide
    rw [toValue, ofValue?_writeRecord variant (by decide), ofFields?, readRecord?_one]
    simp only [text?_name, Option.map_some]

theorem shortest_toValue (message : TypedMessage) : (toValue message).Shortest set.depth := by
  have record : ∀ (variant field : String) (value : Value), value.Shortest 1022 →
      (writeRecord [(tag, name variant), (field, value)]).Shortest 1023 := by
    intro variant field value shortest
    refine Value.shortest_writeRecord ?_
    rw [List.forall_mem_cons, List.forall_mem_singleton]
    exact ⟨Value.shortest_name _ variant, shortest⟩
  cases message with
  | ping text => exact record _ _ _ (Value.shortest_name _ text)
  | startSession session => exact record _ _ _ (Value.shortest_writeOctets _ session)
  | success text => exact record _ _ _ (Value.shortest_name _ text)

theorem lawful : set.Lawful :=
  MessageSet.lawful_of_shortest shortest_toValue ofValue?_toValue

end TypedMessage

namespace FeaturesMessage

/-- What the message is with its number marked as it is written. -/
def writtenValue (message : FeaturesMessage) : Value :=
  let major := message.major.toNat
  writeRecord [("vendor", name message.vendor), ("major", .unsigned (unsignedBits major) major)]

theorem ofValue?_writtenValue (message : FeaturesMessage) :
    ofValue? (writtenValue message) = some message := by
  have different : ["vendor", "major"].Nodup := by decide
  have fields : readRecord? .anyWidth ["vendor", "major"] (writtenValue message) =
      some [some (name message.vendor),
        some (.unsigned (unsignedBits message.major.toNat) message.major.toNat)] :=
    readRecord?_writeRecord .anyWidth [("vendor", _), ("major", _)] different
  have major : natBelow? UInt32.size
      (.unsigned (unsignedBits message.major.toNat) message.major.toNat) =
        some message.major.toNat := natBelow?_unsigned message.major.toNat_lt
  rw [ofValue?, fields]
  simp only [text?_name, major]
  simp

theorem lawful : set.Lawful := by
  intro message
  refine ⟨writtenValue message, ?_, rfl, ofValue?_writtenValue message⟩
  have fits : message.major.toNat < bound 8 := Nat.lt_trans message.major.toNat_lt (by decide)
  show (writtenValue message).Shortest 1023
  refine Value.shortest_writeRecord ?_
  rw [List.forall_mem_cons, List.forall_mem_singleton]
  exact ⟨Value.shortest_name _ message.vendor, .unsigned fits⟩

end FeaturesMessage

theorem RawMessage.survives (code : UInt16) (payload : Bytes) :
    RawMessage.codec.toCodec.Survives ⟨.ofCode code, payload⟩ := by
  have named : MessageType.ofCode (MessageType.ofCode code).code = .ofCode code := by
    rw [MessageType.code_ofCode]
  exact Codec.survives_of_deserialize named rfl fun _ => rfl

/-! ## All messages -/

/-- Messages come back as they were sent, whatever bytes and texts they hold, and a set never takes
a payload for a message of another type than announced. -/
theorem messages_survive :
    (∀ (code : UInt16) (payload : Bytes),
      RawMessage.codec.toCodec.Survives ⟨.ofCode code, payload⟩) ∧
    (∀ message : TaggedMessage, TaggedMessage.codec.toCodec.Survives message) ∧
    (∀ message : TypedMessage, TypedMessage.codec.toCodec.Survives message) ∧
    (∀ message : FeaturesMessage, FeaturesMessage.codec.Survives message) ∧
    TaggedMessage.set.NeverMistaken ∧ TypedMessage.set.NeverMistaken ∧
    FeaturesMessage.set.NeverMistaken := by
  refine ⟨RawMessage.survives, ?_, ?_, ?_, TaggedMessage.lawful.neverMistaken,
    TypedMessage.lawful.neverMistaken, FeaturesMessage.lawful.neverMistaken⟩
  · intro message
    exact TaggedMessage.lawful.survives (by cases message <;> rfl)
  · intro message
    exact TypedMessage.lawful.survives (by cases message <;> rfl)
  · intro message
    exact FeaturesMessage.lawful.survives rfl

/-- A text of 32 bytes, the first length that does not stand in the marker, read three bytes at a
time with one byte behind the frame; and the same payload behind another type. -/
theorem ping_of_32_bytes_survives :
    (∃ block after,
        TaggedMessage.codec.encode (.ping "01234567890123456789012345678901") = .ok block ∧
      TaggedMessage.codec.read ⟨block ++ [7], fun _ => 3, 0, none⟩ 49 =
        (.ok (some (.ping, .ping "01234567890123456789012345678901")), after) ∧ after.rest = [7]) ∧
    ∃ mismatch : Mismatch,
      TaggedMessage.codec.deserialize .success
          (TaggedMessage.toValue (.ping "01234567890123456789012345678901")).write =
        .error (.decode (.malformed .success mismatch)) ∧
      mismatch.message = "payload decodes as PING" := by
  have length :
      (TaggedMessage.toValue (.ping "01234567890123456789012345678901")).write.length = 49 := by
    decide
  constructor
  · obtain ⟨payload, written, survives⟩ :=
      messages_survive.2.1 (.ping "01234567890123456789012345678901")
    obtain rfl := Except.ok.inj written
    obtain ⟨block, encoded, read⟩ := survives 49 (Nat.le_of_eq length)
    obtain ⟨after, found, left⟩ :=
      read ⟨block ++ [7], fun _ => 3, 0, none⟩ [7] ⟨rfl, fun _ => Nat.succ_pos 2⟩ rfl
    exact ⟨block, after, encoded, found, left⟩
  · exact messages_survive.2.2.2.2.1.refused (.ping "01234567890123456789012345678901") _ rfl
      (length ▸ by decide) .success (by decide)

end HardwareSigner
