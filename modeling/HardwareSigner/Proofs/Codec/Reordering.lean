import HardwareSigner.Proofs.Codec.RoundTrip
import HardwareSigner.Proofs.MessagePack.Order

/-!
# Messages do not depend on the order of their fields

The fields of a message are the entries of a map, in the two sets with variants either of the one
inside the variant (`ReorderedInside`) or of one that holds the variant name as well. A payload in
which these entries stand in another order, with more entries under other names among them, is still
read as the message: the names say which field is which, and what is not known is passed over.

> `reordered_messages_survive`: so it is for every message of the three sets, for every order and
> for all strangers that are plain values.
-/

namespace HardwareSigner

open MessagePack
open BigEndian (bound)

namespace MessagePack

/-- The same inside the only entry of an outer map. -/
inductive ReorderedInside : Value → Bytes → Prop
  | intro {key value : Value} {payload : Bytes} (reordered : Reordered value payload) :
    ReorderedInside (.map [(key, value)]) (writeMapSize 1 ++ key.write ++ payload)

/-- An outer map with one entry is read as that entry. -/
theorem readAs_outer {limit : Nat} {key value : Value} {payload : Bytes}
    (named : ReadAs (Value.read? limit) key.write key)
    (valued : ReadAs (Value.read? limit) payload value) :
    ReadAs (Value.read? (limit + 1)) (writeMapSize 1 ++ key.write ++ payload)
      (.map [(key, value)]) := by
  have marks : Sizes.map.Marks [key.write ++ payload].length (writeMapSize 1) :=
    .inside (show 1 < 16 by decide)
  have read := readAs_map marks (.cons (readAs_entry named valued) .nil)
  rwa [List.flatten_cons, List.flatten_nil, List.append_nil, ← List.append_assoc] at read

end MessagePack

namespace MessageSet

variable {M : Type}

/-- A payload that is read as a value of the message is read as the message. -/
theorem deserialize_of_readAs (set : MessageSet M) {message : M} {payload : Bytes} {value : Value}
    (read : ReadAs (Value.read? set.depth) payload value)
    (same : set.ofValue? value = some message) :
    set.codec.deserialize (set.type message) payload = .ok message := by
  have all := read []
  rw [List.append_nil] at all
  unfold codec
  simp only [all, Option.bind_some, same, if_true]

end MessageSet

/-! ## Variant names outside -/

namespace TaggedMessage

/-- The variant of a message and its only field. -/
def field : TaggedMessage → String × (String × Value)
  | .ping message => ("Ping", ("message", name message))
  | .startSession session => ("Initialize", ("session_id", writeOctets session.bytes))
  | .success message => ("Success", ("message", (message.map name).getD .nil))

theorem toValue_eq (message : TaggedMessage) :
    message.toValue = .map [(name message.field.1, .map (entriesOf [message.field.2]))] := by
  cases message <;> rfl

theorem shortest_field (message : TaggedMessage) : message.field.2.2.Shortest 1022 := by
  cases message with
  | ping text => exact Value.shortest_name _ text
  | startSession session => exact Value.shortest_writeOctets _ session.bytes
  | success text =>
    cases text with
    | none => exact .nil
    | some text => exact Value.shortest_name _ text

/-- The field may stand anywhere among strangers. -/
theorem ofValue?_of_perm (message : TaggedMessage) {entries others : List (Value × Value)}
    (order : entries.Perm (entriesOf [message.field.2] ++ others))
    (unnamed : ∀ other ∈ others, Unnamed [message.field.2.1] other) :
    ofValue? (.map [(name message.field.1, .map entries)]) = some message := by
  have fields : readRecord? .anyWidth [message.field.2.1] (.map entries) =
      some [some message.field.2.2] :=
    readRecord?_of_perm .anyWidth [message.field.2] (by simp) order unnamed
  cases message with
  | ping text =>
    have variant : (variants.findIdx? fun n => n = "Ping") = some 0 := by decide
    refine (ofValue?_writeRecord variant _).trans ?_
    simp only [ofFields?, field] at fields ⊢
    simp only [fields, text?_name, Option.map_some]
  | startSession session =>
    have variant : (variants.findIdx? fun n => n = "Initialize") = some 1 := by decide
    refine (ofValue?_writeRecord variant _).trans ?_
    simp only [ofFields?, field] at fields ⊢
    simp only [fields, session?_writeOctets, Option.map_some]
  | success text =>
    have variant : (variants.findIdx? fun n => n = "Success") = some 2 := by decide
    refine (ofValue?_writeRecord variant _).trans ?_
    simp only [ofFields?, field] at fields ⊢
    simp only [fields, optionalText?_getD, Option.map_some]

theorem short_variant (message : TaggedMessage) :
    (name message.field.1).write.length < bound 4 := by
  have all : ∀ variant ∈ variants, (name variant).write.length < bound 4 := by decide
  refine all _ ?_
  cases message <;> simp [field, variants]

theorem deserialize_of_reordered {message : TaggedMessage}
    (short : message.toValue.write.length < UInt32.size) {payload : Bytes}
    (reordered : ReorderedInside message.toValue payload) :
    codec.deserialize message.type payload = .ok message := by
  rw [toValue_eq] at short reordered
  simp only [Value.write, writeEntries, List.length_append, List.append_nil] at short
  cases reordered with
  | @intro key value inner reordered =>
    obtain ⟨entries, others, read, order, unnamed⟩ := read?_of_reordered (by decide)
      (List.forall_mem_singleton.mpr message.shortest_field)
      (by rw [Value.write, List.length_append]; exact Nat.lt_of_le_of_lt (by omega) short) reordered
    have named : ReadAs (Value.read? 1023) (name message.field.1).write (name message.field.1) :=
      Value.read?_write (Value.shortest_name _ _) (short_variant message)
    exact set.deserialize_of_readAs (readAs_outer named read)
      (message.ofValue?_of_perm order unnamed)

end TaggedMessage

/-! ## Variant names inside -/

namespace TypedMessage

/-- The variant of a message and its only field. -/
def field : TypedMessage → String × (String × Value)
  | .ping message => ("Ping", ("message", name message))
  | .startSession session => ("Initialize", ("session_id", writeOctets session))
  | .success message => ("Success", ("message", name message))

/-- The fields of the map: the one with the variant name and the other. -/
def fields (message : TypedMessage) : List (String × Value) :=
  [(tag, name message.field.1), message.field.2]
theorem toValue_eq (message : TypedMessage) :
    message.toValue = .map (entriesOf message.fields) := by
  cases message <;> rfl

theorem field_ne_tag (message : TypedMessage) : message.field.2.1 ≠ tag := by
  cases message <;> simp [field, tag]

theorem shortest_fields (message : TypedMessage) :
    ∀ field ∈ message.fields, field.2.Shortest 1022 := by
  refine List.forall_mem_cons.mpr ⟨Value.shortest_name _ _, List.forall_mem_singleton.mpr ?_⟩
  cases message with
  | ping text => exact Value.shortest_name _ text
  | startSession session => exact Value.shortest_writeOctets _ session
  | success text => exact Value.shortest_name _ text

/-- The tag is found anywhere, and the other entries stay as they are. -/
theorem splitTag?_of_perm {variant value : Value} {field : String} (different : field ≠ tag)
    {entries others : List (Value × Value)}
    (order : entries.Perm (entriesOf [(tag, variant), (field, value)] ++ others))
    (unnamed : ∀ other ∈ others, Unnamed [tag, field] other) :
    ∃ rest, splitTag? (.map entries) = some (variant, .map rest) ∧
      rest.Perm (entriesOf [(field, value)] ++ others) := by
  have untagged : ∀ other ∈ others, isTag other.1 = false := by
    intro other among
    obtain ⟨key, unknown, named⟩ := unnamed other among
    rw [named, isTag_name]
    exact decide_eq_false fun same => unknown (same ▸ List.mem_cons_self)
  have tagged := order.filter fun entry => isTag entry.1
  have left := order.filter fun entry => !isTag entry.1
  have none : others.filter (fun entry => isTag entry.1) = [] := by
    rw [List.filter_eq_nil_iff]
    intro other among
    rw [untagged other among]
    exact Bool.false_ne_true
  have all : others.filter (fun entry => !isTag entry.1) = others := by
    rw [List.filter_eq_self]
    intro other among
    rw [untagged other among]
    rfl
  simp only [entriesOf, List.map_cons, List.map_nil, List.cons_append, List.nil_append,
    List.filter_cons, isTag_name, different, decide_true, decide_false, if_true, Bool.not_true,
    Bool.not_false, none, all, Bool.false_eq_true, if_false] at tagged left
  have found := List.perm_singleton.mp tagged
  refine ⟨_, ?_, left⟩
  simp only [splitTag?, found]

/-- The tag and the field may stand anywhere among strangers. -/
theorem ofValue?_of_perm (message : TypedMessage) {entries others : List (Value × Value)}
    (order : entries.Perm (entriesOf message.fields ++ others))
    (unnamed : ∀ other ∈ others, Unnamed (message.fields.map Prod.fst) other) :
    ofValue? (.map entries) = some message := by
  obtain ⟨rest, split, order⟩ := splitTag?_of_perm message.field_ne_tag order unnamed
  have fields : readRecord? .byteOrLong [message.field.2.1] (.map rest) =
      some [some message.field.2.2] := by
    refine readRecord?_of_perm .byteOrLong [message.field.2] (by simp) order ?_
    intro other among
    obtain ⟨key, unknown, named⟩ := unnamed other among
    exact ⟨key, fun known => unknown (List.mem_cons_of_mem _ known), named⟩
  cases message with
  | ping text =>
    have variant : nameIndex? .anyWidth variants (name "Ping") = some (some 0) := by
      rw [nameIndex?_name]
      decide
    simp only [field] at split fields
    simp only [ofValue?, split, variant, ofFields?, fields, text?_name, Option.map_some]
  | startSession session =>
    have variant : nameIndex? .anyWidth variants (name "Initialize") = some (some 1) := by
      rw [nameIndex?_name]
      decide
    simp only [field] at split fields
    simp only [ofValue?, split, variant, ofFields?, fields, octets?_writeOctets, Option.map_some]
  | success text =>
    have variant : nameIndex? .anyWidth variants (name "Success") = some (some 2) := by
      rw [nameIndex?_name]
      decide
    simp only [field] at split fields
    simp only [ofValue?, split, variant, ofFields?, fields, text?_name, Option.map_some]

theorem deserialize_of_reordered {message : TypedMessage}
    (short : message.toValue.write.length < UInt32.size) {payload : Bytes}
    (reordered : Reordered message.toValue payload) :
    codec.deserialize message.type payload = .ok message := by
  rw [toValue_eq] at short reordered
  obtain ⟨entries, others, read, order, unnamed⟩ :=
    read?_of_reordered (by decide) message.shortest_fields short reordered
  exact set.deserialize_of_readAs read (message.ofValue?_of_perm order unnamed)

end TypedMessage

/-! ## No variants -/

namespace FeaturesMessage

/-- The fields, with the number marked as it is written. -/
def fields (message : FeaturesMessage) : List (String × Value) :=
  let major := message.major.toNat
  [("vendor", name message.vendor), ("major", .unsigned (unsignedBits major) major)]

theorem shortest_fields (message : FeaturesMessage) :
    ∀ field ∈ message.fields, field.2.Shortest 1022 := by
  have fits : message.major.toNat < bound 8 := Nat.lt_trans message.major.toNat_lt (by decide)
  exact List.forall_mem_cons.mpr
    ⟨Value.shortest_name _ _, List.forall_mem_singleton.mpr (.unsigned fits)⟩

theorem ofValue?_of_perm (message : FeaturesMessage) {entries others : List (Value × Value)}
    (order : entries.Perm (entriesOf message.fields ++ others))
    (unnamed : ∀ other ∈ others, Unnamed (message.fields.map Prod.fst) other) :
    ofValue? (.map entries) = some message := by
  have fields : readRecord? .anyWidth ["vendor", "major"] (.map entries) =
      some (message.fields.map fun field => some field.2) :=
    readRecord?_of_perm .anyWidth message.fields
      (show ["vendor", "major"].Nodup by decide) order unnamed
  have major : natBelow? UInt32.size
      (.unsigned (unsignedBits message.major.toNat) message.major.toNat) =
        some message.major.toNat := natBelow?_unsigned message.major.toNat_lt
  rw [ofValue?, fields]
  simp [FeaturesMessage.fields, text?_name, major]

theorem deserialize_of_reordered {message : FeaturesMessage}
    (short : message.toValue.write.length < UInt32.size) {payload : Bytes}
    (reordered : Reordered message.toValue payload) :
    codec.deserialize .features payload = .ok message := by
  have marked : Reordered (.map (entriesOf message.fields)) payload :=
    Reordered.congr (by rfl) (by rfl) reordered
  obtain ⟨entries, others, read, order, unnamed⟩ :=
    read?_of_reordered (by decide) message.shortest_fields short marked
  exact set.deserialize_of_readAs read (message.ofValue?_of_perm order unnamed)

end FeaturesMessage

/-! ## All messages -/

/-- A message is read from its fields in any order among strangers, whatever the strangers are and
in whatever widths they are written. Sizes have at most four bytes, so a message has to have a
payload that they can tell. -/
theorem reordered_messages_survive :
    (∀ (message : TaggedMessage) (payload : Bytes), message.toValue.write.length < UInt32.size →
      ReorderedInside message.toValue payload →
        TaggedMessage.codec.deserialize (TaggedMessage.codec.type message) payload = .ok message) ∧
    (∀ (message : TypedMessage) (payload : Bytes), message.toValue.write.length < UInt32.size →
      Reordered message.toValue payload →
        TypedMessage.codec.deserialize (TypedMessage.codec.type message) payload = .ok message) ∧
    (∀ (message : FeaturesMessage) (payload : Bytes), message.toValue.write.length < UInt32.size →
      Reordered message.toValue payload →
        FeaturesMessage.codec.deserialize (FeaturesMessage.codec.type message) payload =
          .ok message) :=
  ⟨fun _ _ short reordered => TaggedMessage.deserialize_of_reordered short reordered,
    fun _ _ short reordered => TypedMessage.deserialize_of_reordered short reordered,
    fun _ _ short reordered => FeaturesMessage.deserialize_of_reordered short reordered⟩

/-- A text with the variant name behind it, and between them a stranger in wide forms that holds an
array and a map; a nil with a stranger behind it; and two fields in the other order. -/
theorem reordered_ping_survives :
    let stranger : Bytes := [0xd9, 1, 0x61, 0x92, 0xc0, 0x81, 0xa1, 0x62, 0xd0, 0xff]
    let ping : Bytes := [0xde, 0, 3, 0xa7, 0x6d, 0x65, 0x73, 0x73, 0x61, 0x67, 0x65, 0xa1, 0x78] ++
      stranger ++ [0xa4, 0x74, 0x79, 0x70, 0x65, 0xa4, 0x50, 0x69, 0x6e, 0x67]
    let success : Bytes := [0x81, 0xa7, 0x53, 0x75, 0x63, 0x63, 0x65, 0x73, 0x73, 0x82, 0xa7, 0x6d,
      0x65, 0x73, 0x73, 0x61, 0x67, 0x65, 0xc0] ++ stranger
    let features : Bytes := [0x82, 0xa5, 0x6d, 0x61, 0x6a, 0x6f, 0x72, 7, 0xa6, 0x76, 0x65, 0x6e,
      0x64, 0x6f, 0x72, 0xa1, 0x61]
    Reordered (TypedMessage.ping "x").toValue ping ∧
      TypedMessage.codec.deserialize .ping ping = .ok (.ping "x") ∧
    ReorderedInside (TaggedMessage.success none).toValue success ∧
      TaggedMessage.codec.deserialize .success success = .ok (.success none) ∧
    Reordered (FeaturesMessage.mk "a" 7).toValue features ∧
      FeaturesMessage.codec.deserialize .features features = .ok ⟨"a", 7⟩ := by
  intro stranger ping success features
  have number : Plain 98 [0xd0, 0xff] := @Plain.signed 98 255 1 0xd0 (by decide) (by decide)
  have map : Plain 99 [0x81, 0xa1, 0x62, 0xd0, 0xff] :=
    @Plain.map 98 [([0xa1, 0x62], [0xd0, 0xff])] [0x81] (.inside (show 1 < 16 by decide))
      (List.forall_mem_singleton.mpr
        ⟨"b", @Spells.intro "b" [0xa1] (.inside (show 1 < 32 by decide))⟩)
      (List.forall_mem_singleton.mpr number)
  have array : Plain 100 [0x92, 0xc0, 0x81, 0xa1, 0x62, 0xd0, 0xff] :=
    @Plain.array 99 [[0xc0], [0x81, 0xa1, 0x62, 0xd0, 0xff]] [0x92]
      (.inside (show 2 < 16 by decide))
      (List.forall_mem_cons.mpr ⟨.nil, List.forall_mem_singleton.mpr map⟩)
  have spelt : Spells "a" [0xd9, 1, 0x61] :=
    @Spells.intro "a" [0xd9, 1] (@Sizes.Marks.behind .text 1 0xd9 1 (by decide) (by decide))
  have strange : ∀ fields : List (String × Value), "a" ∉ fields.map Prod.fst →
      ∀ other ∈ [stranger], Stranger ((entriesOf fields).map Prod.fst) other := fun _ unknown =>
    List.forall_mem_singleton.mpr (.intro (mt name_mem_keys.mp unknown) spelt array)
  have among : Reordered (TypedMessage.ping "x").toValue ping :=
    @Reordered.intro (entriesOf (TypedMessage.ping "x").fields)
      [writeEntry (name "message", name "x"), stranger, writeEntry (name "type", name "Ping")]
      [stranger] [0xde, 0, 3] (@List.perm_append_comm _ [_, _] [_])
      (strange (TypedMessage.ping "x").fields (show "a" ∉ ["type", "message"] by decide))
      (@Sizes.Marks.behind .map 3 0xde 2 (by decide) (by decide))
  have inside : ReorderedInside (TaggedMessage.success none).toValue success :=
    @ReorderedInside.intro (name "Success") _ _
      (@Reordered.intro (entriesOf [("message", .nil)])
        [writeEntry (name "message", .nil), stranger] [stranger] [0x82] (List.Perm.refl _)
        (strange [("message", .nil)] (show "a" ∉ ["message"] by decide))
        (.inside (show 2 < 16 by decide)))
  have swapped : Reordered (FeaturesMessage.mk "a" 7).toValue features :=
    @Reordered.intro (entriesOf [("vendor", name "a"), ("major", .unsigned 32 7)])
      [writeEntry (name "major", .unsigned 32 7), writeEntry (name "vendor", name "a")] [] [0x82]
      (List.Perm.swap _ _ _) (fun _ none => by cases none) (.inside (show 2 < 16 by decide))
  exact ⟨among, reordered_messages_survive.2.1 (.ping "x") ping (by decide) among,
    inside, reordered_messages_survive.1 (.success none) success (by decide) inside,
    swapped, reordered_messages_survive.2.2 ⟨"a", 7⟩ features (by decide) swapped⟩

end HardwareSigner
