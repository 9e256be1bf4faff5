import HardwareSigner.MessagePack.Value

/-!
# Values read back as they were written

A number, a text or a collection is written with the shortest marker that can hold it. Which marker
that is depends on the size, and reading has to find the size again from any of them: `Announces`
says what reading makes of a marker, with one lemma for the sizes that stand in the marker byte and
one for those behind it, and each table of markers is a choice among the two.

`Value.Shortest depth` picks out the values that writing does not change: unsigned numbers carry the
width they are written in, signed ones are negative, and collections are nested `depth` deep at
most.

> `Value.read?_write`: such a value, written in fewer than 2^32 bytes, reads back from the front of
> any bytes, and what follows it is left.
-/

namespace HardwareSigner

namespace BigEndian

theorem bound_pos (width : Nat) : 0 < bound width := by
  induction width with
  | zero => decide
  | succ width ih =>
    rw [bound]
    omega

end BigEndian

namespace MessagePack

open BigEndian (bound)

/-! ## Runs of bytes -/

theorem readBytes_append (data rest : Bytes) :
    readBytes data.length (data ++ rest) = some (data, rest) := by
  have enough : ¬(data ++ rest).length < data.length := by
    rw [List.length_append]
    omega
  rw [readBytes, if_neg enough, List.take_left, List.drop_left]

theorem readNumber_encode {width n : Nat} (fits : n < bound width) (rest : Bytes) :
    readNumber width (BigEndian.encode width n ++ rest) = some (n, rest) := by
  have length := BigEndian.length_encode width n
  have enough : ¬(BigEndian.encode width n ++ rest).length < width := by
    rw [List.length_append, length]
    omega
  rw [readNumber, if_neg enough, List.take_left' length, List.drop_left' length,
    BigEndian.decode_encode_of_lt fits]

/-- Things that read back one by one read back together. -/
theorem readMany_flatMap {α : Type} {one : Reader α} {write : α → Bytes} {items : List α}
    (each : ∀ item ∈ items, ∀ rest, one (write item ++ rest) = some (item, rest)) (rest : Bytes) :
    readMany one items.length (items.flatMap write ++ rest) = some (items, rest) := by
  induction items with
  | nil => rfl
  | cons item items ih =>
    rw [List.forall_mem_cons] at each
    rw [List.flatMap_cons, List.append_assoc, List.length_cons, readMany, each.1]
    show (readMany one items.length _).map _ = _
    rw [ih each.2]
    rfl

theorem readEntry_append {α : Type} {one : Reader α} {key value : α} {first second rest : Bytes}
    (named : one (first ++ (second ++ rest)) = some (key, second ++ rest))
    (valued : one (second ++ rest) = some (value, rest)) :
    readEntry one (first ++ second ++ rest) = some ((key, value), rest) := by
  rw [List.append_assoc, readEntry, named]
  show (one (second ++ rest)).map _ = _
  rw [valued]
  rfl

/-! ## Markers with a size -/

/-- Reading finds the size `n` in what is written as `marker`. -/
def Announces (kind : Nat ⊕ Nat → Marker) (n : Nat) (marker : Bytes) : Prop :=
  ∃ first digits size, marker = first :: digits ∧ Marker.ofByte first = kind size ∧
    ∀ rest, readSize size (digits ++ rest) = some (n, rest)

theorem announces_inside {kind : Nat ⊕ Nat → Marker} {first : UInt8} {n : Nat}
    (marked : Marker.ofByte first = kind (.inr n)) : Announces kind n [first] :=
  ⟨first, [], .inr n, rfl, marked, fun _ => rfl⟩

theorem announces_behind {kind : Nat ⊕ Nat → Marker} {first : UInt8} {width n : Nat}
    (marked : Marker.ofByte first = kind (.inl width)) (fits : n < bound width) :
    Announces kind n (first :: BigEndian.encode width n) :=
  ⟨first, BigEndian.encode width n, .inl width, rfl, marked, readNumber_encode fits⟩

/-- A marker byte that has room for a small size. -/
theorem toNat_marker {base n : Nat} (fits : base + n < 256) :
    (UInt8.ofNat (base + n)).toNat = base + n :=
  UInt8.toNat_ofNat_of_lt' fits

theorem ofByte_text {n : Nat} (small : n < 32) :
    Marker.ofByte (UInt8.ofNat (0xa0 + n)) = .text (.inr n) := by
  have byte : (UInt8.ofNat (0xa0 + n)).toNat = 0xa0 + n := toNat_marker (by omega)
  rw [Marker.ofByte, byte]
  simp [show ¬0xa0 + n < 0x80 by omega, show ¬0xa0 + n < 0x90 by omega,
    show 0xa0 + n < 0xc0 by omega]

theorem ofByte_array {n : Nat} (small : n < 16) :
    Marker.ofByte (UInt8.ofNat (0x90 + n)) = .array (.inr n) := by
  have byte : (UInt8.ofNat (0x90 + n)).toNat = 0x90 + n := toNat_marker (by omega)
  rw [Marker.ofByte, byte]
  simp [show ¬0x90 + n < 0x80 by omega, show 0x90 + n < 0xa0 by omega]

theorem ofByte_map {n : Nat} (small : n < 16) :
    Marker.ofByte (UInt8.ofNat (0x80 + n)) = .map (.inr n) := by
  have byte : (UInt8.ofNat (0x80 + n)).toNat = 0x80 + n := toNat_marker (by omega)
  rw [Marker.ofByte, byte]
  simp [show 0x80 + n < 0x90 by omega]

theorem announces_text {n : Nat} (fits : n < bound 4) : Announces .text n (writeTextSize n) := by
  unfold writeTextSize
  split
  next small => exact announces_inside (ofByte_text small)
  next =>
    split
    next short => exact announces_behind rfl short
    next =>
      split
      next medium => exact announces_behind rfl medium
      next => exact announces_behind rfl fits

theorem announces_binary {n : Nat} (fits : n < bound 4) :
    Announces .binary n (writeBinarySize n) := by
  unfold writeBinarySize
  split
  next short => exact announces_behind rfl short
  next =>
    split
    next medium => exact announces_behind rfl medium
    next => exact announces_behind rfl fits

theorem announces_array {n : Nat} (fits : n < bound 4) : Announces .array n (writeArraySize n) := by
  unfold writeArraySize
  split
  next small => exact announces_inside (ofByte_array small)
  next =>
    split
    next medium => exact announces_behind rfl medium
    next => exact announces_behind rfl fits

theorem announces_map {n : Nat} (fits : n < bound 4) : Announces .map n (writeMapSize n) := by
  unfold writeMapSize
  split
  next small => exact announces_inside (ofByte_map small)
  next =>
    split
    next medium => exact announces_behind rfl medium
    next => exact announces_behind rfl fits

theorem announces_extension {n : Nat} (fits : n < bound 4) :
    Announces .extension n (writeExtensionSize n) := by
  unfold writeExtensionSize
  -- Five sizes have a marker byte of their own.
  by_cases one : n = 1
  · rw [if_pos one]
    exact announces_inside (one ▸ rfl)
  by_cases two : n = 2
  · rw [if_neg one, if_pos two]
    exact announces_inside (two ▸ rfl)
  by_cases four : n = 4
  · rw [if_neg one, if_neg two, if_pos four]
    exact announces_inside (four ▸ rfl)
  by_cases eight : n = 8
  · rw [if_neg one, if_neg two, if_neg four, if_pos eight]
    exact announces_inside (eight ▸ rfl)
  by_cases sixteen : n = 16
  · rw [if_neg one, if_neg two, if_neg four, if_neg eight, if_pos sixteen]
    exact announces_inside (sixteen ▸ rfl)
  rw [if_neg one, if_neg two, if_neg four, if_neg eight, if_neg sixteen]
  split
  next short => exact announces_behind rfl short
  next =>
    split
    next medium => exact announces_behind rfl medium
    next => exact announces_behind rfl fits

theorem readSized_append {size : Nat ⊕ Nat} {digits data : Bytes}
    (sized : ∀ rest, readSize size (digits ++ rest) = some (data.length, rest)) (rest : Bytes) :
    readSized size (digits ++ (data ++ rest)) = some (data, rest) := by
  rw [readSized, sized]
  exact readBytes_append data rest

/-! ## Values in shortest form -/

/-- The bits of the marker with which an unsigned number is written. -/
def unsignedBits (n : Nat) : Nat :=
  if n < bound 1 then 8 else if n < bound 2 then 16 else if n < bound 4 then 32 else 64

/-- What can be read, at most `depth` deep, and is written as it was read. -/
inductive Value.Shortest : Nat → Value → Prop
  | nil {depth : Nat} : Shortest depth .nil
  | bool {depth : Nat} (b : Bool) : Shortest depth (.bool b)
  | unsigned {depth n : Nat} (fits : n < bound 8) : Shortest depth (.unsigned (unsignedBits n) n)
  | signed {depth m : Nat} (fits : 2 * m < bound 8) : Shortest depth (.signed (.negSucc m))
  | float {depth : Nat} {digits : Bytes} (size : digits.length = 4 ∨ digits.length = 8) :
    Shortest depth (.float digits)
  | text {depth : Nat} (utf8 : Bytes) : Shortest depth (.text utf8)
  | binary {depth : Nat} (data : Bytes) : Shortest depth (.binary data)
  | array {depth : Nat} {items : List Value} (each : ∀ item ∈ items, Shortest depth item) :
    Shortest (depth + 1) (.array items)
  | map {depth : Nat} {entries : List (Value × Value)}
    (keys : ∀ entry ∈ entries, Shortest depth entry.1)
    (values : ∀ entry ∈ entries, Shortest depth entry.2) : Shortest (depth + 1) (.map entries)
  | extension {depth : Nat} (kind : UInt8) (data : Bytes) :
    Shortest (depth + 1) (.extension kind data)

theorem read?_unsigned {depth width n : Nat} {first : UInt8}
    (marked : Marker.ofByte first = .unsigned width) (fits : n < bound width) (rest : Bytes) :
    Value.read? depth (first :: BigEndian.encode width n ++ rest) =
      some (.unsigned (8 * width) n, rest) := by
  rw [List.cons_append, Value.read?.eq_def]
  simp only [marked, readNumber_encode fits]
  rfl

theorem ofByte_small {n : Nat} (tiny : n < 128) :
    Marker.ofByte (UInt8.ofNat n) = .whole (.unsigned 8 n) := by
  have byte : (UInt8.ofNat n).toNat = n :=
    UInt8.toNat_ofNat_of_lt' (Nat.lt_trans tiny (by decide))
  rw [Marker.ofByte, byte]
  exact if_pos tiny

theorem ofByte_negative {m : Nat} (tiny : m < 32) :
    Marker.ofByte (UInt8.ofNat (255 - m)) = .whole (.signed (.negSucc m)) := by
  have byte : (UInt8.ofNat (255 - m)).toNat = 255 - m :=
    UInt8.toNat_ofNat_of_lt' (Nat.lt_succ_of_le (Nat.sub_le 255 m))
  have value : ((255 - m : Nat) : Int) - 256 = .negSucc m := by omega
  rw [Marker.ofByte, byte]
  simp [show ¬255 - m < 0x80 by omega, show ¬255 - m < 0x90 by omega,
    show ¬255 - m < 0xa0 by omega, show ¬255 - m < 0xc0 by omega,
    show 0xe0 ≤ 255 - m by omega, value]

/-- An unsigned number reads back with the width of its marker. -/
theorem read?_writeUnsigned {n : Nat} (fits : n < bound 8) (depth : Nat) (rest : Bytes) :
    Value.read? depth (writeUnsigned n ++ rest) = some (.unsigned (unsignedBits n) n, rest) := by
  unfold writeUnsigned unsignedBits
  by_cases tiny : n < 128
  · have short : n < bound 1 := Nat.lt_trans tiny (by decide)
    rw [if_pos tiny, if_pos short, List.cons_append, Value.read?.eq_def]
    simp only [ofByte_small tiny]
    rfl
  rw [if_neg tiny]
  split
  next short => exact read?_unsigned rfl short rest
  next =>
    split
    next medium => exact read?_unsigned rfl medium rest
    next =>
      split
      next long => exact read?_unsigned rfl long rest
      next => exact read?_unsigned rfl fits rest

/-- The two's complement of a negative number stands for that number. -/
theorem toSigned_complement {width m : Nat} (fits : 2 * m < bound width) (even : 2 ∣ bound width) :
    toSigned width (bound width - 1 - m) = .negSucc m := by
  have high : ¬2 * (bound width - 1 - m) < bound width := by omega
  rw [toSigned, if_neg high]
  omega

theorem read?_signed {depth width m : Nat} {first : UInt8}
    (marked : Marker.ofByte first = .signed width) (fits : 2 * m < bound width)
    (even : 2 ∣ bound width) (rest : Bytes) :
    Value.read? depth (first :: BigEndian.encode width (bound width - 1 - m) ++ rest) =
      some (.signed (.negSucc m), rest) := by
  have within : bound width - 1 - m < bound width := by
    have positive := BigEndian.bound_pos width
    omega
  rw [List.cons_append, Value.read?.eq_def]
  simp only [marked, readNumber_encode within]
  rw [Option.map_some, toSigned_complement fits even]

theorem read?_writeSigned {m : Nat} (fits : 2 * m < bound 8) (depth : Nat) (rest : Bytes) :
    Value.read? depth (writeSigned (.negSucc m) ++ rest) = some (.signed (.negSucc m), rest) := by
  unfold writeSigned
  by_cases tiny : m < 32
  · simp only [if_pos tiny]
    rw [List.cons_append, Value.read?.eq_def]
    simp only [ofByte_negative tiny]
    rfl
  simp only [if_neg tiny]
  split
  next short => exact read?_signed rfl short (by decide) rest
  next =>
    split
    next medium => exact read?_signed rfl medium (by decide) rest
    next =>
      split
      next long => exact read?_signed rfl long (by decide) rest
      next => exact read?_signed rfl fits (by decide) rest

theorem read?_float {digits : Bytes} (size : digits.length = 4 ∨ digits.length = 8) (depth : Nat)
    (rest : Bytes) :
    Value.read? depth ((Value.float digits).write ++ rest) = some (.float digits, rest) := by
  rw [Value.write, List.cons_append, Value.read?.eq_def]
  rcases size with four | eight
  · have read : readBytes 4 (digits ++ rest) = some (digits, rest) := four ▸ readBytes_append _ _
    simp only [if_pos four, show Marker.ofByte 0xca = .float 4 from rfl, read]
    rfl
  · have read : readBytes 8 (digits ++ rest) = some (digits, rest) := eight ▸ readBytes_append _ _
    have other : ¬digits.length = 4 := by omega
    simp only [if_neg other, show Marker.ofByte 0xcb = .float 8 from rfl, read]
    rfl

theorem read?_text {utf8 : Bytes} (fits : utf8.length < bound 4) (depth : Nat) (rest : Bytes) :
    Value.read? depth ((Value.text utf8).write ++ rest) = some (.text utf8, rest) := by
  obtain ⟨first, digits, size, written, marked, sized⟩ := announces_text fits
  rw [Value.write, written, List.append_assoc, List.cons_append, Value.read?.eq_def]
  simp only [marked, readSized_append sized]
  rfl

theorem read?_binary {data : Bytes} (fits : data.length < bound 4) (depth : Nat) (rest : Bytes) :
    Value.read? depth ((Value.binary data).write ++ rest) = some (.binary data, rest) := by
  obtain ⟨first, digits, size, written, marked, sized⟩ := announces_binary fits
  rw [Value.write, written, List.append_assoc, List.cons_append, Value.read?.eq_def]
  simp only [marked, readSized_append sized]
  rfl

theorem read?_extension {kind : UInt8} {data : Bytes} (fits : data.length < bound 4) (depth : Nat)
    (rest : Bytes) :
    Value.read? (depth + 1) ((Value.extension kind data).write ++ rest) =
      some (.extension kind data, rest) := by
  obtain ⟨first, digits, size, written, marked, sized⟩ := announces_extension fits
  rw [Value.write, written, List.append_assoc, List.cons_append, Value.read?.eq_def]
  simp only [marked, sized, List.cons_append, readBytes_append]
  rfl

/-! ## Collections -/

/-- Each of the parts is in the whole. -/
theorem length_le_of_mem {α : Type} (write : α → Bytes) {items : List α} {item : α}
    (among : item ∈ items) : (write item).length ≤ (items.flatMap write).length := by
  rw [List.flatMap_def]
  exact (List.sublist_flatten_of_mem (List.mem_map_of_mem among)).length_le

/-- Parts that are not empty are no more than their bytes. -/
theorem length_le_flatMap {α : Type} (write : α → Bytes) (items : List α)
    (some : ∀ item ∈ items, write item ≠ []) : items.length ≤ (items.flatMap write).length := by
  induction items with
  | nil => exact Nat.le_refl 0
  | cons item items ih =>
    rw [List.forall_mem_cons] at some
    have first := List.length_pos_iff.mpr some.1
    have others := ih some.2
    rw [List.flatMap_cons, List.length_append, List.length_cons]
    omega

/-- What reads back is not empty. -/
theorem write_ne_nil {depth : Nat} {value : Value}
    (read : Value.read? depth (value.write ++ []) = some (value, [])) : value.write ≠ [] := by
  intro none
  rw [none, List.nil_append, Value.read?_nil] at read
  cases read

/-- Whether `value` reads back at this depth. -/
def ReadsBack (depth : Nat) (value : Value) : Prop :=
  value.write.length < bound 4 →
    ∀ rest, Value.read? depth (value.write ++ rest) = some (value, rest)

theorem read?_array {depth : Nat} {items : List Value}
    (each : ∀ item ∈ items, ReadsBack depth item) : ReadsBack (depth + 1) (.array items) := by
  intro fits rest
  rw [Value.write_array, List.length_append] at fits
  have read : ∀ item ∈ items, ∀ rest,
      Value.read? depth (item.write ++ rest) = some (item, rest) := by
    intro item among
    have part := length_le_of_mem Value.write among
    exact each item among (by omega)
  have few := length_le_flatMap Value.write items fun item among =>
    write_ne_nil (read item among [])
  obtain ⟨first, digits, size, written, marked, sized⟩ :=
    announces_array (n := items.length) (by omega)
  rw [Value.write_array, written, List.append_assoc, List.cons_append, Value.read?.eq_def]
  simp only [marked, sized, readMany_flatMap read]
  rfl

theorem read?_map {depth : Nat} {entries : List (Value × Value)}
    (first : ∀ entry ∈ entries, ReadsBack depth entry.1)
    (second : ∀ entry ∈ entries, ReadsBack depth entry.2) :
    ReadsBack (depth + 1) (.map entries) := by
  intro fits rest
  rw [Value.write_map, List.length_append] at fits
  have parts : ∀ entry ∈ entries, entry.1.write.length + entry.2.write.length < bound 4 := by
    intro entry among
    have part := length_le_of_mem writeEntry among
    rw [writeEntry, List.length_append] at part
    omega
  have keys : ∀ entry ∈ entries, ∀ rest,
      Value.read? depth (entry.1.write ++ rest) = some (entry.1, rest) := by
    intro entry among
    have short := parts entry among
    exact first entry among (by omega)
  have values : ∀ entry ∈ entries, ∀ rest,
      Value.read? depth (entry.2.write ++ rest) = some (entry.2, rest) := by
    intro entry among
    have short := parts entry among
    exact second entry among (by omega)
  have read : ∀ entry ∈ entries, ∀ rest,
      readEntry (Value.read? depth) (writeEntry entry ++ rest) = some (entry, rest) :=
    fun entry among rest =>
      readEntry_append (keys entry among _) (values entry among rest)
  have few := length_le_flatMap writeEntry entries fun entry among none =>
    write_ne_nil (keys entry among []) (List.append_eq_nil_iff.mp none).1
  obtain ⟨first, digits, size, written, marked, sized⟩ :=
    announces_map (n := entries.length) (by omega)
  rw [Value.write_map, written, List.append_assoc, List.cons_append, Value.read?.eq_def]
  simp only [marked, sized, readMany_flatMap read]
  rfl

/-- A value in shortest form reads back, and what follows it is left. -/
theorem Value.read?_write {depth : Nat} {value : Value} (shortest : value.Shortest depth) :
    ReadsBack depth value := by
  induction shortest with
  | nil =>
    intro fits rest
    rw [Value.write, List.singleton_append, Value.read?.eq_def]
    rfl
  | bool b =>
    intro fits rest
    rw [Value.write, List.singleton_append, Value.read?.eq_def]
    cases b <;> rfl
  | unsigned fits => exact fun _ rest => read?_writeUnsigned fits _ rest
  | signed fits => exact fun _ rest => read?_writeSigned fits _ rest
  | float size => exact fun _ rest => read?_float size _ rest
  | text utf8 =>
    intro fits rest
    rw [Value.write, List.length_append] at fits
    exact read?_text (by omega) _ rest
  | binary data =>
    intro fits rest
    rw [Value.write, List.length_append] at fits
    exact read?_binary (by omega) _ rest
  | array each ih => exact read?_array ih
  | map keys values first second => exact read?_map first second
  | extension kind data =>
    intro fits rest
    rw [Value.write, List.length_append, List.length_cons] at fits
    exact read?_extension (by omega) _ rest

end MessagePack

end HardwareSigner
