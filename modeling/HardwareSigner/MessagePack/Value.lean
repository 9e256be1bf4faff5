import HardwareSigner.Bytes

/-!
# MessagePack values

A value opens with a marker byte that tells its kind and, for short ones, its size. The same number,
text or collection may be marked in several widths; `Value.write` uses the shortest, `Value.read?`
takes any and remembers the width of an unsigned number, which some readers look at.

Text is kept as bytes, since it need not be valid UTF-8.
-/

namespace HardwareSigner.MessagePack

open BigEndian (bound)

inductive Value
  | nil
  | bool (b : Bool)
  /-- A number with an unsigned marker of so many bits; the one-byte forms have 8. -/
  | unsigned (bits : Nat) (n : Nat)
  /-- A number with a signed marker. -/
  | signed (n : Int)
  /-- A floating point number, as its four or eight bytes. -/
  | float (digits : Bytes)
  | text (utf8 : Bytes)
  | binary (data : Bytes)
  | array (items : List Value)
  | map (entries : List (Value × Value))
  | extension (kind : UInt8) (data : Bytes)
  deriving Repr

/-! ## Writing -/

/-- An unsigned number in the fewest bytes. -/
def writeUnsigned (n : Nat) : Bytes :=
  if n < 128 then [UInt8.ofNat n]
  else if n < bound 1 then 0xcc :: BigEndian.encode 1 n
  else if n < bound 2 then 0xcd :: BigEndian.encode 2 n
  else if n < bound 4 then 0xce :: BigEndian.encode 4 n
  else 0xcf :: BigEndian.encode 8 n

/-- A signed number in the fewest bytes; one that is not negative is written as unsigned. -/
def writeSigned : Int → Bytes
  | .ofNat n => writeUnsigned n
  | .negSucc m =>
    if m < 32 then [UInt8.ofNat (255 - m)]
    else if 2 * m < bound 1 then 0xd0 :: BigEndian.encode 1 (bound 1 - 1 - m)
    else if 2 * m < bound 2 then 0xd1 :: BigEndian.encode 2 (bound 2 - 1 - m)
    else if 2 * m < bound 4 then 0xd2 :: BigEndian.encode 4 (bound 4 - 1 - m)
    else 0xd3 :: BigEndian.encode 8 (bound 8 - 1 - m)

/-- The marker of a text of `n` bytes. -/
def writeTextSize (n : Nat) : Bytes :=
  if n < 32 then [UInt8.ofNat (0xa0 + n)]
  else if n < bound 1 then 0xd9 :: BigEndian.encode 1 n
  else if n < bound 2 then 0xda :: BigEndian.encode 2 n
  else 0xdb :: BigEndian.encode 4 n

/-- The marker of a binary value of `n` bytes. -/
def writeBinarySize (n : Nat) : Bytes :=
  if n < bound 1 then 0xc4 :: BigEndian.encode 1 n
  else if n < bound 2 then 0xc5 :: BigEndian.encode 2 n
  else 0xc6 :: BigEndian.encode 4 n

/-- The marker of an array of `n` items. -/
def writeArraySize (n : Nat) : Bytes :=
  if n < 16 then [UInt8.ofNat (0x90 + n)]
  else if n < bound 2 then 0xdc :: BigEndian.encode 2 n
  else 0xdd :: BigEndian.encode 4 n

/-- The marker of a map of `n` entries. -/
def writeMapSize (n : Nat) : Bytes :=
  if n < 16 then [UInt8.ofNat (0x80 + n)]
  else if n < bound 2 then 0xde :: BigEndian.encode 2 n
  else 0xdf :: BigEndian.encode 4 n

/-- The marker of an extension value of `n` bytes. -/
def writeExtensionSize (n : Nat) : Bytes :=
  if n = 1 then [0xd4]
  else if n = 2 then [0xd5]
  else if n = 4 then [0xd6]
  else if n = 8 then [0xd7]
  else if n = 16 then [0xd8]
  else if n < bound 1 then 0xc7 :: BigEndian.encode 1 n
  else if n < bound 2 then 0xc8 :: BigEndian.encode 2 n
  else 0xc9 :: BigEndian.encode 4 n

mutual

/-- The value in the shortest form of its kind. -/
def Value.write : Value → Bytes
  | .nil => [0xc0]
  | .bool b => [if b then 0xc3 else 0xc2]
  | .unsigned _ n => writeUnsigned n
  | .signed n => writeSigned n
  | .float digits => (if digits.length = 4 then 0xca else 0xcb) :: digits
  | .text utf8 => writeTextSize utf8.length ++ utf8
  | .binary data => writeBinarySize data.length ++ data
  | .array items => writeArraySize items.length ++ writeItems items
  | .map entries => writeMapSize entries.length ++ writeEntries entries
  | .extension kind data => writeExtensionSize data.length ++ kind :: data

def writeItems : List Value → Bytes
  | [] => []
  | item :: items => item.write ++ writeItems items

def writeEntries : List (Value × Value) → Bytes
  | [] => []
  | (key, value) :: entries => key.write ++ value.write ++ writeEntries entries

end
theorem writeItems_eq_flatMap (items : List Value) :
    writeItems items = items.flatMap Value.write := by
  induction items with
  | nil => rfl
  | cons item items ih => rw [writeItems, ih, List.flatMap_cons]

def writeEntry (entry : Value × Value) : Bytes := entry.1.write ++ entry.2.write

theorem writeEntries_eq_flatMap (entries : List (Value × Value)) :
    writeEntries entries = entries.flatMap writeEntry := by
  induction entries with
  | nil => rfl
  | cons entry entries ih =>
    rw [writeEntries, ih, List.flatMap_cons]
    rfl

theorem Value.write_array (items : List Value) :
    (Value.array items).write = writeArraySize items.length ++ items.flatMap Value.write := by
  rw [Value.write, writeItems_eq_flatMap]

theorem Value.write_map (entries : List (Value × Value)) :
    (Value.map entries).write = writeMapSize entries.length ++ entries.flatMap writeEntry := by
  rw [Value.write, writeEntries_eq_flatMap]

/-! ## Reading -/

/-- Reads something of a type from the front of some bytes; gives what follows it. -/
abbrev Reader (α : Type) := Bytes → Option (α × Bytes)

/-- A big-endian number of `width` bytes. -/
def readNumber (width : Nat) : Reader Nat := fun bytes =>
  if bytes.length < width then none
  else some (BigEndian.decode (bytes.take width), bytes.drop width)

/-- Exactly `count` bytes. -/
def readBytes (count : Nat) : Reader Bytes := fun bytes =>
  if bytes.length < count then none else some (bytes.take count, bytes.drop count)

/-- The signed number that the lowest `width` bytes of a two's complement stand for. -/
def toSigned (width n : Nat) : Int :=
  if 2 * n < bound width then n else (n : Int) - bound width

/-- `count` things one after another. -/
def readMany {α : Type} (one : Reader α) : Nat → Reader (List α)
  | 0, bytes => some ([], bytes)
  | count + 1, bytes =>
    match one bytes with
    | none => none
    | some (first, rest) => (readMany one count rest).map fun (more, rest) => (first :: more, rest)

/-- A key and the value that follows it. -/
def readEntry {α : Type} (one : Reader α) : Reader (α × α) := fun bytes =>
  match one bytes with
  | none => none
  | some (key, rest) => (one rest).map fun (value, rest) => ((key, value), rest)

/-- What a marker announces. -/
inductive Marker
  /-- The value is in the marker. -/
  | whole (value : Value)
  | unsigned (width : Nat)
  | signed (width : Nat)
  | float (width : Nat)
  /-- The kinds with a size: how many bytes hold it, or the size itself. -/
  | text (size : Nat ⊕ Nat)
  | binary (size : Nat ⊕ Nat)
  | array (size : Nat ⊕ Nat)
  | map (size : Nat ⊕ Nat)
  | extension (size : Nat ⊕ Nat)
  /-- No value opens with this byte. -/
  | reserved

/-- The marker in a byte. -/
def Marker.ofByte (b : UInt8) : Marker :=
  let n := b.toNat
  if n < 0x80 then .whole (.unsigned 8 n)
  else if n < 0x90 then .map (.inr (n - 0x80))
  else if n < 0xa0 then .array (.inr (n - 0x90))
  else if n < 0xc0 then .text (.inr (n - 0xa0))
  else if 0xe0 ≤ n then .whole (.signed (n - 256))
  else match n with
    | 0xc0 => .whole .nil
    | 0xc2 => .whole (.bool false)
    | 0xc3 => .whole (.bool true)
    | 0xc4 => .binary (.inl 1)
    | 0xc5 => .binary (.inl 2)
    | 0xc6 => .binary (.inl 4)
    | 0xc7 => .extension (.inl 1)
    | 0xc8 => .extension (.inl 2)
    | 0xc9 => .extension (.inl 4)
    | 0xca => .float 4
    | 0xcb => .float 8
    | 0xcc => .unsigned 1
    | 0xcd => .unsigned 2
    | 0xce => .unsigned 4
    | 0xcf => .unsigned 8
    | 0xd0 => .signed 1
    | 0xd1 => .signed 2
    | 0xd2 => .signed 4
    | 0xd3 => .signed 8
    | 0xd4 => .extension (.inr 1)
    | 0xd5 => .extension (.inr 2)
    | 0xd6 => .extension (.inr 4)
    | 0xd7 => .extension (.inr 8)
    | 0xd8 => .extension (.inr 16)
    | 0xd9 => .text (.inl 1)
    | 0xda => .text (.inl 2)
    | 0xdb => .text (.inl 4)
    | 0xdc => .array (.inl 2)
    | 0xdd => .array (.inl 4)
    | 0xde => .map (.inl 2)
    | 0xdf => .map (.inl 4)
    | _ => .reserved

/-- A size that stands in the marker or behind it. -/
def readSize : Nat ⊕ Nat → Reader Nat
  | .inl width => readNumber width
  | .inr size => fun bytes => some (size, bytes)

/-- As many bytes as a size says. -/
def readSized (size : Nat ⊕ Nat) : Reader Bytes := fun bytes =>
  match readSize size bytes with
  | none => none
  | some (count, rest) => readBytes count rest

/-- The value at the front. Arrays, maps and extensions may be nested `depth` deep. -/
def Value.read? (depth : Nat) : Reader Value
  | [] => none
  | b :: rest =>
    match Marker.ofByte b with
    | .whole value => some (value, rest)
    | .unsigned width =>
      (readNumber width rest).map fun (n, rest) => (.unsigned (8 * width) n, rest)
    | .signed width =>
      (readNumber width rest).map fun (n, rest) => (.signed (toSigned width n), rest)
    | .float width => (readBytes width rest).map fun (digits, rest) => (.float digits, rest)
    | .text size => (readSized size rest).map fun (utf8, rest) => (.text utf8, rest)
    | .binary size => (readSized size rest).map fun (data, rest) => (.binary data, rest)
    | .array size =>
      match depth, readSize size rest with
      | depth + 1, some (count, rest) =>
        (readMany (read? depth) count rest).map fun (items, rest) => (.array items, rest)
      | _, _ => none
    | .map size =>
      match depth, readSize size rest with
      | depth + 1, some (count, rest) =>
        (readMany (readEntry (read? depth)) count rest).map fun (entries, rest) =>
          (.map entries, rest)
      | _, _ => none
    | .extension size =>
      match depth, readSize size rest with
      | _ + 1, some (count, kind :: rest) =>
        (readBytes count rest).map fun (data, rest) => (.extension kind data, rest)
      | _, _ => none
    | .reserved => none

theorem Value.read?_nil (depth : Nat) : Value.read? depth [] = none := by
  rw [Value.read?.eq_def]

end HardwareSigner.MessagePack
