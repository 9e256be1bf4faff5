import HardwareSigner.Proofs.MessagePack.RoundTrip
import HardwareSigner.Text.Utf8
import Mathlib.Data.List.Perm.Basic

/-!
# Values in any width

What is read need not have been written in the shortest form. A size may stand behind a marker that
is wider than it has to be (`Sizes.Marks`), and so may a number. `Plain depth` are the bytes of all
values that consist of `nil`, truth values, whole numbers, texts, arrays and maps from texts, in any
of these widths. Reading has to find the end of each of them, or all that follows is shifted:

> `read?_of_plain`: such bytes are read as one value, and what follows them is left.
-/

namespace HardwareSigner.MessagePack

open BigEndian (bound)

/-! ## Sizes -/

/-- The markers of a kind of value with a size. One below `room` is added to the byte `base`; a byte
of `wide` announces that the size follows in so many bytes. -/
structure Sizes where
  base : Nat
  room : Nat
  wide : List (UInt8 × Nat)

namespace Sizes

def text : Sizes := ⟨0xa0, 32, [(0xd9, 1), (0xda, 2), (0xdb, 4)]⟩

def array : Sizes := ⟨0x90, 16, [(0xdc, 2), (0xdd, 4)]⟩

def map : Sizes := ⟨0x80, 16, [(0xde, 2), (0xdf, 4)]⟩

/-- The marker gives the size `n`. -/
inductive Marks (sizes : Sizes) (n : Nat) : Bytes → Prop
  | inside (small : n < sizes.room) : Marks sizes n [UInt8.ofNat (sizes.base + n)]
  | behind {first : UInt8} {width : Nat} (wide : (first, width) ∈ sizes.wide)
    (fits : n < bound width) : Marks sizes n (first :: BigEndian.encode width n)

/-- Reading finds the size in each of the markers, if it does so for each byte that opens one. -/
theorem announces_of_marks {sizes : Sizes} {kind : Nat ⊕ Nat → Marker} {n : Nat} {marker : Bytes}
    (inside : n < sizes.room → Marker.ofByte (UInt8.ofNat (sizes.base + n)) = kind (.inr n))
    (wide : ∀ mark ∈ sizes.wide, Marker.ofByte mark.1 = kind (.inl mark.2))
    (marks : sizes.Marks n marker) : Announces kind n marker := by
  cases marks with
  | inside small => exact announces_inside (inside small)
  | behind among fits => exact announces_behind (wide _ among) fits

theorem Marks.text {n : Nat} {marker : Bytes} (marks : text.Marks n marker) :
    Announces .text n marker := by
  refine announces_of_marks (fun small => ?_) (List.map_inj_left.mp rfl) marks
  replace small : n < 32 := small
  exact ofByte_text small

theorem Marks.array {n : Nat} {marker : Bytes} (marks : array.Marks n marker) :
    Announces .array n marker := by
  refine announces_of_marks (fun small => ?_) (List.map_inj_left.mp rfl) marks
  replace small : n < 16 := small
  exact ofByte_array small

theorem Marks.map {n : Nat} {marker : Bytes} (marks : map.Marks n marker) :
    Announces .map n marker := by
  refine announces_of_marks (fun small => ?_) (List.map_inj_left.mp rfl) marks
  replace small : n < 16 := small
  exact ofByte_map small

end Sizes

/-! ## Values -/

/-- The bytes are the text with a marker in front of it. -/
inductive Spells (text : String) : Bytes → Prop
  | intro {marker : Bytes} (marks : Sizes.text.Marks (Utf8.encode text).length marker) :
    Spells text (marker ++ Utf8.encode text)

/-- The bytes that announce an unsigned number in so many bytes. -/
def unsignedMarks : List (UInt8 × Nat) := [(0xcc, 1), (0xcd, 2), (0xce, 4), (0xcf, 8)]

/-- The bytes that announce a number with a sign, as a two's complement of so many bytes. -/
def signedMarks : List (UInt8 × Nat) := [(0xd0, 1), (0xd1, 2), (0xd2, 4), (0xd3, 8)]

/-- The bytes are one value without floating point numbers, binary data and extensions, in which
arrays and maps are nested at most so deep. -/
inductive Plain : Nat → Bytes → Prop
  | nil {depth : Nat} : Plain depth [0xc0]
  | bool {depth : Nat} (b : Bool) : Plain depth [if b then 0xc3 else 0xc2]
  | small {depth n : Nat} (fits : n < 128) : Plain depth [UInt8.ofNat n]
  | negative {depth m : Nat} (fits : m < 32) : Plain depth [UInt8.ofNat (255 - m)]
  | unsigned {depth n width : Nat} {first : UInt8} (wide : (first, width) ∈ unsignedMarks)
    (fits : n < bound width) : Plain depth (first :: BigEndian.encode width n)
  | signed {depth n width : Nat} {first : UInt8} (wide : (first, width) ∈ signedMarks)
    (fits : n < bound width) : Plain depth (first :: BigEndian.encode width n)
  | text {depth : Nat} {text : String} {bytes : Bytes} (spells : Spells text bytes) :
    Plain depth bytes
  | array {depth : Nat} {items : List Bytes} {marker : Bytes}
    (marks : Sizes.array.Marks items.length marker) (each : ∀ item ∈ items, Plain depth item) :
    Plain (depth + 1) (marker ++ items.flatten)
  | map {depth : Nat} {entries : List (Bytes × Bytes)} {marker : Bytes}
    (marks : Sizes.map.Marks entries.length marker)
    (keys : ∀ entry ∈ entries, ∃ text, Spells text entry.1)
    (values : ∀ entry ∈ entries, Plain depth entry.2) :
    Plain (depth + 1) (marker ++ entries.flatMap fun entry => entry.1 ++ entry.2)

/-! ## Reading -/

/-- The bytes are read as `result` wherever they stand. -/
def ReadAs {α : Type} (one : Reader α) (bytes : Bytes) (result : α) : Prop :=
  ∀ rest, one (bytes ++ rest) = some (result, rest)

/-- Things that are read one by one are read together. -/
theorem readAs_many {α : Type} {one : Reader α} {items : List Bytes} {results : List α}
    (each : List.Forall₂ (ReadAs one) items results) :
    ReadAs (readMany one items.length) items.flatten results := by
  intro rest
  induction each with
  | nil => rfl
  | cons first others ih =>
    rw [List.flatten_cons, List.append_assoc, List.length_cons, readMany, first]
    exact congrArg (Option.map _) ih

/-- Each is read as something, so they are read as some list. -/
theorem exists_readAs {α : Type} [Nonempty α] {one : Reader α} {items : List Bytes}
    (each : ∀ item ∈ items, ∃ result, ReadAs one item result) :
    ∃ results, List.Forall₂ (ReadAs one) items results := by
  choose! result read using each
  exact ⟨items.map result, List.forall₂_map_right_iff.mpr (List.forall₂_same.mpr read)⟩

theorem readAs_entry {α : Type} {one : Reader α} {first second : Bytes} {key value : α}
    (named : ReadAs one first key) (valued : ReadAs one second value) :
    ReadAs (readEntry one) (first ++ second) (key, value) :=
  fun rest => readEntry_append (named _) (valued rest)

theorem readAs_text {text : String} {bytes : Bytes} (spells : Spells text bytes) (depth : Nat) :
    ReadAs (Value.read? depth) bytes (.text (Utf8.encode text)) := by
  intro rest
  obtain ⟨marks⟩ := spells
  obtain ⟨first, digits, size, rfl, marked, sized⟩ := marks.text
  rw [List.append_assoc, List.cons_append, Value.read?.eq_def]
  simp only [marked, readSized_append sized]
  rfl

theorem readAs_array {depth : Nat} {items : List Bytes} {values : List Value} {marker : Bytes}
    (marks : Sizes.array.Marks items.length marker)
    (each : List.Forall₂ (ReadAs (Value.read? depth)) items values) :
    ReadAs (Value.read? (depth + 1)) (marker ++ items.flatten) (.array values) := by
  intro rest
  obtain ⟨first, digits, size, rfl, marked, sized⟩ := marks.array
  have read := readAs_many each rest
  rw [List.append_assoc, List.cons_append, Value.read?.eq_def]
  simp only [marked, sized, read]
  rfl

theorem readAs_map {depth : Nat} {members : List Bytes} {entries : List (Value × Value)}
    {marker : Bytes} (marks : Sizes.map.Marks members.length marker)
    (each : List.Forall₂ (ReadAs (readEntry (Value.read? depth))) members entries) :
    ReadAs (Value.read? (depth + 1)) (marker ++ members.flatten) (.map entries) := by
  intro rest
  obtain ⟨first, digits, size, rfl, marked, sized⟩ := marks.map
  have read := readAs_many each rest
  rw [List.append_assoc, List.cons_append, Value.read?.eq_def]
  simp only [marked, sized, read]
  rfl

instance : Nonempty Value := ⟨.nil⟩

/-- A plain value is read as some value, if the reader goes deep enough. -/
theorem read?_of_plain {depth : Nat} {bytes : Bytes} (plain : Plain depth bytes) {limit : Nat}
    (deep : depth ≤ limit) : ∃ value, ReadAs (Value.read? limit) bytes value := by
  induction plain generalizing limit with
  | nil =>
    refine ⟨.nil, fun rest => ?_⟩
    rw [List.singleton_append, Value.read?.eq_def]
    rfl
  | bool b =>
    refine ⟨.bool b, fun rest => ?_⟩
    rw [List.singleton_append, Value.read?.eq_def]
    cases b <;> rfl
  | @small depth n fits =>
    refine ⟨.unsigned 8 n, fun rest => ?_⟩
    rw [List.singleton_append, Value.read?.eq_def]
    simp only [ofByte_small fits]
  | @negative depth m fits =>
    refine ⟨.signed (.negSucc m), fun rest => ?_⟩
    rw [List.singleton_append, Value.read?.eq_def]
    simp only [ofByte_negative fits]
  | @unsigned depth n width first wide fits =>
    have marked : ∀ mark ∈ unsignedMarks, Marker.ofByte mark.1 = .unsigned mark.2 :=
      List.map_inj_left.mp rfl
    exact ⟨.unsigned (8 * width) n, read?_unsigned (marked _ wide) fits⟩
  | @signed depth n width first wide fits =>
    have marked : ∀ mark ∈ signedMarks, Marker.ofByte mark.1 = .signed mark.2 :=
      List.map_inj_left.mp rfl
    refine ⟨.signed (toSigned width n), fun rest => ?_⟩
    rw [List.cons_append, Value.read?.eq_def]
    simp only [marked _ wide, readNumber_encode fits]
    rfl
  | text spells => exact ⟨_, readAs_text spells limit⟩
  | array marks each ih =>
    cases limit with
    | zero => exact absurd deep (Nat.not_succ_le_zero _)
    | succ limit =>
      have inside := Nat.le_of_succ_le_succ deep
      obtain ⟨values, read⟩ := exists_readAs fun item among => ih item among inside
      exact ⟨.array values, readAs_array marks read⟩
  | @map depth entries marker marks keys values ih =>
    cases limit with
    | zero => exact absurd deep (Nat.not_succ_le_zero _)
    | succ limit =>
      have inside := Nat.le_of_succ_le_succ deep
      have each : ∀ member ∈ entries.map fun entry => entry.1 ++ entry.2,
          ∃ pair, ReadAs (readEntry (Value.read? limit)) member pair := by
        intro member among
        obtain ⟨entry, there, rfl⟩ := List.mem_map.mp among
        obtain ⟨text, spells⟩ := keys entry there
        obtain ⟨value, read⟩ := ih entry there inside
        exact ⟨(_, value), readAs_entry (readAs_text spells limit) read⟩
      obtain ⟨pairs, read⟩ := exists_readAs each
      rw [List.flatMap_def]
      exact ⟨.map pairs, readAs_map (by rwa [List.length_map]) read⟩

end HardwareSigner.MessagePack
