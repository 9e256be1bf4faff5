import HardwareSigner.MessagePack.Record
import HardwareSigner.Proofs.MessagePack.RoundTrip

/-!
# Records read back as they were written

A record is written field by field under its names. Two texts have the same bytes only if they are
the same text, so a written name is found among the names exactly where it stands
(`nameIndex?_name`), and every field comes back at its place:

> `readRecord?_writeRecord`: a record with different names reads back whole.

The values inside records, texts and octets, read back too, and records of values in shortest form
are in shortest form.
-/

namespace HardwareSigner

namespace Utf8

theorem encode_inj {first second : String} : encode first = encode second ↔ first = second := by
  constructor
  · intro same
    have read := decode_encode first
    rw [same, decode_encode second] at read
    exact (Option.some.inj read).symm
  · exact congrArg encode

end Utf8

namespace MessagePack

open BigEndian (bound)

/-! ## Names -/

/-- A written name means the first of the names that is the same text. -/
theorem nameIndex?_name (positions : Positions) (names : List String) (text : String) :
    nameIndex? positions names (name text) = some (names.findIdx? fun n => n = text) := by
  simp only [name, nameIndex?, Utf8.encode_inj]

theorem text?_name (text : String) : text? (name text) = some text :=
  Utf8.decode_encode text

/-- A name that is not among those before it is found behind them. -/
theorem findIdx?_name {before : List String} {text : String} (fresh : text ∉ before)
    (behind : List String) :
    (before ++ text :: behind).findIdx? (fun n => n = text) = some before.length := by
  have missing : before.findIdx? (fun n => n = text) = none := by
    rw [List.findIdx?_eq_none_iff]
    intro n among
    exact decide_eq_false fun same => fresh (same ▸ among)
  rw [List.findIdx?_append, missing, List.findIdx?_cons]
  simp

/-! ## Records -/

/-- A record of which some fields have been found. -/
def Fields.partly (found missing : List (String × Value)) : Fields :=
  found.map (fun field => some field.2) ++ List.replicate missing.length none

/-- The entry for the next field is entered at its place. -/
theorem Fields.enter?_next {positions : Positions} {found missing : List (String × Value)}
    {field : String × Value} (fresh : field.1 ∉ found.map Prod.fst) :
    Fields.enter? positions ((found ++ field :: missing).map Prod.fst)
        (Fields.partly found (field :: missing)) (name field.1, field.2) =
      some (Fields.partly (found ++ [field]) missing) := by
  have index : ((found ++ field :: missing).map Prod.fst).findIdx? (fun n => n = field.1) =
      some found.length := by
    rw [List.map_append, List.map_cons, findIdx?_name fresh, List.length_map]
  have length : (found.map fun field => some field.2).length = found.length := List.length_map _
  have free : (Fields.partly found (field :: missing))[found.length]? = some none := by
    rw [Fields.partly, List.length_cons, List.replicate_succ,
      List.getElem?_append_right (Nat.le_of_eq length), length, Nat.sub_self]
    rfl
  have entered : (Fields.partly found (field :: missing)).set found.length (some field.2) =
      Fields.partly (found ++ [field]) missing := by
    rw [Fields.partly, Fields.partly, List.length_cons, List.replicate_succ,
      List.set_append_right _ _ (Nat.le_of_eq length), length, Nat.sub_self, List.set_cons_zero,
      List.map_append, List.append_assoc]
    rfl
  rw [Fields.enter?, nameIndex?_name, index]
  simp only [free, entered]

/-- The entries for the missing fields complete the record. -/
theorem Fields.enter?_all {positions : Positions} (found missing : List (String × Value))
    (different : ((found ++ missing).map Prod.fst).Nodup) :
    (missing.map fun field => (name field.1, field.2)).foldlM
        (Fields.enter? positions ((found ++ missing).map Prod.fst)) (Fields.partly found missing) =
      some ((found ++ missing).map fun field => some field.2) := by
  induction missing generalizing found with
  | nil => simp [Fields.partly]
  | cons field missing ih =>
    have fresh : field.1 ∉ found.map Prod.fst := by
      rw [List.map_append, List.map_cons, List.nodup_append] at different
      intro among
      exact different.2.2 field.1 among field.1 (List.mem_cons_self ..) rfl
    rw [List.map_cons, List.foldlM_cons, Fields.enter?_next fresh]
    -- The field goes over from the missing ones to the found ones.
    have moved : found ++ field :: missing = (found ++ [field]) ++ missing :=
      (List.append_assoc found [field] missing).symm
    rw [moved] at different ⊢
    exact ih (found ++ [field]) different

/-- A record whose names differ reads back whole. -/
theorem readRecord?_writeRecord (positions : Positions) (fields : List (String × Value))
    (different : (fields.map Prod.fst).Nodup) :
    readRecord? positions (fields.map Prod.fst) (writeRecord fields) =
      some (fields.map fun field => some field.2) := by
  rw [writeRecord, readRecord?, List.length_map]
  exact Fields.enter?_all [] fields different

theorem readRecord?_one (positions : Positions) (field : String) (value : Value) :
    readRecord? positions [field] (writeRecord [(field, value)]) = some [some value] :=
  readRecord?_writeRecord positions [(field, value)] (by simp)

/-! ## Octets and numbers -/

theorem octets?_writeOctets (bytes : Bytes) : octets? (writeOctets bytes) = some bytes := by
  rw [writeOctets, octets?, List.mapM_map]
  induction bytes with
  | nil => rfl
  | cons b bytes ih =>
    have octet : (natBelow? 256 (.unsigned 8 b.toNat)).map UInt8.ofNat = some b := by
      rw [natBelow?, if_pos b.toNat_lt, Option.map_some, UInt8.ofNat_toNat]
    rw [List.mapM_cons, ih]
    simp only [Function.comp_apply, octet]
    rfl

theorem natBelow?_unsigned {limit bits n : Nat} (below : n < limit) :
    natBelow? limit (.unsigned bits n) = some n :=
  if_pos below

/-! ## Shortest forms -/

namespace Value

theorem shortest_name (depth : Nat) (text : String) : (name text).Shortest depth :=
  .text _

theorem shortest_writeRecord {depth : Nat} {fields : List (String × Value)}
    (each : ∀ field ∈ fields, field.2.Shortest depth) :
    (writeRecord fields).Shortest (depth + 1) := by
  refine .map ?_ ?_
  · intro entry among
    obtain ⟨field, -, rfl⟩ := List.mem_map.mp among
    exact shortest_name depth field.1
  · intro entry among
    obtain ⟨field, there, rfl⟩ := List.mem_map.mp among
    exact each field there

theorem shortest_writeOctets (depth : Nat) (bytes : Bytes) :
    (writeOctets bytes).Shortest (depth + 1) := by
  refine .array fun item among => ?_
  obtain ⟨b, -, rfl⟩ := List.mem_map.mp among
  have small : b.toNat < bound 1 := b.toNat_lt
  have bits : unsignedBits b.toNat = 8 := if_pos small
  exact bits ▸ .unsigned (Nat.lt_trans small (by decide))

end Value

end MessagePack

end HardwareSigner
