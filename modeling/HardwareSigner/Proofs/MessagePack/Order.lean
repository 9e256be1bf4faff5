import HardwareSigner.Proofs.MessagePack.Records
import HardwareSigner.Proofs.MessagePack.Widths

/-!
# Records in any order and among strangers

A field is entered into a record at the place of its name, so it does not matter which of two fields
comes first (`Fields.enter?_comm`), and a record reads alike from its entries in any order. An entry
under a name that the record does not have is passed over.

> `readRecord?_of_perm`: the entries of a record in any order, among others whose names it does not
> have, read as the record.

On the side of the bytes `Reordered value` are the payloads that hold the entries of the map `value`
in any order among strangers, that is, entries under other names whose values are plain.

> `read?_of_reordered`: such a payload is read as a map of the same entries among strangers.
-/

namespace HardwareSigner.MessagePack

open BigEndian (bound)

/-! ## Entries -/

section

variable {positions : Positions} {names : List String}

/-- Fills a place that is empty. -/
def Fields.fill? (fields : Fields) (i : Nat) (value : Value) : Option Fields :=
  match fields[i]? with
  | some none => some (fields.set i (some value))
  | _ => none

theorem Fields.fill?_of_empty {fields : Fields} {i : Nat} (empty : fields[i]? = some none)
    (value : Value) : fill? fields i value = some (fields.set i (some value)) := by
  simp only [fill?, empty]

theorem Fields.fill?_of_not_empty {fields : Fields} {i : Nat} (filled : fields[i]? ≠ some none)
    (value : Value) : fill? fields i value = none := by
  unfold fill?
  split
  next empty => exact absurd empty filled
  next => rfl

/-- Two places may be filled in either order. The same place is never filled twice. -/
theorem Fields.fill?_comm (fields : Fields) (i j : Nat) (first second : Value) :
    (fill? fields i first).bind (fill? · j second) =
      (fill? fields j second).bind (fill? · i first) := by
  by_cases one : fields[i]? = some none
  · rw [fill?_of_empty one, Option.bind_some]
    by_cases same : i = j
    · subst same
      have there : i < fields.length := (List.getElem?_eq_some_iff.mp one).1
      have filled : ∀ value : Value, (fields.set i (some value))[i]? ≠ some none := by
        intro value
        rw [List.getElem?_set_self there]
        simp
      rw [fill?_of_empty one, Option.bind_some, fill?_of_not_empty (filled first),
        fill?_of_not_empty (filled second)]
    by_cases other : fields[j]? = some none
    · have still : (fields.set i (some first))[j]? = some none := by
        rw [List.getElem?_set_ne same, other]
      have still' : (fields.set j (some second))[i]? = some none := by
        rw [List.getElem?_set_ne (Ne.symm same), one]
      rw [fill?_of_empty other, Option.bind_some, fill?_of_empty still, fill?_of_empty still',
        List.set_comm _ _ same]
    · have filled : (fields.set i (some first))[j]? ≠ some none := by
        rwa [List.getElem?_set_ne same]
      rw [fill?_of_not_empty other, fill?_of_not_empty filled, Option.bind_none]
  · rw [fill?_of_not_empty one, Option.bind_none]
    by_cases other : fields[j]? = some none
    · have filled : (fields.set j (some second))[i]? ≠ some none := by
        by_cases same : i = j
        · exact absurd (same ▸ other) one
        · rwa [List.getElem?_set_ne (Ne.symm same)]
      rw [fill?_of_empty other, Option.bind_some, fill?_of_not_empty filled]
    · rw [fill?_of_not_empty other, Option.bind_none]

theorem Fields.enter?_eq (fields : Fields) (entry : Value × Value) :
    enter? positions names fields entry =
      (nameIndex? positions names entry.1).bind fun
        | none => some fields
        | some i => fill? fields i entry.2 := by
  unfold enter?
  rcases nameIndex? positions names entry.1 with _ | _ | i <;> rfl

/-- Two fields may be entered in either order. If they have the same name, or a key is no name,
neither way leads to a record. -/
theorem Fields.enter?_comm (fields : Fields) (first second : Value × Value) :
    (enter? positions names fields first).bind (enter? positions names · second) =
      (enter? positions names fields second).bind (enter? positions names · first) := by
  simp only [enter?_eq]
  rcases nameIndex? positions names first.1 with _ | _ | i <;>
    rcases nameIndex? positions names second.1 with _ | _ | j <;>
    simp [fill?_comm]

/-- Entries are entered alike in any order. -/
theorem Fields.enter?_perm {entries others : List (Value × Value)} (same : entries.Perm others)
    (fields : Fields) :
    entries.foldlM (enter? positions names) fields =
      others.foldlM (enter? positions names) fields := by
  induction same generalizing fields with
  | nil => rfl
  | cons entry _ ih =>
    rw [List.foldlM_cons, List.foldlM_cons]
    exact congrArg _ (funext ih)
  | swap first second entries =>
    simp only [List.foldlM_cons, Option.bind_eq_bind, ← Option.bind_assoc]
    rw [enter?_comm]
  | trans _ _ ih ih' => rw [ih, ih']

/-- An entry under a name that the record does not have. -/
def Unnamed (names : List String) (entry : Value × Value) : Prop :=
  ∃ key, key ∉ names ∧ entry.1 = name key

theorem Fields.enter?_unnamed {entry : Value × Value} (unnamed : Unnamed names entry)
    (fields : Fields) : enter? positions names fields entry = some fields := by
  obtain ⟨key, unknown, same⟩ := unnamed
  have missing : names.findIdx? (fun n => n = key) = none := by
    rw [List.findIdx?_eq_none_iff]
    intro n among
    exact decide_eq_false fun same => unknown (same ▸ among)
  rw [enter?, same, nameIndex?_name, missing]

theorem Fields.enter?_allUnnamed {others : List (Value × Value)}
    (unnamed : ∀ other ∈ others, Unnamed names other) (fields : Fields) :
    others.foldlM (enter? positions names) fields = some fields := by
  induction others with
  | nil => rfl
  | cons other others ih =>
    rw [List.forall_mem_cons] at unnamed
    rw [List.foldlM_cons, enter?_unnamed unnamed.1]
    exact ih unnamed.2

end

/-- The entries of a record. -/
def entriesOf (fields : List (String × Value)) : List (Value × Value) :=
  fields.map fun field => (name field.1, field.2)

theorem name_mem_keys {fields : List (String × Value)} {key : String} :
    name key ∈ (entriesOf fields).map Prod.fst ↔ key ∈ fields.map Prod.fst := by
  rw [entriesOf, List.map_map, List.mem_map, List.mem_map]
  constructor
  · rintro ⟨field, among, same⟩
    exact ⟨field, among, Utf8.encode_inj.mp (Value.text.inj same)⟩
  · rintro ⟨field, among, rfl⟩
    exact ⟨field, among, rfl⟩

/-- A record reads alike from its entries in any order among those of other names. -/
theorem readRecord?_of_perm (positions : Positions) (fields : List (String × Value))
    (different : (fields.map Prod.fst).Nodup) {entries others : List (Value × Value)}
    (order : entries.Perm (entriesOf fields ++ others))
    (unnamed : ∀ other ∈ others, Unnamed (fields.map Prod.fst) other) :
    readRecord? positions (fields.map Prod.fst) (.map entries) =
      some (fields.map fun field => some field.2) := by
  have record := readRecord?_writeRecord positions fields different
  rw [writeRecord, readRecord?] at record
  rw [readRecord?, Fields.enter?_perm order, List.foldlM_append, entriesOf, record]
  exact Fields.enter?_allUnnamed unnamed _

/-! ## Payloads -/

/-- An entry under a name that is not among the `known` keys, nested at most a hundred deep. -/
inductive Stranger (known : List Value) : Bytes → Prop
  | intro {key : String} {spelt value : Bytes} (unknown : name key ∉ known)
    (spells : Spells key spelt) (plain : Plain 100 value) : Stranger known (spelt ++ value)

/-- The payload is a map with the entries of `value`, as they are written, in any order among
strangers. -/
inductive Reordered : Value → Bytes → Prop
  | intro {entries : List (Value × Value)} {members others : List Bytes} {marker : Bytes}
    (order : members.Perm (entries.map writeEntry ++ others))
    (strange : ∀ other ∈ others, Stranger (entries.map Prod.fst) other)
    (marks : Sizes.map.Marks members.length marker) :
    Reordered (.map entries) (marker ++ members.flatten)

theorem readAs_stranger {known : List Value} {other : Bytes} (strange : Stranger known other)
    {limit : Nat} (deep : 100 ≤ limit) :
    ∃ entry : Value × Value, ReadAs (readEntry (Value.read? limit)) other entry ∧
      ∃ key, entry.1 = name key ∧ name key ∉ known := by
  obtain ⟨unknown, spells, plain⟩ := strange
  obtain ⟨value, read⟩ := read?_of_plain plain deep
  exact ⟨(_, value), readAs_entry (readAs_text spells limit) read, _, rfl, unknown⟩

/-- An entry of a record in shortest form is read as it was written. -/
theorem readAs_writeEntry {limit : Nat} {field : String × Value}
    (shortest : field.2.Shortest limit)
    (short : (writeEntry (name field.1, field.2)).length < bound 4) :
    ReadAs (readEntry (Value.read? limit)) (writeEntry (name field.1, field.2))
      (name field.1, field.2) := by
  rw [writeEntry, List.length_append] at short
  exact readAs_entry (Value.read?_write (Value.shortest_name limit field.1) (by omega))
    (Value.read?_write shortest (by omega))

/-- How the values of a map are marked makes no difference, as long as they have the same bytes. -/
theorem Reordered.congr {entries others : List (Value × Value)}
    (keys : others.map Prod.fst = entries.map Prod.fst)
    (written : others.map writeEntry = entries.map writeEntry) {payload : Bytes}
    (reordered : Reordered (.map entries) payload) : Reordered (.map others) payload := by
  obtain ⟨order, strange, marks⟩ := reordered
  exact .intro (written ▸ order) (keys ▸ strange) marks

/-- A reordered record is read as a map of its entries, in some order among others. -/
theorem read?_of_reordered {limit : Nat} (deep : 100 ≤ limit) {fields : List (String × Value)}
    (shortest : ∀ field ∈ fields, field.2.Shortest limit)
    (short : (Value.map (entriesOf fields)).write.length < bound 4) {payload : Bytes}
    (reordered : Reordered (.map (entriesOf fields)) payload) :
    ∃ entries others, ReadAs (Value.read? (limit + 1)) payload (.map entries) ∧
      entries.Perm (entriesOf fields ++ others) ∧
      ∀ other ∈ others, Unnamed (fields.map Prod.fst) other := by
  cases reordered with
  | @intro _ members others marker order strange marks =>
    have own : List.Forall₂ (ReadAs (readEntry (Value.read? limit)))
        ((entriesOf fields).map writeEntry) (entriesOf fields) := by
      refine List.forall₂_map_left_iff.mpr (List.forall₂_same.mpr fun entry among => ?_)
      have part := length_le_of_mem writeEntry among
      rw [Value.write_map, List.length_append] at short
      obtain ⟨field, there, rfl⟩ := List.mem_map.mp among
      exact readAs_writeEntry (shortest field there) (by omega)
    have each := fun other among => readAs_stranger (strange other among) deep
    choose! stranger read unnamed using each
    obtain ⟨entries, found, same⟩ := List.perm_comp_forall₂ order
      (List.rel_append own (List.forall₂_map_right_iff.mpr (List.forall₂_same.mpr read)))
    refine ⟨entries, others.map stranger, readAs_map marks found, same, fun entry among => ?_⟩
    obtain ⟨other, there, rfl⟩ := List.mem_map.mp among
    obtain ⟨key, named, unknown⟩ := unnamed other there
    exact ⟨key, fun known => unknown (name_mem_keys.mpr known), named⟩

end HardwareSigner.MessagePack
