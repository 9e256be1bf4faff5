import Mathlib
import HardwareSigner.Codec.Raw
import HardwareSigner.Proofs.Body.Fields

/-!
# The bodies of raw requests

A value has one canonical body, and that is the one that is written. It reads back as the value,
provided that its length is a number of 64 bits, as that of everything in memory is. A body that
has been read need not be canonical, but its value then has a canonical body that reads the same.

> `requests_round_trip`: the requests have canonical bodies, and reading and writing are inverse to
> each other on all that can be read.
-/

namespace HardwareSigner

namespace Body

/-- The canonical body of a value: nothing for the empty one, and otherwise the key of field 1, the
length as short as can be, and the value. -/
inductive Canonical : Bytes → Bytes → Prop
  | empty : Canonical [] []
  | filled {value length : Bytes} (some : value ≠ [])
      (minimal : Varint.Minimal value.length length) :
      Canonical value (0x0a :: length ++ value)

section

variable {admits : Bytes → Bool} {bytes value : Bytes} {text : String}

theorem canonical_iff : Canonical value bytes ↔ bytes = write value := by
  constructor
  · intro canonical
    cases canonical with
    | empty => rfl
    | filled some minimal =>
      rw [write, if_neg (by rwa [List.isEmpty_iff]), ← Varint.eq_write_of_minimal minimal]
  · rintro rfl
    by_cases empty : value = []
    · subst empty
      exact .empty
    · rw [write, if_neg (by rwa [List.isEmpty_iff])]
      exact .filled empty (Varint.minimal_write _)

theorem canonical_write (value : Bytes) : Canonical value (write value) :=
  canonical_iff.mpr rfl

theorem spelled_field : Key.Spelled ⟨1, .delimited⟩ [0x0a] where
  accepted := by
    have accepted := Varint.accepted_write (n := 10) (by decide)
    rwa [Varint.write_of_small (by decide)] at accepted
  positive := Nat.one_pos
  fits := by decide

/-- A written value is read if it is admitted. -/
theorem read?_write (fits : value.length < UInt64.size)
    (admitted : value ≠ [] → admits value = true) : read? admits (write value) = some value := by
  rw [read?_eq_some_iff]
  by_cases empty : value = []
  · subst empty
    exact ⟨[], .nil, rfl⟩
  · have fields : Fields admits 0 ([0x0a] ++ (Varint.write value.length ++ value) ++ []) [value] :=
      .set spelled_field ⟨_, Varint.accepted_write fits, rfl⟩ (admitted empty) .nil
    rw [List.append_nil] at fields
    rw [write, if_neg (by rwa [List.isEmpty_iff])]
    exact ⟨[value], fields, rfl⟩

/-- Every value that is listed is admitted, and has a length of 64 bits. -/
theorem Fields.admitted {depth : Nat} {values : List Bytes}
    (fields : Fields admits depth bytes values) :
    ∀ value ∈ values, admits value = true ∧ value.length < UInt64.size := by
  induction fields with
  | nil => exact List.forall_mem_nil _
  | set _ delimits admitted _ ih =>
    obtain ⟨_, accepted, rfl⟩ := delimits
    exact List.forall_mem_cons.mpr ⟨⟨admitted, accepted.fits⟩, ih⟩
  | skip _ _ _ _ _ ih => exact ih
  | group _ _ _ _ _ _ _ ih => exact ih

/-- A value that has been read can be written and read again. -/
theorem read?_write_of_read? (read : read? admits bytes = some value) :
    read? admits (write value) = some value := by
  obtain ⟨values, fields, rfl⟩ := read?_eq_some_iff.mp read
  by_cases none : values = []
  · subst none
    exact read?_write (by decide) (absurd rfl)
  · rw [List.getLastD_eq_getLast?, List.getLast?_eq_some_getLast none]
    obtain ⟨admitted, fits⟩ := fields.admitted _ (List.getLast_mem none)
    exact read?_write fits fun _ => admitted

theorem readText?_eq_some_iff :
    readText? bytes = some text ↔
      read? (fun value => (Utf8.decode? value).isSome) bytes = some (Utf8.encode text) := by
  constructor
  · intro found
    obtain ⟨value, read, decoded⟩ := Option.bind_eq_some_iff.mp found
    rwa [← Utf8.eq_encode_of_decode decoded]
  · intro read
    exact Option.bind_eq_some_iff.mpr ⟨_, read, Utf8.decode_encode text⟩

end

end Body

namespace RawMessage

/-- The requests have their type and a canonical body, and it reads back. What can be read is what
the grammar says, with the last value it lists; whatever has been read has a canonical body, from
which it is read again. -/
theorem requests_round_trip :
    (∀ text : String, (codec.ping text).type = .ping ∧
      Body.Canonical (Utf8.encode text) (codec.ping text).payload ∧
      ((Utf8.encode text).length < UInt64.size →
        Body.readText? (codec.ping text).payload = some text)) ∧
    (∀ session : SessionId, (codec.startSession session).type = .startSession ∧
      Body.Canonical session.bytes (codec.startSession session).payload ∧
      Body.readBytes? (codec.startSession session).payload = some session.bytes) ∧
    (∀ bytes text, Body.readText? bytes = some text ↔
      ∃ values, Body.Fields (fun value => (Utf8.decode? value).isSome) 0 bytes values ∧
        Utf8.encode text = values.getLastD []) ∧
    (∀ bytes value, Body.readBytes? bytes = some value ↔
      ∃ values, Body.Fields (fun _ => true) 0 bytes values ∧ value = values.getLastD []) ∧
    (∀ bytes text, Body.readText? bytes = some text →
      Body.Canonical (Utf8.encode text) (Body.write (Utf8.encode text)) ∧
      Body.readText? (Body.write (Utf8.encode text)) = some text) ∧
    (∀ bytes value, Body.readBytes? bytes = some value →
      Body.Canonical value (Body.write value) ∧
      Body.readBytes? (Body.write value) = some value) := by
  refine ⟨fun text => ⟨rfl, Body.canonical_write _, fun fits => ?_⟩,
    fun session => ⟨rfl, Body.canonical_write _, ?_⟩, fun bytes text => ?_, fun bytes value => ?_,
    fun bytes text read => ⟨Body.canonical_write _, ?_⟩,
    fun bytes value read => ⟨Body.canonical_write _, ?_⟩⟩
  · refine Body.readText?_eq_some_iff.mpr (Body.read?_write fits fun _ => ?_)
    rw [Utf8.decode_encode]
    rfl
  · exact Body.read?_write (session.length_eq ▸ by decide) fun _ => rfl
  · exact Body.readText?_eq_some_iff.trans Body.read?_eq_some_iff
  · exact Body.read?_eq_some_iff
  · exact Body.readText?_eq_some_iff.mpr
      (Body.read?_write_of_read? (Body.readText?_eq_some_iff.mp read))
  · exact Body.read?_write_of_read? read

/-- Unknown fields of every layout and a group, a first value, and a second one whose key and length
are longer than they need be. -/
def ragged : Bytes :=
  [0x12, 0x01, 0xff, 0x13, 0x08, 0x2a, 0x14, 0x19, 0, 0, 0, 0, 0, 0, 0, 0, 0x25, 0, 0, 0, 0, 0x28,
    0x80, 0x00, 0x0a, 0x01, 0x61, 0x8a, 0x00, 0x82, 0x00, 0x68, 0x69]

theorem requests_round_trip_ragged :
    ((Utf8.encode "hi").length < UInt64.size ∧
      Body.readText? (codec.ping "hi").payload = some "hi") ∧
    (Body.readText? ragged = some "hi" ∧
      Body.Canonical (Utf8.encode "hi") (Body.write (Utf8.encode "hi")) ∧
      Body.readText? (Body.write (Utf8.encode "hi")) = some "hi") ∧
    (Body.readBytes? ragged = some [0x68, 0x69] ∧
      Body.Canonical [0x68, 0x69] (Body.write [0x68, 0x69]) ∧
      Body.readBytes? (Body.write [0x68, 0x69]) = some [0x68, 0x69]) := by
  have fits : (Utf8.encode "hi").length < UInt64.size := by decide
  have text : Body.readText? ragged = some "hi" := by cbv
  have bytes : Body.readBytes? ragged = some [0x68, 0x69] := by cbv
  obtain ⟨pings, -, -, -, texts, values⟩ := requests_round_trip
  exact ⟨⟨fits, (pings "hi").2.2 fits⟩, ⟨text, texts _ _ text⟩, bytes, values _ _ bytes⟩

end RawMessage

end HardwareSigner
