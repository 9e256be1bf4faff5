import HardwareSigner.Body.Varint
import HardwareSigner.Text.Utf8

/-!
# Request bodies with one field

The body of a raw request is a record with a single field, number 1, that holds text or bytes. It
is written as a key byte, the length and the value; an empty value is not written at all.

A body that is read may hold more: fields with other numbers are skipped, in groups up to
`maxDepth` deep, and of several values for the field the last one counts. `Scan.step?` reads one
key with what belongs to it, `Scan.run?` all of them.
-/

namespace HardwareSigner.Body

/-- How the value behind a key is laid out. -/
inductive Layout
  | varint | fixed64 | delimited | groupStart | groupEnd | fixed32
  deriving DecidableEq, Repr

def Layout.ofNat? : Nat → Option Layout
  | 0 => some .varint
  | 1 => some .fixed64
  | 2 => some .delimited
  | 3 => some .groupStart
  | 4 => some .groupEnd
  | 5 => some .fixed32
  | _ => none

/-- What stands in front of a value. -/
structure Key where
  /-- The field number, at least 1. -/
  number : Nat
  layout : Layout

/-- A key has 32 bits, the layout in the lowest three. -/
def readKey? (bytes : Bytes) : Option (Key × Bytes) :=
  match Varint.read? bytes with
  | none => none
  | some (n, rest) =>
    if n < UInt32.size ∧ 0 < n / 8 then
      (Layout.ofNat? (n % 8)).map fun layout => (⟨n / 8, layout⟩, rest)
    else none

/-- Exactly `count` bytes, and what follows them. -/
def take? (count : Nat) (bytes : Bytes) : Option (Bytes × Bytes) :=
  if bytes.length < count then none else some (bytes.take count, bytes.drop count)

/-- A length, as many bytes, and what follows them. -/
def readDelimited? (bytes : Bytes) : Option (Bytes × Bytes) :=
  match Varint.read? bytes with
  | none => none
  | some (count, rest) => take? count rest

/-- What follows a value that is no group. -/
def skipValue? (layout : Layout) (bytes : Bytes) : Option Bytes :=
  match layout with
  | .varint => (Varint.read? bytes).map Prod.snd
  | .fixed64 => (take? 8 bytes).map Prod.snd
  | .fixed32 => (take? 4 bytes).map Prod.snd
  | .delimited => (readDelimited? bytes).map Prod.snd
  | .groupStart | .groupEnd => none

/-- How deep groups may be nested. -/
def maxDepth : Nat := 100

/-- What has been read of a body so far. -/
structure Scan where
  /-- The numbers of the groups that are open, innermost first. -/
  groups : List Nat
  /-- The last value of the field. -/
  value : Bytes

namespace Scan

/-- One key and, unless it opens or closes a group, its value. `admits` says which values the
field may have. -/
def step? (admits : Bytes → Bool) (s : Scan) (bytes : Bytes) : Option (Scan × Bytes) :=
  match readKey? bytes with
  | none => none
  | some (key, rest) =>
    if s.groups.isEmpty && key.number == 1 then
      if key.layout = .delimited then
        match readDelimited? rest with
        | none => none
        | some (value, rest) =>
          if admits value then some ({ s with value := value }, rest) else none
      else none
    else if key.layout = .groupEnd then
      match s.groups with
      | [] => none
      | top :: outer => if top = key.number then some ({ s with groups := outer }, rest) else none
    else if maxDepth ≤ s.groups.length then none
    else if key.layout = .groupStart then
      some ({ s with groups := key.number :: s.groups }, rest)
    else (skipValue? key.layout rest).map fun rest => (s, rest)

theorem length_lt_of_readKey {bytes rest : Bytes} {key : Key}
    (h : readKey? bytes = some (key, rest)) : rest.length < bytes.length := by
  unfold readKey? at h
  split at h
  · cases h
  · next read =>
    split at h
    · obtain ⟨_, _, same⟩ := Option.map_eq_some_iff.1 h
      cases same
      exact Varint.length_lt_of_read read
    · cases h

theorem length_le_of_take {count : Nat} {bytes taken rest : Bytes}
    (h : take? count bytes = some (taken, rest)) : rest.length ≤ bytes.length := by
  unfold take? at h
  split at h
  · cases h
  · cases h; simp

theorem length_le_of_readDelimited {bytes value rest : Bytes}
    (h : readDelimited? bytes = some (value, rest)) : rest.length ≤ bytes.length := by
  unfold readDelimited? at h
  split at h
  · cases h
  · next read =>
    exact Nat.le_trans (length_le_of_take h) (Nat.le_of_lt (Varint.length_lt_of_read read))

theorem length_le_of_skipValue {layout : Layout} {bytes rest : Bytes}
    (h : skipValue? layout bytes = some rest) : rest.length ≤ bytes.length := by
  cases layout with
  | varint =>
    obtain ⟨_, read, rfl⟩ := Option.map_eq_some_iff.1 h
    exact Nat.le_of_lt (Varint.length_lt_of_read read)
  | fixed64 =>
    obtain ⟨_, read, rfl⟩ := Option.map_eq_some_iff.1 h
    exact length_le_of_take read
  | delimited =>
    obtain ⟨_, read, rfl⟩ := Option.map_eq_some_iff.1 h
    exact length_le_of_readDelimited read
  | groupStart => cases h
  | groupEnd => cases h
  | fixed32 =>
    obtain ⟨_, read, rfl⟩ := Option.map_eq_some_iff.1 h
    exact length_le_of_take read

/-- Every step takes at least one byte. -/
theorem length_lt_of_step {admits : Bytes → Bool} {s after : Scan} {bytes rest : Bytes}
    (h : s.step? admits bytes = some (after, rest)) : rest.length < bytes.length := by
  unfold step? at h
  split at h
  · cases h
  · next read =>
    have key := length_lt_of_readKey read
    split at h
    · split at h
      · split at h
        · cases h
        · next value =>
          split at h
          · cases h; exact Nat.lt_of_le_of_lt (length_le_of_readDelimited value) key
          · cases h
      · cases h
    · split at h
      · split at h
        · cases h
        · split at h
          · cases h; exact key
          · cases h
      · split at h
        · cases h
        · split at h
          · cases h; exact key
          · obtain ⟨_, skipped, same⟩ := Option.map_eq_some_iff.1 h
            cases same
            exact Nat.lt_of_le_of_lt (length_le_of_skipValue skipped) key

/-- Reads to the end, where no group may be open. -/
def run? (admits : Bytes → Bool) (s : Scan) (bytes : Bytes) : Option Bytes :=
  if bytes.isEmpty then if s.groups.isEmpty then some s.value else none
  else
    match _stepped : s.step? admits bytes with
    | none => none
    | some (after, rest) => after.run? admits rest
termination_by bytes.length
decreasing_by exact length_lt_of_step _stepped

end Scan

/-- The value of the field, empty if the body does not set it. -/
def read? (admits : Bytes → Bool) (bytes : Bytes) : Option Bytes :=
  Scan.run? admits ⟨[], []⟩ bytes

/-- The text of the field; every value it is given has to be text. -/
def readText? (bytes : Bytes) : Option String :=
  (read? (fun value => (Utf8.decode? value).isSome) bytes).bind Utf8.decode?

/-- The bytes of the field. -/
def readBytes? (bytes : Bytes) : Option Bytes := read? (fun _ => true) bytes

/-- The body that sets the field to `value`. -/
def write (value : Bytes) : Bytes :=
  if value.isEmpty then [] else 0x0a :: Varint.write value.length ++ value

end HardwareSigner.Body
