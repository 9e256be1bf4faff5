import HardwareSigner.MessagePack.Value
import HardwareSigner.Text.Utf8

/-!
# Records as MessagePack values

A record with named fields is written as a map from names to values in declaration order. It is
read from a map in any order, where entries with other names are passed over, a name may not come
twice, and a field may be named by its position; or from an array that holds exactly the fields in
order.
-/

namespace HardwareSigner.MessagePack

/-- A name as a key. -/
def name (text : String) : Value := .text (Utf8.encode text)

/-- The map that names each field. -/
def writeRecord (fields : List (String × Value)) : Value :=
  .map (fields.map fun field => (name field.1, field.2))

/-- Which unsigned markers may give a position: any, or only those of 8 and 64 bits. -/
inductive Positions
  | anyWidth
  | byteOrLong
  deriving DecidableEq, Repr

def Positions.admit : Positions → Nat → Bool
  | .anyWidth, _ => true
  | .byteOrLong, bits => bits == 8 || bits == 64

/-- Which of the names a key means: `some none` for another name, `none` if it is no name at all. -/
def nameIndex? (positions : Positions) (names : List String) : Value → Option (Option Nat)
  | .text utf8 | .binary utf8 => some (names.findIdx? fun n => Utf8.encode n = utf8)
  | .unsigned bits n =>
    if positions.admit bits then some (if n < names.length then some n else none) else none
  | _ => none

/-- The fields of a record as far as they have been found. -/
abbrev Fields := List (Option Value)

/-- Enters one entry of a map. -/
def Fields.enter? (positions : Positions) (names : List String) (fields : Fields)
    (entry : Value × Value) : Option Fields :=
  match nameIndex? positions names entry.1 with
  | none => none
  | some none => some fields
  | some (some i) =>
    match fields[i]? with
    | some none => some (fields.set i (some entry.2))
    | _ => none

/-- The fields of a record in declaration order, with `none` for each that is missing. -/
def readRecord? (positions : Positions) (names : List String) : Value → Option Fields
  | .map entries =>
    entries.foldlM (Fields.enter? positions names) (List.replicate names.length none)
  | .array items => if items.length = names.length then some (items.map some) else none
  | _ => none

/-- Text, or bytes that are text. -/
def text? : Value → Option String
  | .text utf8 | .binary utf8 => Utf8.decode? utf8
  | _ => none

/-- A number below `bound`, however marked. -/
def natBelow? (bound : Nat) : Value → Option Nat
  | .unsigned _ n => if n < bound then some n else none
  | .signed (.ofNat n) => if n < bound then some n else none
  | _ => none

/-- An array of numbers below 256. -/
def octets? : Value → Option Bytes
  | .array items => items.mapM fun item => (natBelow? 256 item).map UInt8.ofNat
  | _ => none

/-- Bytes as an array of numbers. -/
def writeOctets (bytes : Bytes) : Value := .array (bytes.map fun b => .unsigned 8 b.toNat)

end HardwareSigner.MessagePack
