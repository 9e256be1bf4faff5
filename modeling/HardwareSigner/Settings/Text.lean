import HardwareSigner.Settings.Basic
import HardwareSigner.Text.Utf8
import HardwareSigner.Toml.Document
import HardwareSigner.Toml.Writer

/-!
# Settings as TOML

A configuration has two tables, `transport` and `engine`. What is missing takes its default, what is
unknown is passed over, except that a `transport` table has to name its `kind`. Either may also be
given as a list of its values in order; only the list of the transport may not be too long.

> `ClientSettings.write` gives the text of a configuration, `ClientSettings.read` reads one and
> refuses what would not work.
-/

namespace HardwareSigner

open Toml (Value Entries Scalar)

/-! ## Reading -/

/-- The values of a record's fields in order, as far as they are given. -/
abbrev Given := List (Option Value)

/-- Takes the fields of a record by name from a table, or by position from a list. A list with more
values than there are fields is refused if it is `closed`. A date counts as a table that has none of
the fields. -/
def Given.of? (names : List String) (closed : Bool) : Value → Option Given
  | .table _ entries => some (names.map (Entries.find? entries))
  | .array items | .tables items =>
    if closed && names.length < items.length then none
    else some ((List.range names.length).map fun i => items[i]?)
  | .dateTime => some (names.map fun _ => none)
  | _ => none

namespace Toml.Value

/-- A whole number below `bound`. -/
def natBelow? (bound : Nat) : Value → Option Nat
  | .integer (.ofNat n) => if n < bound then some n else none
  | _ => none

def string? : Value → Option String
  | .string s => some s
  | _ => none

end Toml.Value

/-- The value that is given, read as it has to be, or the default. -/
def orDefault {α : Type} (given : Option Value) (read : Value → Option α) (otherwise : α) :
    Option α :=
  match given with
  | none => some otherwise
  | some value => read value

def readWord16 (value : Value) : Option UInt16 := (value.natBelow? UInt16.size).map UInt16.ofNat

def readWord32 (value : Value) : Option UInt32 := (value.natBelow? UInt32.size).map UInt32.ofNat

def readWord64 (value : Value) : Option UInt64 := (value.natBelow? UInt64.size).map UInt64.ofNat

namespace StreamSettings

def names : List String := ["host", "port", "connect_timeout_ms"]

def ofGiven? : Given → Option StreamSettings
  | [host, port, timeout] => do
    let usual : StreamSettings := {}
    return {
      host := ← orDefault host Value.string? usual.host
      port := ← orDefault port readWord16 usual.port
      connectTimeoutMs := ← orDefault timeout readWord64 usual.connectTimeoutMs }
  | _ => none

end StreamSettings

namespace HidSettings

def names : List String := ["vendor_id", "product_id", "serial_number", "read_timeout_ms"]

def ofGiven? : Given → Option HidSettings
  | [vendor, product, serial, timeout] => do
    let usual : HidSettings := {}
    return {
      vendor := ← orDefault vendor readWord16 usual.vendor
      product := ← orDefault product readWord16 usual.product
      serial? := ← orDefault serial (fun value => value.string?.map some) usual.serial?
      readTimeoutMs := ← orDefault timeout readWord64 usual.readTimeoutMs }
  | _ => none

end HidSettings

namespace EngineSettings

def names : List String :=
  ["queue_capacity", "shutdown_grace_ms", "eof_poll_interval_ms", "response_timeout_ms",
    "max_payload_size"]

def ofGiven? : Given → Option EngineSettings
  | [capacity, grace, eof, response, payload] => do
    let usual : EngineSettings := {}
    return {
      queueCapacity := ← orDefault capacity readWord64 usual.queueCapacity
      shutdownGraceMs := ← orDefault grace readWord64 usual.shutdownGraceMs
      eofPollMs := ← orDefault eof readWord64 usual.eofPollMs
      responseTimeoutMs := ← orDefault response readWord64 usual.responseTimeoutMs
      maxPayload := ← orDefault payload readWord32 usual.maxPayload }
  | _ => none

def ofValue? (value : Value) : Option EngineSettings := do
  ofGiven? (← Given.of? names false value)

end EngineSettings

namespace TransportSettings

/-- The kind of a transport and the rest of what is given for it. -/
def splitKind? : Value → Option (String × Value)
  | .table origin entries =>
    match Entries.find? entries "kind" with
    | some (.string kind) => some (kind, .table origin (Entries.erase entries "kind"))
    | _ => none
  | .array (.string kind :: items) => some (kind, .array items)
  | _ => none

def ofValue? (value : Value) : Option TransportSettings := do
  let (kind, rest) ← splitKind? value
  if kind = "stream" then
    return .stream (← StreamSettings.ofGiven? (← Given.of? StreamSettings.names true rest))
  else if kind = "hid" then
    return .hid (← HidSettings.ofGiven? (← Given.of? HidSettings.names true rest))
  else none

end TransportSettings

namespace ClientSettings

def ofEntries? (entries : Entries) : Option ClientSettings := do
  let usual : ClientSettings := {}
  return {
    transport :=
      ← orDefault (Entries.find? entries "transport") TransportSettings.ofValue? usual.transport
    engine := ← orDefault (Entries.find? entries "engine") EngineSettings.ofValue? usual.engine }

/-- The configuration in a text, if it can be used. -/
def read (text : String) : Except Failure ClientSettings :=
  match (Toml.parse? text).bind ofEntries? with
  | none => .error (.unreadableSettings "no configuration")
  | some settings =>
    match settings.check with
    | .error fault => .error (.settings fault)
    | .ok () => .ok settings

end ClientSettings

/-- What is found at the path of a configuration file. -/
inductive Stored
  | nothing
  | directory
  | file (content : Bytes)

/-- The configuration in a file; the default one if there is none. -/
def ClientSettings.load : Stored → Except Failure ClientSettings
  | .nothing => .ok {}
  | .directory => .error (.io (.system .isDirectory))
  | .file content =>
    match Utf8.decode? content with
    | none => .error (.io (.system .notUtf8))
    | some text => ClientSettings.read text

/-! ## Writing -/

namespace TransportSettings

def pairs : TransportSettings → List (String × Scalar)
  | .stream s =>
    [("kind", .text "stream"), ("host", .text s.host), ("port", .number s.port.toNat),
      ("connect_timeout_ms", .number s.connectTimeoutMs.toNat)]
  | .hid s =>
    [("kind", .text "hid"), ("vendor_id", .number s.vendor.toNat),
      ("product_id", .number s.product.toNat)] ++
    (s.serial?.map fun serial => ("serial_number", Scalar.text serial)).toList ++
    [("read_timeout_ms", .number s.readTimeoutMs.toNat)]

end TransportSettings

namespace EngineSettings

def pairs (s : EngineSettings) : List (String × Scalar) :=
  [("queue_capacity", .number s.queueCapacity.toNat),
    ("shutdown_grace_ms", .number s.shutdownGraceMs.toNat),
    ("eof_poll_interval_ms", .number s.eofPollMs.toNat),
    ("response_timeout_ms", .number s.responseTimeoutMs.toNat),
    ("max_payload_size", .number s.maxPayload.toNat)]

end EngineSettings

namespace ClientSettings

def tables (s : ClientSettings) : List (String × List (String × Scalar)) :=
  [("transport", s.transport.pairs), ("engine", s.engine.pairs)]

/-- The numbers that are written. -/
def numbers (s : ClientSettings) : List Nat :=
  s.tables.flatMap fun table => table.2.filterMap fun pair =>
    match pair.2 with
    | .number n => some n
    | .text _ => none

/-- The text of a configuration, unless it has a number that is too large for one. -/
def write (s : ClientSettings) : Except Failure String :=
  if s.numbers.all (· ≤ Toml.maxInteger) then .ok (String.ofList (Toml.writeTables s.tables))
  else .error (.unwritableSettings "number too large")

end ClientSettings

end HardwareSigner
