import HardwareSigner.Proofs.Toml.Documents
import HardwareSigner.Settings.Text

/-!
# Settings survive being written

A configuration is written as two tables, and each table reads back as the record it was written
from: numbers come back in their width, a serial number that is missing stays missing, and the kind
of the transport is found again among its fields. A number is too large only if it does not fit the
63 bits of a TOML integer, and only times and sizes of 64 bits can be that large.

> `ClientSettings.survives_toml`: a configuration that can be used is written exactly if none of its
> numbers is too large, and reads back as it was.
-/

namespace HardwareSigner

open Toml (Value Entries Scalar entriesOf tablesOf Bare Writable)

/-! ## Fields -/

theorem readWord16_toNat (n : UInt16) : readWord16 (.integer n.toNat) = some n := by
  show Option.map _ (if n.toNat < UInt16.size then some n.toNat else none) = _
  rw [if_pos n.toNat_lt_size, Option.map_some, UInt16.ofNat_toNat]

theorem readWord32_toNat (n : UInt32) : readWord32 (.integer n.toNat) = some n := by
  show Option.map _ (if n.toNat < UInt32.size then some n.toNat else none) = _
  rw [if_pos n.toNat_lt_size, Option.map_some, UInt32.ofNat_toNat]

theorem readWord64_toNat (n : UInt64) : readWord64 (.integer n.toNat) = some n := by
  show Option.map _ (if n.toNat < UInt64.size then some n.toNat else none) = _
  rw [if_pos n.toNat_lt_size, Option.map_some, UInt64.ofNat_toNat]

/-! ## Records -/

theorem StreamSettings.ofGiven_written (s : StreamSettings) :
    ofGiven? [some (.string s.host), some (.integer s.port.toNat),
      some (.integer s.connectTimeoutMs.toNat)] = some s := by
  simp only [ofGiven?, orDefault, Value.string?, readWord16_toNat, readWord64_toNat]
  rfl

theorem HidSettings.ofGiven_written (s : HidSettings) :
    ofGiven? [some (.integer s.vendor.toNat), some (.integer s.product.toNat),
      s.serial?.map Value.string, some (.integer s.readTimeoutMs.toNat)] = some s := by
  obtain ⟨vendor, product, serial, timeout⟩ := s
  cases serial
  all_goals
    simp only [ofGiven?, orDefault, Option.map, Value.string?, readWord16_toNat, readWord64_toNat]
    rfl

theorem EngineSettings.ofGiven_written (s : EngineSettings) :
    ofGiven? [some (.integer s.queueCapacity.toNat), some (.integer s.shutdownGraceMs.toNat),
      some (.integer s.eofPollMs.toNat), some (.integer s.responseTimeoutMs.toNat),
      some (.integer s.maxPayload.toNat)] = some s := by
  simp only [ofGiven?, orDefault, readWord32_toNat, readWord64_toNat]
  rfl

/-- The keys of the engine's table need no quotes and differ. -/
theorem EngineSettings.keys_written (s : EngineSettings) :
    (∀ key ∈ s.pairs.map Prod.fst, Bare key) ∧ (s.pairs.map Prod.fst).Nodup := by
  show (∀ key ∈ names, Bare key) ∧ names.Nodup
  decide

theorem EngineSettings.given_written (s : EngineSettings) :
    Given.of? names false (.table .header (entriesOf s.pairs)) =
      some [some (.integer s.queueCapacity.toNat), some (.integer s.shutdownGraceMs.toNat),
        some (.integer s.eofPollMs.toNat), some (.integer s.responseTimeoutMs.toNat),
        some (.integer s.maxPayload.toNat)] := rfl

theorem EngineSettings.ofValue_written (s : EngineSettings) :
    ofValue? (.table .header (entriesOf s.pairs)) = some s := by
  rw [ofValue?, s.given_written]
  exact s.ofGiven_written

namespace TransportSettings

def kind : TransportSettings → String
  | .stream _ => "stream"
  | .hid _ => "hid"

theorem keys_written (s : TransportSettings) :
    (∀ key ∈ s.pairs.map Prod.fst, Bare key) ∧ (s.pairs.map Prod.fst).Nodup := by
  match s with
  | .stream _ =>
    show (∀ key ∈ "kind" :: StreamSettings.names, Bare key) ∧ ("kind" :: StreamSettings.names).Nodup
    decide
  | .hid ⟨_, _, some _, _⟩ =>
    show (∀ key ∈ "kind" :: HidSettings.names, Bare key) ∧ ("kind" :: HidSettings.names).Nodup
    decide
  | .hid ⟨_, _, none, _⟩ =>
    show (∀ key ∈ "kind" :: HidSettings.names.erase "serial_number", Bare key) ∧
      ("kind" :: HidSettings.names.erase "serial_number").Nodup
    decide

/-- The kind is written first, and the other fields are left without it. -/
theorem splitKind_written (s : TransportSettings) :
    splitKind? (.table .header (entriesOf s.pairs)) =
      some (s.kind, .table .header (entriesOf s.pairs.tail)) := by
  match s with
  | .stream _ | .hid ⟨_, _, none, _⟩ | .hid ⟨_, _, some _, _⟩ => rfl

theorem stream_given_written (s : StreamSettings) :
    Given.of? StreamSettings.names true (.table .header (entriesOf (stream s).pairs.tail)) =
      some [some (.string s.host), some (.integer s.port.toNat),
        some (.integer s.connectTimeoutMs.toNat)] := rfl

theorem hid_given_written (s : HidSettings) :
    Given.of? HidSettings.names true (.table .header (entriesOf (hid s).pairs.tail)) =
      some [some (.integer s.vendor.toNat), some (.integer s.product.toNat),
        s.serial?.map Value.string, some (.integer s.readTimeoutMs.toNat)] := by
  match s with
  | ⟨_, _, none, _⟩ | ⟨_, _, some _, _⟩ => rfl

theorem ofValue_written (s : TransportSettings) :
    ofValue? (.table .header (entriesOf s.pairs)) = some s := by
  rw [ofValue?, s.splitKind_written]
  simp only [kind, Option.bind_eq_bind, Option.bind_some]
  cases s with
  | stream s =>
    rw [if_pos rfl, stream_given_written, Option.bind_some, s.ofGiven_written]
    rfl
  | hid s =>
    rw [if_neg (show ¬"hid" = "stream" by decide), if_pos rfl,
      hid_given_written, Option.bind_some, s.ofGiven_written]
    rfl

end TransportSettings

namespace ClientSettings

theorem ofEntries_written (s : ClientSettings) : ofEntries? (tablesOf s.tables) = some s := by
  show ((TransportSettings.ofValue? (.table .header (entriesOf s.transport.pairs))).bind fun _ =>
    (EngineSettings.ofValue? (.table .header (entriesOf s.engine.pairs))).bind fun _ => _) = some s
  rw [s.transport.ofValue_written, s.engine.ofValue_written]
  rfl

/-! ## Texts -/

theorem names_bare (s : ClientSettings) : ∀ name ∈ s.tables.map Prod.fst, Bare name := by
  show ∀ name ∈ ["transport", "engine"], Bare name
  decide

theorem names_distinct (s : ClientSettings) : (s.tables.map Prod.fst).Nodup := by
  show ["transport", "engine"].Nodup
  decide

theorem tables_fit {s : ClientSettings} (fit : ∀ n ∈ s.numbers, n ≤ Toml.maxInteger) :
    ∀ table ∈ s.tables, ∀ pair ∈ table.2, pair.2.Fits := by
  intro table among pair inside
  obtain ⟨key, value⟩ := pair
  cases value with
  | text _ => exact trivial
  | number n =>
    exact fit n (List.mem_flatMap.2 ⟨table, among, List.mem_filterMap.2 ⟨_, inside, rfl⟩⟩)

theorem tables_writable {s : ClientSettings} (fit : ∀ n ∈ s.numbers, n ≤ Toml.maxInteger) :
    ∀ table ∈ s.tables, Writable table.2 := by
  have fits := tables_fit fit
  have keys : ∀ table ∈ s.tables, (∀ key ∈ table.2.map Prod.fst, Bare key) ∧
      (table.2.map Prod.fst).Nodup := by
    show ∀ table ∈ [("transport", s.transport.pairs), ("engine", s.engine.pairs)], _
    rw [List.forall_mem_cons, List.forall_mem_singleton]
    exact ⟨s.transport.keys_written, s.engine.keys_written⟩
  exact fun table among => ⟨(keys table among).1, (keys table among).2, fits table among⟩

theorem write_eq_ok {s : ClientSettings} {text : String} :
    s.write = .ok text ↔ (∀ n ∈ s.numbers, n ≤ Toml.maxInteger) ∧
      text = String.ofList (Toml.writeTables s.tables) := by
  have all : s.numbers.all (· ≤ Toml.maxInteger) = true ↔ ∀ n ∈ s.numbers, n ≤ Toml.maxInteger := by
    simp only [List.all_eq_true, decide_eq_true_eq]
  rw [write, ← all]
  split
  case isTrue fit => exact ⟨fun same => ⟨fit, by cases same; rfl⟩, fun ⟨_, same⟩ => by rw [same]⟩
  case isFalse unfit => exact ⟨nofun, fun ⟨fit, _⟩ => absurd fit unfit⟩

theorem read_write {s : ClientSettings} {text : String} (ok : s.check = .ok ())
    (written : s.write = .ok text) : read text = .ok s := by
  obtain ⟨fit, rfl⟩ := write_eq_ok.1 written
  rw [read, Toml.parse_writeTables s.names_bare s.names_distinct (tables_writable fit),
    Option.bind_some, s.ofEntries_written]
  dsimp only
  rw [ok]

/-- The numbers of 64 bits: the timeout of the transport, the size of the queues and the times of
the engine. -/
def words (s : ClientSettings) : List UInt64 :=
  (match s.transport with
    | .stream stream => stream.connectTimeoutMs
    | .hid hid => hid.readTimeoutMs) ::
  [s.engine.queueCapacity, s.engine.shutdownGraceMs, s.engine.eofPollMs, s.engine.responseTimeoutMs]

/-- The numbers of 16 and 32 bits always fit. -/
theorem numbers_fit (s : ClientSettings) :
    (∀ n ∈ s.numbers, n ≤ Toml.maxInteger) ↔ ∀ word ∈ s.words, word.toNat ≤ Toml.maxInteger := by
  obtain ⟨transport, engine⟩ := s
  have payload := engine.maxPayload.toNat_lt
  match transport with
  | .stream ⟨host, port, timeout⟩ =>
    have ports := port.toNat_lt
    have listed : numbers ⟨.stream ⟨host, port, timeout⟩, engine⟩ =
        [port.toNat, timeout.toNat, engine.queueCapacity.toNat, engine.shutdownGraceMs.toNat,
          engine.eofPollMs.toNat, engine.responseTimeoutMs.toNat, engine.maxPayload.toNat] := rfl
    rw [listed]
    simp only [words, Toml.maxInteger, List.forall_mem_cons, List.not_mem_nil, false_implies,
      implies_true, and_true]
    omega
  | .hid ⟨vendor, product, serial?, timeout⟩ =>
    have vendors := vendor.toNat_lt
    have products := product.toNat_lt
    have listed : numbers ⟨.hid ⟨vendor, product, serial?, timeout⟩, engine⟩ =
        [vendor.toNat, product.toNat, timeout.toNat, engine.queueCapacity.toNat,
          engine.shutdownGraceMs.toNat, engine.eofPollMs.toNat, engine.responseTimeoutMs.toNat,
          engine.maxPayload.toNat] := by
      cases serial? <;> rfl
    rw [listed]
    simp only [words, Toml.maxInteger, List.forall_mem_cons, List.not_mem_nil, false_implies,
      implies_true, and_true]
    omega

/-- A configuration that can be used survives being written: it is written exactly if none of its
numbers is 2^63 or more, and what is written reads back as it was. -/
theorem survives_toml (s : ClientSettings) (ok : s.check = .ok ()) :
    ((∃ text, s.write = .ok text) ↔ ∀ word ∈ s.words, word.toNat ≤ Nat.pow 2 63 - 1) ∧
      ∀ text, s.write = .ok text → read text = .ok s := by
  have largest : Nat.pow 2 63 - 1 = Toml.maxInteger := by decide
  refine ⟨?_, fun text => read_write ok⟩
  rw [largest, ← s.numbers_fit]
  refine ⟨fun ⟨text, written⟩ => (write_eq_ok.1 written).1, fun fit => ?_⟩
  exact ⟨_, write_eq_ok.2 ⟨fit, rfl⟩⟩

/-- A serial number with quotes of both kinds, a backslash, a line break and control characters. -/
theorem serial_survives_toml :
    ∃ hid : HidSettings, hid.serial? = some "a\"\"\"\x27\x27\x27\\\n\x07\x7f\r\t" ∧
      ∃ text, write ⟨.hid hid, {}⟩ = .ok text ∧ read text = .ok ⟨.hid hid, {}⟩ := by
  let hid : HidSettings := { serial? := some "a\"\"\"\x27\x27\x27\\\n\x07\x7f\r\t" }
  have ⟨written, back⟩ := survives_toml ⟨.hid hid, {}⟩ rfl
  have fit : ∀ word ∈ words ⟨.hid hid, {}⟩, word.toNat ≤ Nat.pow 2 63 - 1 := by
    simp only [words, List.forall_mem_cons, List.not_mem_nil, false_implies, implies_true, and_true]
    decide
  obtain ⟨text, same⟩ := written.2 fit
  exact ⟨hid, rfl, text, same, back text same⟩

end ClientSettings

end HardwareSigner
