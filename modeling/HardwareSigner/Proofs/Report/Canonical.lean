import HardwareSigner.Proofs.Report.Segments

/-!
# The form of the reports of a payload

Cutting a payload gives reports of a certain form (`Canonical`): all have their 64 bytes, all are
full but for the last, the last is not empty, and behind the valid bytes there are zeros. There is
only one list of reports of this form for any payload, so cutting and putting together are inverse
to each other. The cuts between payloads are not seen by whoever joins their reports.

> `cut_and_joined`: the reports of a payload are the only canonical ones with its bytes, and the
> reports of several payloads are joined to all their bytes.
-/

namespace HardwareSigner.Report

/-- All reports have their size and are padded with zeros; all are full but for the last, which
holds at least one byte. -/
structure Canonical (reports : List Bytes) : Prop where
  sized : ∀ report ∈ reports, report.length = size
  padded : ∀ report ∈ reports, ∀ byte ∈ report.drop (1 + (claimed report).toNat), byte = 0
  full : ∀ report ∈ reports.dropLast, (claimed report).toNat = capacity
  last : ∀ report ∈ reports.getLast?,
    1 ≤ (claimed report).toNat ∧ (claimed report).toNat ≤ capacity

theorem map_eq_self {α : Type} {change : α → α} {elements : List α}
    (same : ∀ element ∈ elements, change element = element) : elements.map change = elements :=
  (List.map_congr_left same).trans (List.map_id elements)

/-! ## Pieces -/

section

variable {payload piece : Bytes}

@[simp] theorem pieces_nil : pieces [] = [] := by
  rw [pieces]
  rfl

theorem pieces_of_ne_nil (some : payload ≠ []) :
    pieces payload = payload.take capacity :: pieces (payload.drop capacity) := by
  rw [pieces]
  exact if_neg (by rwa [List.isEmpty_iff])

/-- A full piece in front of a payload is the first piece of the whole. -/
theorem pieces_append (full : piece.length = capacity) (payload : Bytes) :
    pieces (piece ++ payload) = piece :: pieces payload := by
  have some : piece ++ payload ≠ [] := by
    rintro nothing
    rw [(List.append_eq_nil_iff.mp nothing).1] at full
    cases full
  rw [pieces_of_ne_nil some, List.take_left' full, List.drop_left' full]

theorem pieces_of_fits (some : piece ≠ []) (fits : piece.length ≤ capacity) :
    pieces piece = [piece] := by
  rw [pieces_of_ne_nil some, List.take_of_length_le fits, List.drop_of_length_le fits, pieces_nil]

theorem length_pieces (payload : Bytes) :
    (pieces payload).length = payload.length ⌈/⌉ capacity := by
  fun_induction pieces payload with
  | case1 payload nothing =>
    rw [List.isEmpty_iff.mp nothing]
    rfl
  | case2 payload some ih =>
    have long : payload.length ≠ 0 := by
      rwa [Ne, List.length_eq_zero_iff, ← List.isEmpty_iff]
    rw [List.length_cons, ih, List.length_drop, Nat.ceilDiv_eq_add_pred_div,
      Nat.ceilDiv_eq_add_pred_div]
    unfold capacity size
    omega

/-- The first pieces are the first part of the payload. -/
theorem flatten_take_pieces (count : Nat) (payload : Bytes) :
    ((pieces payload).take count).flatten = payload.take (count * capacity) := by
  fun_induction pieces payload generalizing count with
  | case1 payload nothing =>
    rw [List.isEmpty_iff.mp nothing, List.take_nil, List.take_nil]
    rfl
  | case2 payload some ih =>
    cases count with
    | zero => rw [Nat.zero_mul, List.take_zero, List.take_zero]; rfl
    | succ count =>
      rw [List.take_succ_cons, List.flatten_cons, ih, Nat.add_one_mul, Nat.add_comm,
        List.take_add]

theorem pos_of_mem_pieces (payload : Bytes) : ∀ piece ∈ pieces payload, 1 ≤ piece.length := by
  fun_induction pieces payload with
  | case1 payload nothing => exact List.forall_mem_nil _
  | case2 payload some ih =>
    refine List.forall_mem_cons.mpr ⟨?_, ih⟩
    have long : payload.length ≠ 0 := by
      rwa [Ne, List.length_eq_zero_iff, ← List.isEmpty_iff]
    rw [List.length_take]
    unfold capacity size
    omega

/-- All pieces are full but for the last. -/
theorem full_of_mem_dropLast_pieces (payload : Bytes) :
    ∀ piece ∈ (pieces payload).dropLast, piece.length = capacity := by
  fun_induction pieces payload with
  | case1 payload nothing => exact List.forall_mem_nil _
  | case2 payload some ih =>
    cases rest : pieces (payload.drop capacity) with
    | nil => exact List.forall_mem_nil _
    | cons next others =>
      rw [rest] at ih
      refine List.forall_mem_cons.mpr ⟨?_, ih⟩
      -- There is a piece behind this one, so the payload is longer than it.
      have more : payload.drop capacity ≠ [] := by
        intro none
        rw [none, pieces_nil] at rest
        cases rest
      have long := List.length_pos_iff.mpr more
      rw [List.length_drop] at long
      rw [List.length_take]
      omega

end

/-! ## Reports of the canonical form -/

section

variable {payload piece report : Bytes} {reports : List Bytes}

theorem delivered_ofPiece (fits : piece.length ≤ capacity) : delivered (ofPiece piece) = piece :=
  (carried_ofPiece fits).2

theorem length_ofPiece (fits : piece.length ≤ capacity) : (ofPiece piece).length = size := by
  show (piece ++ List.replicate (capacity - piece.length) 0).length + 1 = size
  rw [List.length_append, List.length_replicate, Nat.add_sub_cancel' fits]
  rfl

/-- A report that is padded with zeros is the report of its valid bytes. -/
theorem ofPiece_delivered (sized : report.length = size) (small : (claimed report).toNat ≤ capacity)
    (padded : ∀ byte ∈ report.drop (1 + (claimed report).toNat), byte = 0) :
    ofPiece (delivered report) = report ∧ (delivered report).length = (claimed report).toNat := by
  cases report with
  | nil => cases sized
  | cons claim bytes =>
    have bytes_length : bytes.length = capacity := Nat.succ.inj sized
    change claim.toNat ≤ capacity at small
    rw [Nat.add_comm] at padded
    change ∀ byte ∈ bytes.drop claim.toNat, byte = 0 at padded
    have few : (bytes.take claim.toNat).length = claim.toNat :=
      List.length_take_of_le (bytes_length.symm ▸ small)
    have zeros : bytes.drop claim.toNat = List.replicate (capacity - claim.toNat) 0 := by
      rw [List.eq_replicate_iff, List.length_drop, bytes_length]
      exact ⟨rfl, padded⟩
    refine ⟨?_, few⟩
    show UInt8.ofNat (bytes.take claim.toNat).length :: (bytes.take claim.toNat ++
      List.replicate (capacity - (bytes.take claim.toNat).length) 0) = claim :: bytes
    rw [few, ← zeros, List.take_append_drop, UInt8.ofNat_toNat]

theorem flatMap_delivered_ofPiece {pieces : List Bytes}
    (fits : ∀ piece ∈ pieces, piece.length ≤ capacity) :
    (pieces.map ofPiece).flatMap delivered = pieces.flatten := by
  rw [List.flatMap_def, List.map_map]
  exact congrArg List.flatten (map_eq_self fun piece among => delivered_ofPiece (fits piece among))

/-- The first reports carry the first part of the payload. -/
theorem flatMap_delivered_take_chunk (count : Nat) (payload : Bytes) :
    ((chunk payload).take count).flatMap delivered = payload.take (count * capacity) := by
  have fits := length_le_of_mem_pieces payload
  rw [chunk, ← List.map_take, flatMap_delivered_ofPiece fun piece among =>
    fits piece (List.mem_of_mem_take among), flatten_take_pieces]

theorem flatMap_delivered_chunk (payload : Bytes) :
    (chunk payload).flatMap delivered = payload := by
  rw [chunk, flatMap_delivered_ofPiece (length_le_of_mem_pieces payload), flatten_pieces]

theorem length_chunk (payload : Bytes) : (chunk payload).length = payload.length ⌈/⌉ capacity := by
  rw [chunk, List.length_map, length_pieces]

theorem canonical_chunk (payload : Bytes) : Canonical (chunk payload) := by
  have fits := length_le_of_mem_pieces payload
  refine ⟨?_, ?_, ?_, ?_⟩
  · intro report among
    obtain ⟨piece, there, rfl⟩ := List.mem_map.mp among
    exact length_ofPiece (fits piece there)
  · intro report among byte behind
    obtain ⟨piece, there, rfl⟩ := List.mem_map.mp among
    rw [claimed_ofPiece (fits piece there), Nat.add_comm] at behind
    change byte ∈ (piece ++ List.replicate (capacity - piece.length) 0).drop piece.length at behind
    rw [List.drop_left] at behind
    exact List.eq_of_mem_replicate behind
  · intro report among
    rw [chunk, ← List.map_dropLast] at among
    obtain ⟨piece, there, rfl⟩ := List.mem_map.mp among
    rw [claimed_ofPiece (fits piece (List.mem_of_mem_dropLast there))]
    exact full_of_mem_dropLast_pieces payload piece there
  · intro report among
    rw [chunk, List.getLast?_map] at among
    obtain ⟨piece, there, rfl⟩ := Option.mem_map.mp among
    have inside := List.mem_of_mem_getLast? there
    rw [claimed_ofPiece (fits piece inside)]
    exact ⟨pos_of_mem_pieces payload piece inside, fits piece inside⟩

namespace Canonical

theorem of_cons_cons {next : Bytes} (canonical : Canonical (report :: next :: reports)) :
    (claimed report).toNat = capacity ∧ Canonical (next :: reports) := by
  obtain ⟨sized, padded, full, last⟩ := canonical
  rw [List.forall_mem_cons] at sized padded
  rw [List.dropLast_cons_cons, List.forall_mem_cons] at full
  rw [List.getLast?_cons_cons] at last
  exact ⟨full.1, sized.2, padded.2, full.2, last⟩

/-- Canonical reports are those of their valid bytes. -/
theorem eq_chunk (canonical : Canonical reports) : reports = chunk (reports.flatMap delivered) := by
  induction reports with
  | nil =>
    rw [List.flatMap_nil, chunk, pieces_nil]
    rfl
  | cons report reports ih =>
    have sized := canonical.sized report List.mem_cons_self
    have padded := canonical.padded report List.mem_cons_self
    rw [List.flatMap_cons]
    cases reports with
    | nil =>
      -- The only report is the last one, and has a single piece.
      obtain ⟨some, fits⟩ := canonical.last report rfl
      obtain ⟨same, count⟩ := ofPiece_delivered sized fits padded
      have piece : pieces (delivered report) = [delivered report] := by
        refine pieces_of_fits (fun nothing => ?_) (count ▸ fits)
        rw [nothing] at count
        exact absurd (count ▸ some) (by decide)
      rw [List.flatMap_nil, List.append_nil, chunk, piece, List.map_singleton, same]
    | cons next others =>
      obtain ⟨full, tail⟩ := canonical.of_cons_cons
      obtain ⟨same, count⟩ := ofPiece_delivered sized (Nat.le_of_eq full) padded
      rw [chunk, pieces_append (count.trans full), List.map_cons, same]
      exact congrArg (report :: ·) (ih tail)

end Canonical

end

/-! ## Joining the reports of several payloads -/

section

variable {payloads : List Bytes} {reports : List Bytes} {tail : List Read}

/-- A report of a payload neither ends a message nor falls short. -/
theorem goesOn_of_mem_chunk {payload report : Bytes} (among : report ∈ chunk payload) :
    (Read.arrived report).ends = false ∧ (Read.arrived report).Whole ∧ report.length = size := by
  have fits := length_le_of_mem_pieces payload
  obtain ⟨piece, there, rfl⟩ := List.mem_map.mp among
  have claims := claimed_ofPiece (fits piece there)
  have sized := length_ofPiece (fits piece there)
  refine ⟨Read.ends_eq_false.mpr ⟨rfl, ?_⟩, fun _ => ?_, sized⟩
  · rw [claims]
    exact fits piece there
  · rw [claims, sized]
    exact fits piece there

theorem span_append {front : List Read} (goesOn : ∀ read ∈ front, read.ends = false)
    (tail : List Read) : span (front ++ tail) = front.length + span tail := by
  induction front with
  | nil => exact (Nat.zero_add _).symm
  | cons read front ih =>
    rw [List.forall_mem_cons] at goesOn
    rw [List.cons_append, span_of_goesOn goesOn.1, ih goesOn.2, List.length_cons,
      Nat.add_right_comm]

/-- Where nothing comes behind what goes on, a message ends with the next read. -/
theorem take_span_append {front : List Read} (goesOn : ∀ read ∈ front, read.ends = false)
    (nothing : span tail = 1) :
    (front ++ tail).take (span (front ++ tail)) = front ++ tail.take 1 := by
  rw [span_append goesOn, nothing, List.take_append, Nat.add_sub_cancel_left,
    List.take_of_length_le (Nat.le_succ _)]

theorem drop_span_append {front : List Read} (goesOn : ∀ read ∈ front, read.ends = false)
    (nothing : span tail = 1) : (front ++ tail).drop (span (front ++ tail)) = tail.drop 1 := by
  rw [span_append goesOn, nothing, List.drop_append, Nat.add_sub_cancel_left,
    List.drop_of_length_le (Nat.le_succ _), List.nil_append]

theorem verdict_append (goesOn : ∀ report ∈ reports, (Read.arrived report).ends = false)
    (silent : verdict tail = .ok .idle) :
    verdict (reports.map Read.arrived ++ tail) = .ok (gathered (reports.map (·.take size))) := by
  induction reports with
  | nil => exact silent
  | cons report reports ih =>
    rw [List.forall_mem_cons] at goesOn
    rw [List.map_cons, List.cons_append, verdict_cons goesOn.1, ih goesOn.2, List.map_cons,
      gathered_cons]
    rfl

/-- What comes of joining `reads`, which begin with the reports of `payloads`; `later` is what is
left of them. -/
structure Joins (payloads : List Bytes) (reads later : List Read) : Prop where
  count : (reassemble reads).count = (payloads.flatMap chunk).length + 1
  rest : (reassemble reads).rest = later
  complete : (∃ payload ∈ payloads, payload ≠ []) →
    (reassemble reads).outcome = .ok (.complete payloads.flatten)
  idle : (reassemble reads).outcome = .ok .idle ↔ ∀ payload ∈ payloads, payload = []

theorem chunk_eq_nil {payload : Bytes} : chunk payload = [] ↔ payload = [] := by
  constructor
  · intro none
    rw [← flatMap_delivered_chunk payload, none, List.flatMap_nil]
  · rintro rfl
    rw [chunk, pieces_nil]
    rfl

theorem flatMap_chunk_eq_nil :
    payloads.flatMap chunk = [] ↔ ∀ payload ∈ payloads, payload = [] := by
  rw [List.flatMap_eq_nil_iff]
  exact forall₂_congr fun payload _ => chunk_eq_nil

theorem flatMap_delivered_chunks (payloads : List Bytes) :
    (payloads.flatMap chunk).flatMap delivered = payloads.flatten := by
  rw [List.flatMap_assoc, List.flatMap_def]
  exact congrArg List.flatten (map_eq_self fun payload _ => flatMap_delivered_chunk payload)

/-- Reports behind which nothing comes are joined to all the bytes of their payloads. -/
theorem joins (payloads : List Bytes) (nothing : span tail = 1)
    (silent : verdict (tail.take 1) = .ok .idle) (whole : ∀ read ∈ tail.take 1, read.Whole) :
    Joins payloads ((payloads.flatMap chunk).map Read.arrived ++ tail) (tail.drop 1) := by
  have sound : ∀ report ∈ payloads.flatMap chunk, (Read.arrived report).ends = false ∧
      (Read.arrived report).Whole ∧ report.length = size := by
    intro report among
    obtain ⟨payload, -, there⟩ := List.mem_flatMap.mp among
    exact goesOn_of_mem_chunk there
  have sized : (payloads.flatMap chunk).map (·.take size) = payloads.flatMap chunk :=
    map_eq_self fun report among => List.take_of_length_le (Nat.le_of_eq (sound report among).2.2)
  have goesOn : ∀ read ∈ (payloads.flatMap chunk).map Read.arrived, read.ends = false :=
    List.forall_mem_map.mpr fun report among => (sound report among).1
  have share := take_span_append goesOn nothing
  have enough : ∀ read ∈ ((payloads.flatMap chunk).map Read.arrived ++ tail).take
      (span ((payloads.flatMap chunk).map Read.arrived ++ tail)), read.Whole := by
    rw [share]
    refine List.forall_mem_append.mpr ⟨List.forall_mem_map.mpr fun report among => ?_, whole⟩
    exact (sound report among).2.1
  have joined := reassemble_eq enough
  rw [share, verdict_append (fun report among => (sound report among).1) silent, sized] at joined
  have outcome := congrArg Joined.outcome joined
  refine ⟨?_, ?_, fun some => ?_, ?_⟩
  · rw [joined]
    show span _ = _
    rw [span_append goesOn, nothing, List.length_map]
  · rw [joined]
    exact drop_span_append goesOn nothing
  · obtain ⟨payload, among, bytes⟩ := some
    have reports : payloads.flatMap chunk ≠ [] :=
      fun none => bytes (flatMap_chunk_eq_nil.mp none payload among)
    rw [outcome, ← flatMap_delivered_chunks]
    cases there : payloads.flatMap chunk with
    | nil => exact absurd there reports
    | cons report reports => rfl
  · rw [outcome, ← flatMap_chunk_eq_nil]
    cases payloads.flatMap chunk with
    | nil => exact iff_of_true rfl rfl
    | cons report reports => exact iff_of_false (fun same => by cases same) (List.cons_ne_nil _ _)

/-- Cutting a payload gives one report for each 63 bytes of it and one for what is left. These
reports are the only ones of the canonical form that carry it. If the reports of several payloads
are joined, one after the other up to a timeout or the end of the script, each of them takes one
read, and all their bytes are put together; where there are none at all, the link is idle. -/
theorem cut_and_joined (payload : Bytes) (payloads : List Bytes) (later : List Read) :
    (chunk payload).length = payload.length ⌈/⌉ 63 ∧ Canonical (chunk payload) ∧
      (chunk payload).flatMap delivered = payload ∧
      (∀ reports, Canonical reports ↔ reports = chunk (reports.flatMap delivered)) ∧
      Joins payloads ((payloads.flatMap chunk).map Read.arrived ++ .arrived [] :: later) later ∧
      Joins payloads ((payloads.flatMap chunk).map Read.arrived) [] := by
  refine ⟨length_chunk payload, canonical_chunk payload, flatMap_delivered_chunk payload, ?_, ?_,
    ?_⟩
  · exact fun reports => ⟨Canonical.eq_chunk, fun same => same ▸ canonical_chunk _⟩
  · exact joins payloads rfl rfl (List.forall_mem_singleton.mpr fun _ => Nat.le_refl 0)
  · have exhausted : Joins payloads ((payloads.flatMap chunk).map Read.arrived ++ []) [] :=
      joins payloads rfl rfl (List.forall_mem_nil _)
    rwa [List.append_nil] at exhausted

end

end HardwareSigner.Report
