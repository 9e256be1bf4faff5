import HardwareSigner.Report.Reassembly

/-!
# Joining reports keeps their bytes

A script of reads is `Sound` where every read either times out or delivers at least the bytes that
its report claims. Joining then cannot fail. It takes reads off the front, and the message it comes
to has exactly the valid bytes of these:

> `reassemble_of_sound`: no valid byte is lost or moved between reports and messages.

Cutting payloads gives such a script, and its valid bytes are the payloads (`carried_chunks`).
-/

namespace HardwareSigner.Report

/-- The valid bytes of the report that is read. A read that times out or fails has none. -/
def Read.carried : Read → Bytes
  | .arrived report => (report.drop 1).take (claimed report).toNat
  | .failed _ => []

/-- The read times out, or all the bytes arrive that the report claims. -/
def Read.Sound : Read → Prop
  | .arrived report => report = [] ∨
      (claimed report).toNat ≤ capacity ∧ 1 + (claimed report).toNat ≤ report.length
  | .failed _ => False

instance : DecidablePred Read.Sound
  | .arrived report => inferInstanceAs (Decidable (report = [] ∨ _ ∧ _))
  | .failed _ => inferInstanceAs (Decidable False)

/-- All valid bytes of a script of reads. -/
def carried (reads : List Read) : Bytes := reads.flatMap Read.carried

/-- The bytes that have been joined. -/
def Reassembly.bytes : Reassembly → Bytes
  | .complete payload => payload
  | .idle => []

theorem carried_append (first second : List Read) :
    carried (first ++ second) = carried first ++ carried second := List.flatMap_append

theorem carried_cons (read : Read) (reads : List Read) :
    carried (read :: reads) = read.carried ++ carried reads := List.flatMap_cons

/-! ## Joining -/

/-- Nothing that is claimed lies behind the size of a report. -/
theorem valid_take_size {report : Bytes} (small : (claimed report).toNat ≤ capacity)
    (arrived : 1 + (claimed report).toNat ≤ report.length) :
    claimed (report.take size) = claimed report ∧
      valid (report.take size) = (Read.arrived report).carried := by
  cases report with
  | nil => exact ⟨rfl, rfl⟩
  | cons claim bytes =>
    change claim.toNat ≤ capacity at small
    change 1 + claim.toNat ≤ bytes.length + 1 at arrived
    refine ⟨rfl, ?_⟩
    show (bytes.take capacity ++ List.replicate capacity 0).take claim.toNat =
      bytes.take claim.toNat
    rw [List.take_append_of_le_length (by rw [List.length_take]; omega), List.take_take,
      Nat.min_eq_left small]

theorem joinFrom_of_sound {reads : List Read} (sound : ∀ read ∈ reads, read.Sound)
    (sofar : Option Bytes) :
    ∃ reassembly taken, (joinFrom sofar reads).outcome = .ok reassembly ∧
      reads = taken ++ (joinFrom sofar reads).rest ∧
      reassembly.bytes = sofar.getD [] ++ carried taken := by
  induction reads generalizing sofar with
  | nil =>
    cases sofar with
    | none => exact ⟨.idle, [], rfl, rfl, rfl⟩
    | some payload => exact ⟨.complete payload, [], rfl, rfl, (List.append_nil _).symm⟩
  | cons read reads ih =>
    rw [List.forall_mem_cons] at sound
    cases read with
    | failed text => exact sound.1.elim
    | arrived report =>
      rcases sound.1 with rfl | ⟨small, arrived⟩
      · -- The read times out, and the message is complete if it has begun.
        cases sofar with
        | none => exact ⟨.idle, [.arrived []], rfl, rfl, rfl⟩
        | some payload =>
          exact ⟨.complete payload, [.arrived []], rfl, rfl, (List.append_nil _).symm⟩
      · obtain ⟨claims, same⟩ := valid_take_size small arrived
        have present : ¬(report.take size).isEmpty := by
          rw [List.isEmpty_iff_length_eq_zero, List.length_take]
          unfold size
          omega
        have goesOn : joinFrom sofar (.arrived report :: reads) =
            { joinFrom (some (sofar.getD [] ++ (Read.arrived report).carried)) reads with
              count := (joinFrom (some (sofar.getD [] ++ (Read.arrived report).carried))
                reads).count + 1 } := by
          simp only [joinFrom, if_neg present, claims, if_neg (Nat.not_lt.mpr small), same]
        obtain ⟨reassembly, taken, outcome, split, joined⟩ :=
          ih sound.2 (some (sofar.getD [] ++ (Read.arrived report).carried))
        refine ⟨reassembly, .arrived report :: taken, ?_, ?_, ?_⟩
        · rw [goesOn, outcome]
        · rw [goesOn]
          exact congrArg _ split
        · rw [joined, carried_cons]
          exact List.append_assoc _ _ _

/-- The next message of sound reads has the valid bytes of the reads that are taken for it. -/
theorem reassemble_of_sound {reads : List Read} (sound : ∀ read ∈ reads, read.Sound) :
    ∃ reassembly taken, (reassemble reads).outcome = .ok reassembly ∧
      reads = taken ++ (reassemble reads).rest ∧ reassembly.bytes = carried taken :=
  joinFrom_of_sound sound none

/-! ## Cutting and joining -/

theorem flatten_pieces (payload : Bytes) : (pieces payload).flatten = payload := by
  rw [pieces]
  split
  next empty => exact (List.isEmpty_iff.mp empty).symm
  next =>
    rw [List.flatten_cons, flatten_pieces (payload.drop capacity), List.take_append_drop]
termination_by payload.length
decreasing_by
  have : payload.length ≠ 0 := by simp_all
  simp only [List.length_drop, capacity, size]
  omega

theorem length_le_of_mem_pieces (payload : Bytes) :
    ∀ piece ∈ pieces payload, piece.length ≤ capacity := by
  intro piece among
  rw [pieces] at among
  split at among
  next => cases among
  next =>
    rcases List.mem_cons.mp among with rfl | later
    · exact List.length_take_le _ _
    · exact length_le_of_mem_pieces (payload.drop capacity) piece later
termination_by payload.length
decreasing_by
  have : payload.length ≠ 0 := by simp_all
  simp only [List.length_drop, capacity, size]
  omega

/-- The length of a piece fits into one byte. -/
theorem claimed_ofPiece {piece : Bytes} (fits : piece.length ≤ capacity) :
    (claimed (ofPiece piece)).toNat = piece.length := by
  have small : piece.length < 256 := Nat.lt_of_le_of_lt fits (by decide)
  show (UInt8.ofNat piece.length).toNat = _
  rw [UInt8.toNat_ofNat', Nat.mod_eq_of_lt small]

theorem carried_ofPiece {piece : Bytes} (fits : piece.length ≤ capacity) :
    (Read.arrived (ofPiece piece)).Sound ∧ (Read.arrived (ofPiece piece)).carried = piece := by
  have claims := claimed_ofPiece fits
  refine ⟨Or.inr ⟨claims ▸ fits, ?_⟩, ?_⟩
  · rw [claims]
    show 1 + piece.length ≤ (piece ++ _).length + 1
    rw [List.length_append]
    omega
  · show (piece ++ _).take (claimed (ofPiece piece)).toNat = piece
    rw [claims, List.take_left]

/-- The reports of a payload carry it. -/
theorem carried_chunk (payload : Bytes) :
    (∀ read ∈ (chunk payload).map Read.arrived, read.Sound) ∧
      carried ((chunk payload).map Read.arrived) = payload := by
  have fits := length_le_of_mem_pieces payload
  refine ⟨?_, ?_⟩
  · intro read among
    obtain ⟨report, inside, rfl⟩ := List.mem_map.mp among
    obtain ⟨piece, there, rfl⟩ := List.mem_map.mp inside
    exact (carried_ofPiece (fits piece there)).1
  · have each : ∀ pieces : List Bytes, (∀ piece ∈ pieces, piece.length ≤ capacity) →
        carried ((pieces.map ofPiece).map Read.arrived) = pieces.flatten := by
      intro pieces
      induction pieces with
      | nil => exact fun _ => rfl
      | cons piece pieces ih =>
        intro fits
        rw [List.forall_mem_cons] at fits
        rw [List.map_cons, List.map_cons, carried_cons, (carried_ofPiece fits.1).2, ih fits.2,
          List.flatten_cons]
    rw [chunk, each _ fits, flatten_pieces]

/-- So do the reports of several payloads, one after the other. -/
theorem carried_chunks (payloads : List Bytes) :
    (∀ read ∈ payloads.flatMap fun payload => (chunk payload).map Read.arrived, read.Sound) ∧
      carried (payloads.flatMap fun payload => (chunk payload).map Read.arrived) =
        payloads.flatten := by
  induction payloads with
  | nil =>
    refine ⟨fun read among => ?_, rfl⟩
    cases among
  | cons payload payloads ih =>
    obtain ⟨sound, same⟩ := carried_chunk payload
    rw [List.flatMap_cons, carried_append, same, ih.2, List.flatten_cons]
    exact ⟨fun read among => (List.mem_append.mp among).elim (sound read) (ih.1 read), rfl⟩

end HardwareSigner.Report
