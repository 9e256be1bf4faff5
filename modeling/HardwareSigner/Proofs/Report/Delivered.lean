import Mathlib
import HardwareSigner.Proofs.Report.Joining

/-!
# Bytes that were claimed and never delivered

Joining goes by the claim of a report and not by how much of the report was read. A read that falls
short of the claim leaves zeros in the buffer, and these are joined like bytes that came:

> `joined_of_reports`: a message has of every report its delivered valid bytes and then a zero for
> each byte that is claimed and missing.

So nothing is made up exactly where every report delivers what it claims; then no message is longer
than what was delivered for it.
-/

namespace HardwareSigner.Report

/-- The reports in front of the first read that brings none. A read delivers at most one report. -/
def reports : List Read → List Bytes
  | .arrived data :: reads =>
    if (data.take size).isEmpty then [] else data.take size :: reports reads
  | _ => []

/-- The valid bytes of a report that have come. -/
def delivered (report : Bytes) : Bytes := (report.drop 1).take (claimed report).toNat

/-- How many bytes a report claims and has not delivered. -/
def missing (report : Bytes) : Nat := (claimed report).toNat - (report.length - 1)

/-- The message is a first part of what one report delivered behind its claim, then one of what the
next report delivered, and so on. -/
def Faithful : List Bytes → Bytes → Prop
  | [], message => message = []
  | report :: reports, message =>
    ∃ part rest, message = part ++ rest ∧ part <+: report.drop 1 ∧ Faithful reports rest

/-- What has not come of a report is zero. -/
theorem valid_eq {report : Bytes} (small : (claimed report).toNat ≤ capacity) :
    valid report = delivered report ++ List.replicate (missing report) 0 := by
  have few : missing report ≤ capacity := Nat.le_trans (Nat.sub_le _ _) small
  unfold valid delivered
  rw [List.take_append, List.length_drop, List.take_replicate]
  exact congrArg (fun count => _ ++ List.replicate count 0) (Nat.min_eq_left few)

/-! ## Faithful messages -/

/-- A faithful message is no longer than what was delivered. -/
theorem Faithful.length_le {reports : List Bytes} {message : Bytes}
    (faithful : Faithful reports message) :
    message.length ≤ (reports.map fun report => report.length - 1).sum := by
  induction reports generalizing message with
  | nil =>
    rw [show message = [] from faithful]
    exact Nat.le_refl 0
  | cons report reports ih =>
    obtain ⟨part, rest, rfl, first, others⟩ := faithful
    have short : part.length ≤ report.length - 1 := List.length_drop ▸ first.length_le
    rw [List.length_append, List.map_cons, List.sum_cons]
    exact Nat.add_le_add short (ih others)
theorem faithful_delivered (reports : List Bytes) :
    Faithful reports (reports.flatMap delivered) := by
  induction reports with
  | nil => rfl
  | cons report reports ih =>
    exact ⟨delivered report, reports.flatMap delivered, List.flatMap_cons,
      List.take_prefix _ _, ih⟩

theorem flatMap_valid {reports : List Bytes}
    (small : ∀ report ∈ reports, (claimed report).toNat ≤ capacity) :
    reports.flatMap valid =
      reports.flatMap fun report => delivered report ++ List.replicate (missing report) 0 := by
  rw [List.flatMap_def, List.flatMap_def]
  exact congrArg _ (List.map_congr_left fun report among => valid_eq (small report among))

theorem length_padded (reports : List Bytes) :
    (reports.flatMap fun report => delivered report ++ List.replicate (missing report) 0).length =
      (reports.flatMap delivered).length + (reports.map missing).sum := by
  induction reports with
  | nil => rfl
  | cons report reports ih =>
    rw [List.flatMap_cons, List.flatMap_cons, List.map_cons, List.sum_cons, List.length_append, ih,
      List.length_append, List.length_append, List.length_replicate]
    omega

/-! ## Joining -/

/-- The message is what has been joined, if anything has been. -/
theorem eq_of_ended {sofar : Option Bytes} {message : Bytes}
    (ended : (match sofar with
      | none => Reassembly.idle
      | some payload => .complete payload) = .complete message) :
    message = sofar.getD [] := by
  cases sofar with
  | none => cases ended
  | some payload => exact (Reassembly.complete.inj ended).symm

/-- Joining reads one report after the other, and makes one read more to find that there is none. It
comes to a message only if no report claims more than fits. -/
theorem joinFrom_of_complete {reads : List Read} {sofar : Option Bytes} {message : Bytes}
    (complete : (joinFrom sofar reads).outcome = .ok (.complete message)) :
    message = sofar.getD [] ++ (reports reads).flatMap valid ∧
      (∀ report ∈ reports reads, (claimed report).toNat ≤ capacity) ∧
      (joinFrom sofar reads).count = (reports reads).length + 1 ∧
      (joinFrom sofar reads).rest = reads.drop ((reports reads).length + 1) := by
  induction reads generalizing sofar with
  | nil =>
    rw [eq_of_ended (Except.ok.inj complete)]
    exact ⟨(List.append_nil _).symm, List.forall_mem_nil _, rfl, rfl⟩
  | cons read reads ih =>
    cases read with
    | failed text => cases complete
    | arrived data =>
      by_cases nothing : (data.take size).isEmpty
      · have nomore : reports (.arrived data :: reads) = [] := if_pos nothing
        simp only [joinFrom, if_pos nothing] at complete ⊢
        rw [eq_of_ended (Except.ok.inj complete), nomore]
        exact ⟨(List.append_nil _).symm, List.forall_mem_nil _, rfl, rfl⟩
      · have more : reports (.arrived data :: reads) = data.take size :: reports reads :=
          if_neg nothing
        simp only [joinFrom, if_neg nothing] at complete ⊢
        split at complete
        next => cases complete
        next fits =>
          obtain ⟨joined, small, count, rest⟩ := ih complete
          rw [if_neg fits, more]
          refine ⟨?_, ?_, congrArg (· + 1) count, rest⟩
          · rw [joined, List.flatMap_cons, Option.getD_some, List.append_assoc]
          · exact List.forall_mem_cons.mpr ⟨Nat.not_lt.mp fits, small⟩

/-- A message that joining comes to has of every report the valid bytes that were delivered, and
then a zero for each byte that is claimed and missing; so it is longer than what it has of them by
what is missing. If nothing is missing it is faithful to the reports. -/
theorem joined_of_reports (reads : List Read) (message : Bytes)
    (complete : (reassemble reads).outcome = .ok (.complete message)) :
    (reassemble reads).count = (reports reads).length + 1 ∧
      (reassemble reads).rest = reads.drop ((reports reads).length + 1) ∧
      (message = (reports reads).flatMap fun report =>
        delivered report ++ List.replicate (missing report) 0) ∧
      message.length =
        ((reports reads).flatMap delivered).length + ((reports reads).map missing).sum ∧
      ((∀ report ∈ reports reads, missing report = 0) →
        message = (reports reads).flatMap delivered ∧ Faithful (reports reads) message ∧
          message.length ≤ ((reports reads).map fun report => report.length - 1).sum) := by
  obtain ⟨joined, small, count, rest⟩ := joinFrom_of_complete complete
  rw [flatMap_valid small, show Option.getD none ([] : Bytes) = [] from rfl, List.nil_append]
    at joined
  refine ⟨count, rest, joined, ?_, fun whole => ?_⟩
  · rw [joined, length_padded]
  · have same : message = (reports reads).flatMap delivered := by
      rw [joined, List.flatMap_def, List.flatMap_def]
      refine congrArg _ (List.map_congr_left fun report among => ?_)
      rw [whole report among, List.replicate_zero, List.append_nil]
    have faithful : Faithful (reports reads) message := same ▸ faithful_delivered _
    exact ⟨same, faithful, faithful.length_le⟩

/-- One byte is delivered, which claims five: the message has five bytes that nobody sent. -/
theorem zeros_for_missing :
    (reassemble [.arrived [5]]).outcome = .ok (.complete [0, 0, 0, 0, 0]) ∧
      ([0, 0, 0, 0, 0] : Bytes) = ([[5]] : List Bytes).flatMap (fun report =>
        delivered report ++ List.replicate (missing report) 0) ∧
      ¬Faithful [[5]] [0, 0, 0, 0, 0] :=
  ⟨rfl, (joined_of_reports [.arrived [5]] [0, 0, 0, 0, 0] rfl).2.2.1,
    fun faithful => absurd faithful.length_le (by decide)⟩

end HardwareSigner.Report
