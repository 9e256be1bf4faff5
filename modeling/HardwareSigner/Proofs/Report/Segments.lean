import HardwareSigner.Device.Basic
import HardwareSigner.Proofs.Report.Delivered

/-!
# One message after the other

A message takes reads up to the first that ends it: one that brings nothing, one that fails, or one
whose report claims too much. The next message begins behind that read. What comes of a message is
decided by the reads that it takes, and by no others (`verdict`).

> `Device.messages_take_their_reads`: the messages that are received one after the other divide the
> reads of the device among them.

Here every report is delivered as far as it claims to be; what becomes of one that is not is said in
`joined_of_reports`.
-/

namespace HardwareSigner

namespace Report

/-- The read ends a message: it brings nothing, fails, or brings a report that claims too much. -/
def Read.ends : Read → Bool
  | .arrived report => report.isEmpty || decide (capacity < (claimed report).toNat)
  | .failed _ => true

/-- The read brings all that its report claims, unless that is more than fits into a report. -/
def Read.Whole : Read → Prop
  | .arrived report =>
    (claimed report).toNat ≤ capacity → (claimed report).toNat ≤ report.length - 1
  | .failed _ => True

instance : DecidablePred Read.Whole
  | .arrived report => inferInstanceAs (Decidable ((claimed report).toNat ≤ capacity → _))
  | .failed _ => inferInstanceAs (Decidable True)

/-- How many reads the next message takes. If none of them ends it, one more is made behind the
last, which brings nothing. -/
def span (reads : List Read) : Nat := reads.findIdx Read.ends + 1

/-- The reads of each of the next messages. -/
def segments : Nat → List Read → List (List Read)
  | 0, _ => []
  | count + 1, reads => reads.take (span reads) :: segments count (reads.drop (span reads))

/-- What comes of the reports of a message that has ended well. -/
def gathered : List Bytes → Reassembly
  | [] => .idle
  | reports => .complete (reports.flatMap delivered)

/-- What is wrong with a read, if anything is. -/
def Read.failure? : Read → Option Failure
  | .failed text => some (.hid text)
  | .arrived report =>
    if capacity < (claimed report).toNat then some (.reportTooLong (claimed report)) else none

/-- What comes of the reads of one message. -/
def verdict (segment : List Read) : Except Failure Reassembly :=
  match segment.getLast?.bind Read.failure? with
  | some failure => .error failure
  | none => .ok (gathered (reports segment))

/-- What comes of a message when something has been joined before. -/
def Reassembly.behind (sofar : Option Bytes) : Reassembly → Reassembly
  | .complete payload => .complete (sofar.getD [] ++ payload)
  | .idle => match sofar with
    | none => .idle
    | some payload => .complete payload

/-! ## What comes of one message -/

section

variable {data : Bytes} {sofar : Option Bytes} {reads segment : List Read}

theorem isEmpty_take_size (data : Bytes) : (data.take size).isEmpty = data.isEmpty := by
  cases data <;> rfl

theorem claimed_take_size (data : Bytes) : claimed (data.take size) = claimed data := by
  cases data <;> rfl

theorem Reassembly.behind_none (reassembly : Reassembly) : reassembly.behind none = reassembly := by
  cases reassembly <;> rfl

theorem Reassembly.behind_behind (reassembly : Reassembly) (sofar : Option Bytes) (piece : Bytes) :
    (reassembly.behind (some piece)).behind sofar =
      reassembly.behind (some (sofar.getD [] ++ piece)) := by
  cases reassembly with
  | complete payload => exact congrArg Reassembly.complete (List.append_assoc _ _ _).symm
  | idle => rfl

theorem gathered_cons (report : Bytes) (reports : List Bytes) :
    gathered (report :: reports) = (gathered reports).behind (some (delivered report)) := by
  cases reports with
  | nil => exact congrArg Reassembly.complete (List.append_nil _)
  | cons next others => rfl

/-- A read that does not end a message brings a report, which claims no more than fits. -/
theorem Read.ends_eq_false : (Read.arrived data).ends = false ↔
    data.isEmpty = false ∧ (claimed data).toNat ≤ capacity := by
  unfold Read.ends
  rw [Bool.or_eq_false_iff, decide_eq_false_iff_not, Nat.not_lt]

theorem reports_cons (goesOn : (Read.arrived data).ends = false) :
    reports (.arrived data :: segment) = data.take size :: reports segment := by
  have some : ¬(data.take size).isEmpty := by
    rw [isEmpty_take_size, (Read.ends_eq_false.mp goesOn).1]
    exact Bool.false_ne_true
  exact if_neg some

/-- A report in front of a message that is not its last puts its bytes in front of the payload. -/
theorem verdict_cons (goesOn : (Read.arrived data).ends = false) (segment : List Read) :
    verdict (.arrived data :: segment) =
      (verdict segment).map (·.behind (some (delivered (data.take size)))) := by
  unfold verdict
  rw [reports_cons goesOn, gathered_cons]
  cases segment with
  | nil =>
    have sound : (Read.arrived data).failure? = none :=
      if_neg (Nat.not_lt.mpr (Read.ends_eq_false.mp goesOn).2)
    rw [List.getLast?_singleton, Option.bind_some, sound]
    rfl
  | cons next others =>
    rw [List.getLast?_cons_cons]
    cases (next :: others).getLast?.bind Read.failure? <;> rfl

/-- Of a whole report that goes on nothing is missing. -/
theorem valid_of_whole (whole : (Read.arrived data).Whole)
    (small : (claimed data).toNat ≤ capacity) :
    valid (data.take size) = delivered (data.take size) := by
  have there : (claimed data).toNat ≤ data.length - 1 := whole small
  have nothing : missing (data.take size) = 0 := by
    unfold missing
    rw [claimed_take_size, List.length_take]
    unfold capacity at small
    omega
  rw [valid_eq ((claimed_take_size data).symm ▸ small), nothing, List.replicate_zero,
    List.append_nil]

theorem span_of_ends {read : Read} (ends : read.ends = true) : span (read :: reads) = 1 := by
  unfold span
  rw [List.findIdx_cons, ends, cond_true]

theorem span_of_goesOn {read : Read} (goesOn : read.ends = false) :
    span (read :: reads) = span reads + 1 := by
  unfold span
  rw [List.findIdx_cons, goesOn, cond_false]

/-- A report that goes on is joined to what there is. -/
theorem joinFrom_cons (goesOn : (Read.arrived data).ends = false)
    (whole : (Read.arrived data).Whole) (sofar : Option Bytes) (reads : List Read) :
    joinFrom sofar (.arrived data :: reads) =
      let joined := joinFrom (some (sofar.getD [] ++ delivered (data.take size))) reads
      { joined with count := joined.count + 1 } := by
  obtain ⟨present, small⟩ := Read.ends_eq_false.mp goesOn
  have fits : ¬capacity < (claimed data).toNat := Nat.not_lt.mpr small
  simp only [joinFrom, isEmpty_take_size, claimed_take_size, present, fits, if_false,
    Bool.false_eq_true, valid_of_whole whole small]

theorem joinFrom_of_ends (ends : (Read.arrived data).ends = true) (sofar : Option Bytes)
    (reads : List Read) :
    joinFrom sofar (.arrived data :: reads) =
      ⟨(verdict [.arrived data]).map (·.behind sofar), reads, 1⟩ := by
  cases data with
  | nil => rfl
  | cons claim bytes =>
    have much : capacity < (claimed (claim :: bytes)).toNat := of_decide_eq_true ends
    have refused : verdict [.arrived (claim :: bytes)] =
        .error (.reportTooLong (claimed (claim :: bytes))) := by
      unfold verdict
      rw [List.getLast?_singleton, Option.bind_some, Read.failure?, if_pos much]
    rw [refused]
    simp only [joinFrom, isEmpty_take_size, claimed_take_size, much, if_true, List.isEmpty_cons,
      Bool.false_eq_true, if_false]
    rfl

/-- Joining takes the reads of one message and goes by them alone. -/
theorem joinFrom_eq (whole : ∀ read ∈ reads.take (span reads), read.Whole) (sofar : Option Bytes) :
    joinFrom sofar reads =
      ⟨(verdict (reads.take (span reads))).map (·.behind sofar), reads.drop (span reads),
        span reads⟩ := by
  induction reads generalizing sofar with
  | nil => rfl
  | cons read reads ih =>
    cases ends : read.ends with
    | true =>
      rw [span_of_ends ends]
      cases read with
      | failed text => rfl
      | arrived data => exact joinFrom_of_ends ends sofar reads
    | false =>
      cases read with
      | failed text => cases ends
      | arrived data =>
        rw [span_of_goesOn ends, List.take_succ_cons, List.forall_mem_cons] at whole
        rw [span_of_goesOn ends, List.take_succ_cons, List.drop_succ_cons, verdict_cons ends,
          joinFrom_cons ends whole.1, ih whole.2]
        cases verdict (reads.take (span reads)) with
        | error failure => rfl
        | ok reassembly =>
          refine congrArg (fun outcome => Joined.mk (.ok outcome) _ _) ?_
          exact (reassembly.behind_behind sofar _).symm

/-- So the next message is what comes of its own reads. -/
theorem reassemble_eq (whole : ∀ read ∈ reads.take (span reads), read.Whole) :
    reassemble reads =
      ⟨verdict (reads.take (span reads)), reads.drop (span reads), span reads⟩ := by
  unfold reassemble
  rw [joinFrom_eq whole]
  cases verdict (reads.take (span reads)) with
  | error failure => rfl
  | ok reassembly =>
    show Joined.mk (.ok (reassembly.behind none)) _ _ = _
    rw [Reassembly.behind_none]

end

/-! ## Where messages end -/

/-- A segment goes up to the first read that ends a message, and `rest` is what comes behind it. If
no read ends a message, the segment is all there is. -/
structure Segment (segment rest : List Read) : Prop where
  goesOn : ∀ read ∈ segment.dropLast, read.ends = false
  ends : (∃ last ∈ segment.getLast?, last.ends = true) ∨
    (∀ read ∈ segment, read.ends = false) ∧ rest = []

/-- Reads are divided into segments, one behind the other, and a rest. -/
inductive Divides : List Read → List (List Read) → List Read → Prop
  | done (reads : List Read) : Divides reads [] reads
  | next {segment later rest : List Read} {segments : List (List Read)}
      (first : Segment segment later) (others : Divides later segments rest) :
      Divides (segment ++ later) (segment :: segments) rest

theorem Segment.cons {read : Read} {segment rest : List Read} (goesOn : read.ends = false)
    (behind : Segment segment rest) : Segment (read :: segment) rest := by
  cases segment with
  | nil =>
    obtain ⟨last, there, -⟩ | ⟨-, nothing⟩ := behind.ends
    · cases there
    · exact ⟨List.forall_mem_nil _, Or.inr ⟨List.forall_mem_singleton.mpr goesOn, nothing⟩⟩
  | cons next others =>
    refine ⟨List.forall_mem_cons.mpr ⟨goesOn, behind.goesOn⟩, ?_⟩
    rw [List.getLast?_cons_cons]
    exact behind.ends.imp_right fun all => ⟨List.forall_mem_cons.mpr ⟨goesOn, all.1⟩, all.2⟩

theorem segment_span (reads : List Read) :
    Segment (reads.take (span reads)) (reads.drop (span reads)) := by
  induction reads with
  | nil => exact ⟨List.forall_mem_nil _, Or.inr ⟨List.forall_mem_nil _, rfl⟩⟩
  | cons read reads ih =>
    cases ends : read.ends with
    | true =>
      rw [span_of_ends ends]
      exact ⟨List.forall_mem_nil _, Or.inl ⟨read, rfl, ends⟩⟩
    | false =>
      rw [span_of_goesOn ends]
      exact ih.cons ends

theorem Divides.flatten {reads rest : List Read} {segments : List (List Read)}
    (divides : Divides reads segments rest) : segments.flatten ++ rest = reads := by
  induction divides with
  | done reads => rfl
  | next first others ih => rw [List.flatten_cons, List.append_assoc, ih]

end Report

namespace Device

open Report

/-- Receives one message after the other, with the time that each of their reads may wait. -/
def receiveEach (d : Device) : List Duration → List (Except Failure Reassembly) × Device
  | [] => ([], d)
  | timeout :: timeouts =>
    let (outcome, after) := d.receive timeout
    let (outcomes, last) := after.receiveEach timeouts
    (outcome :: outcomes, last)

section

variable {d : Device}

/-- Receiving a message takes the reads of one segment and goes by them alone. -/
theorem receive_eq (whole : ∀ read ∈ d.reads, read.Whole) (timeout : Duration) :
    d.receive timeout =
      (verdict (d.reads.take (span d.reads)),
        { d with
          reads := d.reads.drop (span d.reads)
          waits := d.waits ++ List.replicate (span d.reads) timeout }) := by
  unfold receive
  rw [reassemble_eq fun read among => whole read (List.mem_of_mem_take among)]

/-- Each message begins where the one before it has ended. -/
theorem divides_receiveEach (whole : ∀ read ∈ d.reads, read.Whole) (timeouts : List Duration) :
    Divides d.reads (segments timeouts.length d.reads) (d.receiveEach timeouts).2.reads ∧
      (d.receiveEach timeouts).1 = (segments timeouts.length d.reads).map verdict ∧
      ∃ waits, (d.receiveEach timeouts).2 =
        { d with reads := (d.receiveEach timeouts).2.reads, waits := waits } := by
  induction timeouts generalizing d with
  | nil => exact ⟨.done d.reads, rfl, d.waits, rfl⟩
  | cons timeout timeouts ih =>
    have received := receive_eq whole timeout
    have left : (d.receive timeout).2.reads = d.reads.drop (span d.reads) := by rw [received]
    have later : ∀ read ∈ (d.receive timeout).2.reads, read.Whole := fun read among =>
      whole read (List.mem_of_mem_drop (left ▸ among))
    obtain ⟨divides, outcomes, waits, rest⟩ := ih later
    rw [left] at divides outcomes
    refine ⟨?_, congrArg₂ List.cons (congrArg Prod.fst received) outcomes, waits, rest⟩
    have first := Divides.next (segment_span d.reads) divides
    rw [List.take_append_drop] at first
    exact first

end

/-- Messages that are received one after the other divide the reads of the device among them: each
takes the reads up to the first that ends it, and what comes of it is the verdict on these reads.
Nothing else is done to the device. -/
theorem messages_take_their_reads (d : Device) (whole : ∀ read ∈ d.reads, read.Whole)
    (timeouts : List Duration) :
    let received := d.receiveEach timeouts
    let shares := segments timeouts.length d.reads
    Divides d.reads shares received.2.reads ∧ shares.flatten ++ received.2.reads = d.reads ∧
      received.1 = shares.map verdict ∧
      ∃ waits, received.2 = { d with reads := received.2.reads, waits := waits } := by
  obtain ⟨divides, outcomes, rest⟩ := divides_receiveEach whole timeouts
  exact ⟨divides, divides.flatten, outcomes, rest⟩

/-- Two reports of which the second is empty, one that claims too much, one that is followed by
silence, a failure, and an empty report at the end. -/
def troubled : Device where
  reads := [.arrived [2, 7, 8, 9], .arrived [0], .arrived [64, 1], .arrived [1, 5], .arrived [],
    .failed "unplugged", .arrived [0, 3]]

/-- The report that claims too much and the failure cost the reports of their own messages only. -/
theorem messages_in_trouble :
    (∀ read ∈ troubled.reads, read.Whole) ∧
      (troubled.receiveEach (List.replicate 5 (.ofMillis 10))).1 =
        [.error (.reportTooLong 64), .ok (.complete [5]), .error (.hid "unplugged"),
          .ok (.complete []), .ok .idle] ∧
      (troubled.receiveEach (List.replicate 5 (.ofMillis 10))).2.reads = [] := by
  have whole : ∀ read ∈ troubled.reads, read.Whole := by decide
  obtain ⟨-, partition, outcomes, -⟩ :=
    messages_take_their_reads troubled whole (List.replicate 5 (.ofMillis 10))
  exact ⟨whole, outcomes, List.append_cancel_left (partition.trans (List.append_nil _).symm)⟩

end Device

end HardwareSigner
