import HardwareSigner.Proofs.Report.Canonical

/-!
# Sending a payload to a device

The reports of a payload are written one by one. The first write that does not take the whole report
is the last that is made: nothing is written twice, and no report is left out. So what has been
written carries a first part of the payload.

> `Device.sends_up_to_first_failure`: which reports are written, what is said of it, and what they
> carry.
-/

namespace HardwareSigner

namespace Device

open Report

/-- What comes of the next writes, if there are so many. After the last that is laid down, writes
take whole reports. -/
def answers (writes : List (Except String Nat)) (count : Nat) : List (Except String Nat) :=
  (writes ++ List.replicate count (Except.ok Report.size)).take count

/-- The write has taken the whole report. -/
def full : Except String Nat → Bool
  | .ok count => count == Report.size
  | .error _ => false

/-- How many writes take whole reports before the first that does not. -/
def good (answers : List (Except String Nat)) : Nat := (answers.takeWhile full).length

/-- What is wrong with a write that has not taken the whole report. -/
def complaint : Except String Nat → Failure
  | .ok count =>
    .io (.reported s!"Unable to send report to device. Expected: 64 Actual: {count}")
  | .error text => .hid text

/-- What is said of writes: the first that has not taken the whole report decides. -/
def said (answers : List (Except String Nat)) : Except Failure Unit :=
  match answers[good answers]? with
  | none => .ok ()
  | some answer => .error (complaint answer)

section

variable {answer : Except String Nat} {others : List (Except String Nat)}

theorem full_iff : full answer = true ↔ answer = .ok Report.size := by
  cases answer with
  | ok count => simp [full]
  | error text => simp [full]
theorem good_cons_of_full (whole : full answer = true) :
    good (answer :: others) = good others + 1 := by
  unfold good
  rw [List.takeWhile_cons_of_pos whole, List.length_cons]

theorem good_cons_of_not_full (short : ¬full answer = true) : good (answer :: others) = 0 := by
  unfold good
  rw [List.takeWhile_cons_of_neg short, List.length_nil]

theorem good_le (answers : List (Except String Nat)) : good answers ≤ answers.length :=
  (List.takeWhile_sublist full).length_le

theorem said_cons_of_full (whole : full answer = true) : said (answer :: others) = said others := by
  unfold said
  rw [good_cons_of_full whole, List.getElem?_cons_succ]

theorem said_cons_of_not_full (short : ¬full answer = true) :
    said (answer :: others) = .error (complaint answer) := by
  unfold said
  rw [good_cons_of_not_full short, List.getElem?_cons_zero]

theorem said_eq_ok {answers : List (Except String Nat)} :
    said answers = .ok () ↔ good answers = answers.length := by
  unfold said
  cases there : answers[good answers]? with
  | none =>
    exact iff_of_true rfl (Nat.le_antisymm (good_le answers) (List.getElem?_eq_none_iff.mp there))
  | some answer =>
    have inside := (List.getElem?_eq_some_iff.mp there).1
    exact iff_of_false (fun same => by cases same) (Nat.ne_of_lt inside)

/-- All writes have taken whole reports if none of them has not. -/
theorem good_eq_length {answers : List (Except String Nat)} :
    good answers = answers.length ↔ ∀ answer ∈ answers, answer = .ok Report.size := by
  unfold good
  constructor
  · intro all answer among
    have whole := (List.takeWhile_prefix full).eq_of_length all
    exact full_iff.mp (List.mem_takeWhile_imp (whole ▸ among))
  · intro all
    rw [List.takeWhile_eq_self_iff.mpr fun answer among => full_iff.mpr (all answer among)]

theorem length_answers (writes : List (Except String Nat)) (count : Nat) :
    (answers writes count).length = count := by
  unfold answers
  rw [List.length_take, List.length_append, List.length_replicate]
  exact Nat.min_eq_left (Nat.le_add_left _ _)

theorem answers_succ (writes : List (Except String Nat)) (count : Nat) :
    answers writes (count + 1) = writes.headD (.ok Report.size) :: answers writes.tail count := by
  unfold answers
  cases writes with
  | nil =>
    rw [List.nil_append, List.replicate_succ, List.take_succ_cons]
    rfl
  | cons answer others =>
    rw [List.cons_append, List.take_succ_cons]
    refine congrArg (answer :: ·) ?_
    rw [List.tail_cons, List.take_append, List.take_append, List.take_replicate,
      List.take_replicate]
    congr 2
    omega

end

/-- The device once some reports have been written. -/
def wrote (d : Device) (sent : List Bytes) : Device :=
  { d with writes := d.writes.drop sent.length, written := d.written ++ sent }

theorem wrote_cons (d : Device) (report : Bytes) (sent : List Bytes) :
    (d.wrote [report]).wrote sent = d.wrote (report :: sent) := by
  unfold wrote
  simp only [List.drop_drop, List.append_assoc, List.length_cons, List.length_nil, Nat.zero_add,
    Nat.add_comm, List.cons_append, List.nil_append]

theorem write_eq (d : Device) (report : Bytes) :
    d.write report =
      ((d.writes.headD (.ok Report.size)).mapError Failure.hid, d.wrote [report]) := by
  unfold write wrote
  rw [List.length_singleton, List.drop_one]
  cases d.writes with
  | nil => rfl
  | cons answer others => cases answer <;> rfl

/-- Writes are made up to the first that does not take the whole report. -/
theorem writeAll_eq (d : Device) (reports : List Bytes) :
    d.writeAll reports =
      (said (answers d.writes reports.length),
        d.wrote (reports.take (good (answers d.writes reports.length) + 1))) := by
  induction reports generalizing d with
  | nil =>
    show (Except.ok (), d) = (Except.ok (), { d with written := d.written ++ [] })
    rw [List.append_nil]
  | cons report reports ih =>
    have left : (d.wrote [report]).writes = d.writes.tail := List.drop_one
    unfold writeAll
    rw [write_eq, List.length_cons, answers_succ]
    cases d.writes.headD (.ok Report.size) with
    | error text =>
      have short : ¬full (.error text) = true := Bool.false_ne_true
      rw [good_cons_of_not_full short, said_cons_of_not_full short]
      rfl
    | ok count =>
      by_cases whole : count = Report.size
      · have all : full (.ok count) = true := beq_iff_eq.mpr whole
        dsimp only [Except.mapError]
        rw [if_pos whole, ih, left, good_cons_of_full all, said_cons_of_full all,
          List.take_succ_cons, wrote_cons]
      · have short : ¬full (.ok count) = true := mt beq_iff_eq.mp whole
        dsimp only [Except.mapError]
        rw [if_neg whole, good_cons_of_not_full short, said_cons_of_not_full short]
        rfl

/-- **The law of sending.** Of the reports of a payload those are written, in order, whose writes
come before the first that does not take the whole report, and the one that belongs to it. Sending
succeeds if there is no such write; else its error is told, or how many bytes have been taken. What
has been written carries a first part of the payload, and all of it if nothing went wrong or only
the last report was not taken. -/
theorem sends_up_to_first_failure (d : Device) (payload : Bytes) :
    let reports := Report.chunk payload
    let outcomes := answers d.writes reports.length
    let sent := reports.take (good outcomes + 1)
    reports.length = payload.length ⌈/⌉ 63 ∧
      (d.send payload).2 = d.wrote sent ∧
      (d.send payload).1 = said outcomes ∧
      ((d.send payload).1 = .ok () ↔ ∀ outcome ∈ outcomes, outcome = .ok 64) ∧
      sent.flatMap delivered <+: payload ∧
      (sent.flatMap delivered = payload ↔
        (d.send payload).1 = .ok () ∨ good outcomes + 1 = reports.length) := by
  intro reports outcomes sent
  have count : reports.length = payload.length ⌈/⌉ capacity := length_chunk payload
  have known : outcomes.length = reports.length := length_answers d.writes _
  have carried : sent.flatMap delivered = payload.take ((good outcomes + 1) * capacity) :=
    flatMap_delivered_take_chunk _ payload
  have sends : d.send payload = _ := d.writeAll_eq reports
  refine ⟨count, congrArg Prod.snd sends, congrArg Prod.fst sends, ?_, ?_, ?_⟩
  · rw [sends]
    exact said_eq_ok.trans good_eq_length
  · rw [carried]
    exact List.take_prefix _ _
  · have few : good outcomes ≤ reports.length := known ▸ good_le outcomes
    rw [carried, sends, List.take_eq_self_iff]
    show _ ↔ said outcomes = .ok () ∨ _
    rw [said_eq_ok, known, Nat.mul_comm, ← ceilDiv_le_iff_le_mul (by decide), ← count]
    omega

end Device

end HardwareSigner
