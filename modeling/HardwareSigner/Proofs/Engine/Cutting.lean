import HardwareSigner.Proofs.Engine.Intake
import HardwareSigner.Proofs.Frame.Pieces

/-!
# Does it matter how the bytes are cut?

The bytes of a stream come in pieces, and where they are cut is up to the link. What is told should
depend on the bytes alone: the messages in them up to the first fatal thing, and then the failure.
`Intake.due` says what that is.

It does depend on the cut. A push that meets a header that is refused forgets the frames that it has
found in front of it. `Intake.Loses` says that this happens to a message, and then the messages from
there on are missing.

> `Intake.transcript_of_cutting`: if nothing is lost so, what is told is what is due; and if
> something is, then what is told is what is due without that.
-/

namespace HardwareSigner

namespace Intake

variable {M : Type}

/-! ## Reading on -/

/-- The events that a list of outcomes comes to, and what has been read after it unless reading is
over. -/
def follow (codec : Codec M) (intake : Intake) :
    List (Except Failure Received) → List (Event M) × Option Intake
  | [] => ([], some intake)
  | outcome :: outcomes =>
    match intake.take codec outcome with
    | ((found, .fail), _) => (found, none)
    | ((found, _), after) =>
      (found ++ (follow codec after outcomes).1, (follow codec after outcomes).2)

section

variable {codec : Codec M} {intake : Intake} {outcome : Except Failure Received}

theorem follow_cons_of_fail (finished : (intake.take codec outcome).1.2 = .fail)
    (outcomes : List (Except Failure Received)) :
    intake.follow codec (outcome :: outcomes) = ((intake.take codec outcome).1.1, none) := by
  unfold follow
  split
  next found after same => rw [same]
  next found course after fine same =>
    rw [same] at finished
    exact absurd finished fine

theorem follow_cons_of_goesOn (goesOn : (intake.take codec outcome).1.2 ≠ .fail)
    (outcomes : List (Except Failure Received)) :
    intake.follow codec (outcome :: outcomes) =
      ((intake.take codec outcome).1.1 ++ ((intake.take codec outcome).2.follow codec outcomes).1,
        ((intake.take codec outcome).2.follow codec outcomes).2) := by
  cases taken : intake.take codec outcome with
  | mk result after =>
    obtain ⟨found, course⟩ := result
    rw [taken] at goesOn
    rw [follow, taken]
    cases course with
    | fail => exact absurd rfl goesOn
    | goOn => rfl
    | pause => rfl

end

/-- Once reading is over, the failure is told. -/
theorem transcript_eq (codec : Codec M) (intake : Intake)
    (outcomes : List (Except Failure Received)) :
    intake.transcript codec outcomes = (intake.follow codec outcomes).1 ++
      if (intake.follow codec outcomes).2.isSome then [] else [.system .failure] := by
  induction outcomes generalizing intake with
  | nil => rfl
  | cons outcome outcomes ih =>
    unfold transcript
    split
    next found after same =>
      rw [follow_cons_of_fail (by rw [same]), same]
      rfl
    next found course after fine same =>
      have goesOn : (intake.take codec outcome).1.2 ≠ .fail := by
        rw [same]
        exact fine
      rw [follow_cons_of_goesOn goesOn, same, ih, List.append_assoc]

section

variable {codec : Codec M} {intake : Intake} {before : List (Except Failure Received)}

/-- Nothing is heard after reading is over. -/
theorem follow_append_of_none (finished : (intake.follow codec before).2 = none)
    (after : List (Except Failure Received)) :
    intake.follow codec (before ++ after) = intake.follow codec before := by
  induction before generalizing intake with
  | nil => cases finished
  | cons outcome before ih =>
    rw [List.cons_append]
    by_cases fails : (intake.take codec outcome).1.2 = .fail
    · rw [follow_cons_of_fail fails, follow_cons_of_fail fails]
    · rw [follow_cons_of_goesOn fails] at finished ⊢
      rw [follow_cons_of_goesOn fails, ih finished]

theorem follow_append_of_some {last : Intake} (goesOn : (intake.follow codec before).2 = some last)
    (after : List (Except Failure Received)) :
    intake.follow codec (before ++ after) =
      ((intake.follow codec before).1 ++ (last.follow codec after).1,
        (last.follow codec after).2) := by
  induction before generalizing intake with
  | nil =>
    cases goesOn
    rfl
  | cons outcome before ih =>
    rw [List.cons_append]
    by_cases fails : (intake.take codec outcome).1.2 = .fail
    · rw [follow_cons_of_fail fails] at goesOn
      cases goesOn
    · rw [follow_cons_of_goesOn fails] at goesOn ⊢
      rw [follow_cons_of_goesOn fails, ih goesOn, List.append_assoc]

end

/-! ## Pieces -/

/-- Bytes have come, or nothing for the moment. -/
def IsPiece (outcome : Except Failure Received) : Prop :=
  outcome = .ok .idle ∨ ∃ bytes, outcome = .ok (.data bytes)

def bytes : Except Failure Received → List Bytes
  | .ok (.data bytes) => [bytes]
  | _ => []

/-- The pieces of a stream, in the order in which they have come. -/
def pieces (outcomes : List (Except Failure Received)) : List Bytes := outcomes.flatMap bytes

section

variable {codec : Codec M} {first : List Frame}

theorem events_append_of_fail (fails : (events codec first).2 = .fail) (second : List Frame) :
    events codec (first ++ second) = events codec first := by
  induction first with
  | nil => cases fails
  | cons frame first ih =>
    rw [List.cons_append, events, events]
    cases decoded : codec.decode frame with
    | error failure => rfl
    | ok message =>
      rw [events, decoded] at fails
      simp only [ih fails]

theorem events_append_of_goesOn (goesOn : (events codec first).2 ≠ .fail) (second : List Frame) :
    events codec (first ++ second) =
      ((events codec first).1 ++ (events codec second).1, (events codec second).2) := by
  induction first with
  | nil => rfl
  | cons frame first ih =>
    rw [List.cons_append, events, events]
    cases decoded : codec.decode frame with
    | error failure =>
      rw [events, decoded] at goesOn
      exact absurd rfl goesOn
    | ok message =>
      rw [events, decoded] at goesOn
      simp only [ih goesOn]
      rfl

end

/-! ## What is due -/

/-- What is due for the bytes `waiting` in a buffer, and for what comes after them: every message in
front of the first frame that is none and in front of the first header that is refused, and then the
failure, if there is such a thing. -/
def due (codec : Codec M) (waiting : FrameBuffer) (more : List (Except Failure Received)) :
    List (Event M) :=
  let inside := events codec waiting.takeFrames.frames
  if inside.2 = .fail ∨ waiting.takeFrames.failure?.isSome then inside.1 ++ [.system .failure]
  else inside.1 ++ transcript codec ⟨waiting.takeFrames.rest, false⟩ more

/-- Of pieces that are pushed one after the other, one loses a message: it completes the message and
then a header that is refused. -/
inductive Loses (codec : Codec M) : FrameBuffer → List Bytes → Prop
  | here {waiting : FrameBuffer} {piece : Bytes} {later : List Bytes}
      (refused : (waiting.extend piece).takeFrames.failure?.isSome = true)
      (found : (events codec (waiting.extend piece).takeFrames.frames).1 ≠ []) :
      Loses codec waiting (piece :: later)
  | later {waiting : FrameBuffer} {piece : Bytes} {later : List Bytes}
      (accepted : (waiting.extend piece).takeFrames.failure? = none)
      (goesOn : (events codec (waiting.extend piece).takeFrames.frames).2 ≠ .fail)
      (loses : Loses codec (waiting.extend piece).takeFrames.rest later) :
      Loses codec waiting (piece :: later)

/-- What is told is what is due, unless messages are lost. -/
structure ToldOrLost (codec : Codec M) (waiting : FrameBuffer) (pieces : List Bytes)
    (told due : List (Event M)) : Prop where
  whole : ¬ Loses codec waiting pieces → told = due
  lost : Loses codec waiting pieces → ∃ found lost, lost ≠ [] ∧
    told = found ++ [.system .failure] ∧ due = found ++ lost ++ [.system .failure]

section

variable {codec : Codec M} {waiting : FrameBuffer} {piece : Bytes}

theorem transcript_of_refused {failure : DecodeFailure}
    (refused : (waiting.extend piece).takeFrames.failure? = some failure) (atEnd : Bool)
    (outcomes : List (Except Failure Received)) :
    transcript codec ⟨waiting, atEnd⟩ (.ok (.data piece) :: outcomes) = [.system .failure] := by
  unfold transcript take
  simp only [FrameBuffer.push_of_refused refused]
  rfl

theorem transcript_of_fail (accepted : (waiting.extend piece).takeFrames.failure? = none)
    (fails : (events codec (waiting.extend piece).takeFrames.frames).2 = .fail) (atEnd : Bool)
    (outcomes : List (Except Failure Received)) :
    transcript codec ⟨waiting, atEnd⟩ (.ok (.data piece) :: outcomes) =
      (events codec (waiting.extend piece).takeFrames.frames).1 ++ [.system .failure] := by
  have finished : take codec ⟨waiting, atEnd⟩ (.ok (.data piece)) =
      (events codec (waiting.extend piece).takeFrames.frames,
        ⟨(waiting.extend piece).takeFrames.rest, false⟩) := by
    unfold take
    simp only [FrameBuffer.push_of_accepted accepted]
  rw [transcript_eq, follow_cons_of_fail (by rw [finished, fails]), finished]
  rfl

theorem transcript_of_goesOn (accepted : (waiting.extend piece).takeFrames.failure? = none)
    (goesOn : (events codec (waiting.extend piece).takeFrames.frames).2 ≠ .fail) (atEnd : Bool)
    (outcomes : List (Except Failure Received)) :
    transcript codec ⟨waiting, atEnd⟩ (.ok (.data piece) :: outcomes) =
      (events codec (waiting.extend piece).takeFrames.frames).1 ++
        transcript codec ⟨(waiting.extend piece).takeFrames.rest, false⟩ outcomes := by
  have on : take codec ⟨waiting, atEnd⟩ (.ok (.data piece)) =
      (events codec (waiting.extend piece).takeFrames.frames,
        ⟨(waiting.extend piece).takeFrames.rest, false⟩) := by
    unfold take
    simp only [FrameBuffer.push_of_accepted accepted]
  rw [transcript_eq, transcript_eq, follow_cons_of_goesOn (by rw [on]; exact goesOn), on,
    List.append_assoc]

theorem due_of_refused {failure : DecodeFailure}
    (refused : (waiting.extend piece).takeFrames.failure? = some failure) (later : Bytes)
    (more : List (Except Failure Received)) :
    due codec ((waiting.extend piece).extend later) more =
      (events codec (waiting.extend piece).takeFrames.frames).1 ++ [.system .failure] := by
  unfold due
  simp only [FrameBuffer.takeFrames_extend_of_refused refused, refused]
  exact if_pos (Or.inr rfl)

theorem due_of_fail (accepted : (waiting.extend piece).takeFrames.failure? = none)
    (fails : (events codec (waiting.extend piece).takeFrames.frames).2 = .fail) (later : Bytes)
    (more : List (Except Failure Received)) :
    due codec ((waiting.extend piece).extend later) more =
      (events codec (waiting.extend piece).takeFrames.frames).1 ++ [.system .failure] := by
  unfold due
  simp only [FrameBuffer.takeFrames_extend_of_accepted accepted, events_append_of_fail fails]
  exact if_pos (Or.inl fails)

theorem due_of_goesOn (accepted : (waiting.extend piece).takeFrames.failure? = none)
    (goesOn : (events codec (waiting.extend piece).takeFrames.frames).2 ≠ .fail) (later : Bytes)
    (more : List (Except Failure Received)) :
    due codec ((waiting.extend piece).extend later) more =
      (events codec (waiting.extend piece).takeFrames.frames).1 ++
        due codec ((waiting.extend piece).takeFrames.rest.extend later) more := by
  unfold due
  simp only [FrameBuffer.takeFrames_extend_of_accepted accepted, events_append_of_goesOn goesOn]
  split
  · exact List.append_assoc ..
  · exact List.append_assoc ..

end

/-! ## What is lost -/

section

variable {codec : Codec M} {waiting : FrameBuffer} {piece : Bytes} {later : List Bytes}

/-- A push that meets a header that is refused loses whatever it has found. -/
theorem loses_of_refused {failure : DecodeFailure}
    (refused : (waiting.extend piece).takeFrames.failure? = some failure) :
    Loses codec waiting (piece :: later) ↔
      (events codec (waiting.extend piece).takeFrames.frames).1 ≠ [] := by
  constructor
  · intro loses
    cases loses with
    | here _ found => exact found
    | later accepted =>
      rw [refused] at accepted
      cases accepted
  · exact fun found => .here (by rw [refused]; rfl) found

/-- After a frame that is no message nothing is due that could be lost. -/
theorem not_loses_of_fail (accepted : (waiting.extend piece).takeFrames.failure? = none)
    (fails : (events codec (waiting.extend piece).takeFrames.frames).2 = .fail) :
    ¬ Loses codec waiting (piece :: later) := by
  intro loses
  cases loses with
  | here refused =>
    rw [accepted] at refused
    cases refused
  | later _ goesOn => exact goesOn fails

theorem loses_of_goesOn (accepted : (waiting.extend piece).takeFrames.failure? = none)
    (goesOn : (events codec (waiting.extend piece).takeFrames.frames).2 ≠ .fail) :
    Loses codec waiting (piece :: later) ↔
      Loses codec (waiting.extend piece).takeFrames.rest later := by
  constructor
  · intro loses
    cases loses with
    | here refused =>
      rw [accepted] at refused
      cases refused
    | later _ _ loses => exact loses
  · exact fun loses => .later accepted goesOn loses

/-- More that is told in front of it, and is due as well. -/
theorem ToldOrLost.append {waiting' : FrameBuffer} {later' : List Bytes}
    {told owed : List (Event M)} (toldOrLost : ToldOrLost codec waiting later told owed)
    (same : Loses codec waiting' later' ↔ Loses codec waiting later) (first : List (Event M)) :
    ToldOrLost codec waiting' later' (first ++ told) (first ++ owed) where
  whole kept := by rw [toldOrLost.whole (mt same.mpr kept)]
  lost loses := by
    obtain ⟨found, lost, some, all, rest⟩ := toldOrLost.lost (same.mp loses)
    refine ⟨first ++ found, lost, some, ?_, ?_⟩
    · rw [all, List.append_assoc]
    · rw [rest]
      simp only [List.append_assoc]

end

/-- What is told of a stream that comes in pieces. -/
theorem transcript_of_cutting (codec : Codec M) {waiting : FrameBuffer} (settled : waiting.Settled)
    {cutting : List (Except Failure Received)} (cut : ∀ outcome ∈ cutting, IsPiece outcome)
    (more : List (Except Failure Received)) :
    ToldOrLost codec waiting (pieces cutting)
      (transcript codec ⟨waiting, false⟩ (cutting ++ more))
      (due codec (waiting.extend (pieces cutting).flatten) more) := by
  induction cutting generalizing waiting with
  | nil =>
    have idle : due codec (waiting.extend []) more = transcript codec ⟨waiting, false⟩ more := by
      unfold due
      rw [FrameBuffer.extend_nil, settled]
      rfl
    exact ⟨fun _ => idle.symm, fun loses => by cases loses⟩
  | cons outcome cutting ih =>
    have cut' := fun other there => cut other (List.mem_cons_of_mem _ there)
    rcases cut outcome List.mem_cons_self with rfl | ⟨piece, rfl⟩
    · exact ih settled cut'
    show ToldOrLost codec waiting (piece :: pieces cutting)
      (transcript codec ⟨waiting, false⟩ (.ok (.data piece) :: (cutting ++ more)))
      (due codec (waiting.extend (piece ++ (pieces cutting).flatten)) more)
    rw [FrameBuffer.extend_append]
    cases refused : (waiting.extend piece).takeFrames.failure? with
    | some failure =>
      -- The failure is told at once, without the messages in front of it.
      rw [transcript_of_refused refused, due_of_refused refused]
      refine ⟨fun kept => ?_, fun loses => ?_⟩
      · have none := Classical.not_not.mp (mt (loses_of_refused refused).mpr kept)
        rw [none]
        rfl
      · exact ⟨[], _, (loses_of_refused refused).mp loses, rfl, rfl⟩
    | none =>
      by_cases fails : (events codec (waiting.extend piece).takeFrames.frames).2 = .fail
      · rw [transcript_of_fail refused fails, due_of_fail refused fails]
        exact ⟨fun _ => rfl, fun loses => absurd loses (not_loses_of_fail refused fails)⟩
      · rw [transcript_of_goesOn refused fails, due_of_goesOn refused fails]
        exact (ih (FrameBuffer.settled_rest refused) cut').append (loses_of_goesOn refused fails) _

end Intake

end HardwareSigner
