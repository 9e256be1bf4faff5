import HardwareSigner.Proofs.Engine.Telling
import HardwareSigner.Proofs.Frame.Division
import Mathlib.Data.List.Forall2
import Mathlib.Data.List.Induction

/-!
# What a script of reads comes to

What reading has to tell follows from the outcomes alone. Each end of the stream is news unless the
stream had ended before, and each piece of bytes tells the messages in the frames that it completes
(`Comes`). Reading ends with the first outcome that is an error, that completes a header which
announces too much or a frame that is no message, or that ends the stream inside a frame (`Ends`).
Both are said of the bytes that have come, divided into frames (`Frame.Divides`), and not of a
buffer.

> `Intake.take_cases`: taking one outcome does what these say, and `Intake.follow_cases`: so does
> taking one outcome after the other.
-/

namespace HardwareSigner

open HardwareSigner.Frame (Divides TooLong)

namespace Intake

variable {M : Type}

/-! ## The rules -/

/-- All the bytes that have come. -/
def received (outcomes : List (Except Failure Received)) : Bytes := (pieces outcomes).flatten

/-- Whether an outcome says more than that nothing came in time. -/
def heeded : Except Failure Received → Bool
  | .ok .idle => false
  | _ => true

/-- The stream has ended, and nothing has come since. -/
def Ended (outcomes : List (Except Failure Received)) : Prop :=
  (outcomes.filter heeded).getLast? = some (.ok .endOfStream)

/-- The event is the message in the frame, under the type that its header names. -/
def Carries (codec : Codec M) (f : Frame) (event : Event M) : Prop :=
  ∃ message, codec.decode f = .ok message ∧ event = .message f.header.type message

section

variable (codec : Codec M) (limit : UInt32)

/-- The outcome ends reading after those `before`, with a few last messages. A piece that completes
a header that is refused brings none, whatever else it completes. -/
inductive Ends (before : List (Except Failure Received)) :
    Except Failure Received → List (Event M) → Prop
  | error (failure : Failure) : Ends before (.error failure) []
  | tooLong {piece rest : Bytes} {frames : List Frame}
    (divides : Divides limit (received before ++ piece) frames rest) (above : TooLong limit rest) :
    Ends before (.ok (.data piece)) []
  | noMessage {piece left rest : Bytes} {frames good more : List Frame} {bad : Frame}
    {failure : DecodeFailure} {words : List (Event M)}
    (held : Divides limit (received before) frames left)
    (divides : Divides limit (received before ++ piece) (frames ++ (good ++ bad :: more)) rest)
    (fits : ¬TooLong limit rest) (read : List.Forall₂ (Carries codec) good words)
    (unreadable : codec.decode bad = .error failure) : Ends before (.ok (.data piece)) words
  | cutOff {rest : Bytes} {frames : List Frame}
    (divides : Divides limit (received before) frames rest) (inside : rest ≠ []) :
    Ends before (.ok .endOfStream) []

/-- Reading ends with the outcome after those `before`. -/
def Fatal (before : List (Except Failure Received)) (outcome : Except Failure Received) : Prop :=
  ∃ words : List (Event M), Ends codec limit before outcome words

/-- Reading does not end with any of the outcomes. -/
def Harmless (outcomes : List (Except Failure Received)) : Prop :=
  ∀ before outcome after, outcomes = before ++ outcome :: after → ¬Fatal codec limit before outcome

/-- The events that outcomes come to with which reading does not end. -/
inductive Comes : List (Except Failure Received) → List (Event M) → Prop
  | nothing : Comes [] []
  | idle {before : List (Except Failure Received)} {events : List (Event M)}
    (comes : Comes before events) : Comes (before ++ [.ok .idle]) events
  | ends {before : List (Except Failure Received)} {events : List (Event M)}
    (comes : Comes before events) (news : ¬Ended before) :
    Comes (before ++ [.ok .endOfStream]) (events ++ [.system .endOfStream])
  | still {before : List (Except Failure Received)} {events : List (Event M)}
    (comes : Comes before events) (known : Ended before) :
    Comes (before ++ [.ok .endOfStream]) events
  | messages {before : List (Except Failure Received)} {events words : List (Event M)}
    {piece left rest : Bytes} {frames more : List Frame} (comes : Comes before events)
    (held : Divides limit (received before) frames left)
    (divides : Divides limit (received before ++ piece) (frames ++ more) rest)
    (read : List.Forall₂ (Carries codec) more words) :
    Comes (before ++ [.ok (.data piece)]) (events ++ words)

end

/-! ## Bytes and ends -/

section

variable (before : List (Except Failure Received))

theorem received_append (after : List (Except Failure Received)) :
    received (before ++ after) = received before ++ received after := by
  simp only [received, pieces, List.flatMap_append, List.flatten_append]

theorem received_data (piece : Bytes) :
    received (before ++ [.ok (.data piece)]) = received before ++ piece := by
  rw [received_append]
  exact congrArg _ (List.append_nil piece)

theorem received_of_none {outcome : Except Failure Received} (none : bytes outcome = []) :
    received (before ++ [outcome]) = received before := by
  rw [received_append, show received [outcome] = [] from ?_, List.append_nil]
  rw [received, pieces, List.flatMap_singleton, none]
  rfl

theorem ended_idle : Ended (before ++ [.ok .idle]) ↔ Ended before := by
  rw [Ended, Ended, List.filter_append]
  exact iff_of_eq (congrArg (fun kept => List.getLast? kept = _) (List.append_nil _))

theorem ended_heeded {outcome : Except Failure Received} (heeds : heeded outcome = true) :
    Ended (before ++ [outcome]) ↔ outcome = .ok .endOfStream := by
  rw [Ended, List.filter_append, List.filter_singleton, heeds]
  simp

end

/-! ## One outcome -/

section

variable {codec : Codec M} {limit : UInt32}

/-- The frames of which reading makes events: all, or those in front of the first that is no
message. -/
theorem events_cases (codec : Codec M) (frames : List Frame) :
    (∃ words, events codec frames = (words, .goOn) ∧ List.Forall₂ (Carries codec) frames words) ∨
    ∃ good bad more words failure, frames = good ++ bad :: more ∧
      codec.decode bad = .error failure ∧ events codec frames = (words, .fail) ∧
      List.Forall₂ (Carries codec) good words := by
  induction frames with
  | nil => exact Or.inl ⟨[], rfl, .nil⟩
  | cons frame frames ih =>
    unfold events
    cases decoded : codec.decode frame with
    | error failure => exact Or.inr ⟨[], frame, frames, [], failure, rfl, decoded, rfl, .nil⟩
    | ok message =>
      have first : Carries codec frame (.message frame.type message) := ⟨message, decoded, rfl⟩
      rcases ih with ⟨words, same, read⟩ | ⟨good, bad, more, words, failure, rfl, fails, same, read⟩
      · exact Or.inl ⟨_ :: words, by rw [same], .cons first read⟩
      · exact Or.inr ⟨frame :: good, bad, more, _ :: words, failure, rfl, fails, by rw [same],
          .cons first read⟩

theorem decoded_of_read {frames : List Frame} {words : List (Event M)}
    (read : List.Forall₂ (Carries codec) frames words) {f : Frame} (among : f ∈ frames) :
    ∃ message, codec.decode f = .ok message := by
  induction read with
  | nil => cases among
  | cons first others ih =>
    rcases List.mem_cons.mp among with rfl | behind
    · obtain ⟨message, decoded, -⟩ := first
      exact ⟨message, decoded⟩
    · exact ih behind

/-- What has been read after harmless outcomes: the buffer holds what is left of the bytes. -/
structure Stands (limit : UInt32) (before : List (Except Failure Received)) (intake : Intake) :
    Prop where
  frames : intake.frames = ((FrameBuffer.empty limit).extend (received before)).takeFrames.rest
  accepted : ((FrameBuffer.empty limit).extend (received before)).takeFrames.failure? = none
  ended : intake.atEnd = true ↔ Ended before

theorem stands_ofLimit (limit : UInt32) : Stands limit [] (ofLimit limit) where
  frames := by
    rw [show received [] = [] from rfl, FrameBuffer.extend_nil, FrameBuffer.settled_empty]
    rfl
  accepted := by
    rw [show received [] = [] from rfl, FrameBuffer.extend_nil, FrameBuffer.settled_empty]
  ended := by
    show false = true ↔ none = some _
    simp

/-- The frames in the bytes that have come, before and after one more piece. -/
theorem Stands.pushes {before : List (Except Failure Received)} {intake : Intake}
    (stands : Stands limit before intake) (piece : Bytes) :
    ((FrameBuffer.empty limit).extend (received before ++ piece)).takeFrames =
      { (intake.frames.extend piece).takeFrames with
        frames := ((FrameBuffer.empty limit).extend (received before)).takeFrames.frames ++
          (intake.frames.extend piece).takeFrames.frames } := by
  rw [FrameBuffer.extend_append, FrameBuffer.takeFrames_extend_of_accepted stands.accepted,
    stands.frames]

/-- The stream may end here exactly if the bytes that have come end between two frames. -/
theorem Stands.finish {before : List (Except Failure Received)} {intake : Intake}
    (stands : Stands limit before intake) {frames : List Frame} {rest : Bytes}
    (divides : Divides limit (received before) frames rest) :
    intake.frames.finish.1 = .ok () ↔ rest = [] := by
  rw [stands.frames]
  exact FrameBuffer.finish_of_holds
    ((FrameBuffer.takeFrames_of_divides divides).2.2 stands.accepted)

/-- An outcome other than bytes leaves the buffer with what is left of the bytes. -/
theorem Stands.unfed {before : List (Except Failure Received)} {intake after : Intake}
    (stands : Stands limit before intake) {outcome : Except Failure Received}
    (none : bytes outcome = []) (frames : after.frames = intake.frames)
    (ended : after.atEnd = true ↔ Ended (before ++ [outcome])) :
    Stands limit (before ++ [outcome]) after where
  frames := by rw [received_of_none before none, frames, stands.frames]
  accepted := by rw [received_of_none before none, stands.accepted]
  ended := ended

/-- What one outcome does: it ends reading, or reading goes on with more to tell. -/
inductive Verdict (codec : Codec M) (limit : UInt32) (before : List (Except Failure Received))
    (outcome : Except Failure Received) (words : List (Event M)) (course : Course)
    (after : Intake) : Prop
  | ends (fails : course = .fail) (ends : Ends codec limit before outcome words)
  | goesOn (fine : course ≠ .fail) (harmless : ¬Fatal codec limit before outcome)
    (comes : ∀ {events}, Comes codec limit before events →
      Comes codec limit (before ++ [outcome]) (events ++ words))
    (stands : Stands limit (before ++ [outcome]) after)

/-- A piece of bytes ends reading if it completes a header that is refused or a frame that is no
message. Otherwise it tells the messages in the frames that it completes. -/
theorem Stands.take_data {before : List (Except Failure Received)} {intake : Intake}
    (stands : Stands limit before intake) (piece : Bytes) :
    Verdict codec limit before (.ok (.data piece)) (intake.take codec (.ok (.data piece))).1.1
      (intake.take codec (.ok (.data piece))).1.2 (intake.take codec (.ok (.data piece))).2 := by
  obtain ⟨frames, left, held⟩ := Frame.exists_divides limit (received before)
  obtain ⟨all, rest, divides⟩ := Frame.exists_divides limit (received before ++ piece)
  have pushes := stands.pushes piece
  obtain ⟨same, refused, -⟩ := FrameBuffer.takeFrames_of_divides divides
  rw [(FrameBuffer.takeFrames_of_divides held).1] at pushes
  rw [pushes] at same refused
  obtain rfl := same
  unfold take
  cases pushed : (intake.frames.extend piece).takeFrames.failure? with
  | some failure =>
    simp only [FrameBuffer.push_of_refused pushed]
    exact .ends rfl (.tooLong divides (refused.mp (by rw [pushed]; exact Option.some_ne_none _)))
  | none =>
    have fits : ¬TooLong limit rest := fun above => refused.mpr above pushed
    simp only [FrameBuffer.push_of_accepted pushed]
    rcases events_cases codec (intake.frames.extend piece).takeFrames.frames with
      ⟨words, found, read⟩ | ⟨good, bad, more, words, failure, split, unreadable, found, read⟩
    · rw [found]
      refine .goesOn Course.noConfusion ?_ (fun comes => .messages comes held divides read) ?_
      · rintro ⟨last, ends⟩
        cases ends with
        | tooLong divides' above =>
          have refused' := (FrameBuffer.takeFrames_of_divides divides').2.1
          rw [pushes] at refused'
          exact refused'.mpr above pushed
        | noMessage held' divides' _ _ unreadable =>
          -- The frame that is no message would have to be among those that have been read.
          obtain rfl := held.unique held'
          have split := List.append_cancel_left (divides.unique divides')
          obtain ⟨message, decoded⟩ := decoded_of_read read (split ▸ List.mem_append_right _
            (List.mem_cons_self ..))
          rw [unreadable] at decoded
          cases decoded
      · refine ⟨?_, ?_, ?_⟩
        · rw [received_data, pushes]
        · rw [received_data, pushes, pushed]
        · rw [ended_heeded before rfl]
          simp
    · rw [found]
      rw [split] at divides
      exact .ends rfl (.noMessage held divides fits read unreadable)

/-- The end of the stream ends reading inside a frame. Otherwise it is told if it is news. -/
theorem Stands.take_end {before : List (Except Failure Received)} {intake : Intake}
    (stands : Stands limit before intake) :
    Verdict codec limit before (.ok .endOfStream) (intake.take codec (.ok .endOfStream)).1.1
      (intake.take codec (.ok .endOfStream)).1.2 (intake.take codec (.ok .endOfStream)).2 := by
  obtain ⟨frames, rest, divides⟩ := Frame.exists_divides limit (received before)
  have finish := stands.finish divides
  have cleared : intake.frames.finish.2 = intake.frames.clear := rfl
  unfold take
  cases finished : intake.frames.finish with
  | mk result after =>
    rw [finished] at finish cleared
    cases result with
    | error failure =>
      have inside : rest ≠ [] := fun none => nomatch finish.mpr none
      exact .ends rfl (.cutOff divides inside)
    | ok done =>
      have between : rest = [] := finish.mp rfl
      refine .goesOn Course.noConfusion ?_ (fun comes => ?_) ?_
      · rintro ⟨words, ends⟩
        cases ends with
        | cutOff divides' inside =>
          have finish' := stands.finish divides'
          rw [finished] at finish'
          exact inside (finish'.mp rfl)
      · cases ended : intake.atEnd with
        | true =>
          show Comes codec limit _ (_ ++ [])
          rw [List.append_nil]
          exact .still comes (stands.ended.mp ended)
        | false =>
          refine .ends comes fun known => ?_
          rw [stands.ended.mpr known] at ended
          cases ended
      · refine stands.unfed rfl ?_ ?_
        · -- The buffer is cleared, but it holds nothing anyway.
          have holds := (FrameBuffer.takeFrames_of_divides divides).2.2 stands.accepted
          rw [between, ← stands.frames] at holds
          exact cleared.trans (FrameBuffer.clear_of_holds holds)
        · rw [ended_heeded before rfl]
          simp

/-- One outcome ends reading, or reading goes on. -/
theorem Stands.take_cases {before : List (Except Failure Received)} {intake : Intake}
    (stands : Stands limit before intake) (codec : Codec M) (outcome : Except Failure Received) :
    Verdict codec limit before outcome (intake.take codec outcome).1.1
      (intake.take codec outcome).1.2 (intake.take codec outcome).2 := by
  rcases outcome with failure | piece | _ | _
  · exact .ends rfl (.error failure)
  · exact stands.take_data piece
  · refine .goesOn Course.noConfusion ?_ (fun comes => ?_) ?_
    · rintro ⟨words, ends⟩
      cases ends
    · show Comes codec limit _ (_ ++ [])
      rw [List.append_nil]
      exact .idle comes
    · exact stands.unfed rfl rfl (stands.ended.trans (ended_idle before).symm)
  · exact stands.take_end

/-! ## One outcome after the other -/

/-- What a script comes to: all of it is harmless, or reading ends with one of its outcomes. -/
inductive Sums (codec : Codec M) (limit : UInt32) (script : List (Except Failure Received)) :
    List (Event M) → Option Intake → Prop
  | whole {events : List (Event M)} {after : Intake} (harmless : Harmless codec limit script)
    (comes : Comes codec limit script events) (stands : Stands limit script after) :
    Sums codec limit script events (some after)
  | ended {before after : List (Except Failure Received)} {outcome : Except Failure Received}
    {events words : List (Event M)} (split : script = before ++ outcome :: after)
    (harmless : Harmless codec limit before) (comes : Comes codec limit before events)
    (ends : Ends codec limit before outcome words) : Sums codec limit script (events ++ words) none

theorem Harmless.snoc {before : List (Except Failure Received)} {outcome : Except Failure Received}
    (harmless : Harmless codec limit before) (fine : ¬Fatal codec limit before outcome) :
    Harmless codec limit (before ++ [outcome]) := by
  intro earlier other later split
  rcases List.eq_nil_or_concat later with rfl | ⟨later, last, rfl⟩
  · obtain ⟨rfl, same⟩ := List.append_inj' split rfl
    obtain ⟨rfl, -⟩ := List.cons.inj same
    exact fine
  · rw [List.concat_eq_append, ← List.cons_append, ← List.append_assoc] at split
    exact harmless earlier other later (List.append_inj' split rfl).1

theorem follow_cases (codec : Codec M) (limit : UInt32) (script : List (Except Failure Received)) :
    Sums codec limit script ((ofLimit limit).follow codec script).1
      ((ofLimit limit).follow codec script).2 := by
  induction script using List.reverseRecOn with
  | nil =>
    refine .whole (fun before outcome after split => ?_) .nothing (stands_ofLimit limit)
    cases before <;> cases split
  | append_singleton script outcome ih =>
    generalize told : ((ofLimit limit).follow codec script).1 = events at ih
    generalize on : ((ofLimit limit).follow codec script).2 = after? at ih
    cases ih with
    | ended split harmless comes ends =>
      rw [follow_append_of_none on, told, on]
      exact .ended (by rw [split, List.append_assoc, List.cons_append]) harmless comes ends
    | whole harmless comes stands =>
      rw [Engine.follow_snoc on, told]
      cases stands.take_cases codec outcome with
      | ends fails ends =>
        rw [if_pos fails]
        exact .ended rfl harmless comes ends
      | goesOn fine safe goes stands' =>
        rw [if_neg fine]
        exact .whole (harmless.snoc safe) (goes comes) stands'

end

end Intake

end HardwareSigner
