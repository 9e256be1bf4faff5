import HardwareSigner.Engine.Intake

/-!
# What a read comes to

One outcome of a read comes either to messages or to the news that the stream has ended, and this
only if it was not known to have ended. Only bytes make the stream go on.

> `Intake.takes_take`: these are the two cases.
-/

namespace HardwareSigner

namespace Intake

variable {M : Type}

def IsMessage (event : Event M) : Prop := ∃ type body, event = .message type body

theorem events_isMessage (codec : Codec M) (frames : List Frame) :
    ∀ event ∈ (events codec frames).1, IsMessage event := by
  induction frames with
  | nil => exact fun event there => by cases there
  | cons frame frames ih =>
    unfold events
    split
    · exact fun event there => by cases there
    next message decoded =>
      intro event there
      rcases List.mem_cons.mp there with first | later
      · exact ⟨frame.type, message, first⟩
      · exact ih event later

/-- What an outcome comes to: the events, and what has been read after it. -/
inductive Takes (intake : Intake) (outcome : Except Failure Received) :
    List (Event M) → Intake → Prop
  | messages {events : List (Event M)} {after : Intake} (all : ∀ event ∈ events, IsMessage event)
      (on : after.atEnd = false → intake.atEnd = false ∨ ∃ bytes, outcome = .ok (.data bytes)) :
      Takes intake outcome events after
  | ends {after : Intake} (before : intake.atEnd = false) (ended : after.atEnd = true) :
      Takes intake outcome [.system .endOfStream] after

theorem takes_take (codec : Codec M) (intake : Intake) (outcome : Except Failure Received) :
    Takes intake outcome (intake.take codec outcome).1.1 (intake.take codec outcome).2 := by
  have nothing : ∀ event ∈ ([] : List (Event M)), IsMessage event := fun _ there => by cases there
  unfold take
  split
  · exact .messages nothing Or.inl
  · exact .messages nothing Or.inl
  next bytes =>
    split
    · exact .messages nothing fun _ => Or.inr ⟨bytes, rfl⟩
    next found frames pushed =>
      exact .messages (events_isMessage codec found) fun _ => Or.inr ⟨bytes, rfl⟩
  · split
    · exact .messages nothing Or.inl
    · split
      next ended =>
        refine .messages nothing fun going => ?_
        cases going
      next going => exact .ends (Bool.eq_false_iff.mpr going) rfl

namespace Takes

variable {intake after : Intake} {outcome : Except Failure Received} {events : List (Event M)}

theorem isMessage_or (takes : Takes intake outcome events after) :
    ∀ event ∈ events, IsMessage event ∨ event = .system .endOfStream := by
  cases takes with
  | messages all on => exact fun event there => Or.inl (all event there)
  | ends before ended => exact fun event there => Or.inr (List.mem_singleton.mp there)

/-- Only bytes make a stream go on that has ended. -/
theorem goesOn (takes : Takes intake outcome events after) (going : after.atEnd = false) :
    intake.atEnd = false ∨ ∃ bytes, outcome = .ok (.data bytes) := by
  cases takes with
  | messages all on => exact on going
  | ends before ended => exact Or.inl before

/-- The end of the stream is told when it is news. -/
theorem news (takes : Takes intake outcome events after) {rest : List (Event M)}
    (tells : events = .system .endOfStream :: rest) :
    intake.atEnd = false ∧ after.atEnd = true := by
  cases takes with
  | messages all on =>
    obtain ⟨type, body, same⟩ := all _ (tells ▸ List.mem_cons_self)
    cases same
  | ends before ended => exact ⟨before, ended⟩

end Takes

end Intake

end HardwareSigner
