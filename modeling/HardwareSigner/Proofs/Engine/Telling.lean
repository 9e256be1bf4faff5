import HardwareSigner.Proofs.Engine.Cutting
import HardwareSigner.Proofs.Engine.Grammar

/-!
# What the reader has told

At any time the reader has told a part of what it has read, and is going to tell the rest: the
events that it is dispatching and those that it keeps for later. `Engine.Tells` says how far it has
got, given what has been read as `Intake.follow` has it.

> `Engine.tells_next`: every step of the reader gets it further.
-/

namespace HardwareSigner

namespace Engine

open Registry (Bounded)

variable {M : Type}

/-! ## What never changes -/

/-- What an engine has been made of. -/
def base (e : Engine M) : RequestCodec M × EngineSettings := (e.codec, e.settings)

theorem base_closeWriter (e : Engine M) : e.closeWriter.2.base = e.base := by
  unfold closeWriter
  split <;> rfl

theorem base_step {phase : EngineCall.Phase M} {step : EngineCall.Step M} {task : TaskId}
    {clock : Nat} {e : Engine M} (steps : phase.Steps task clock e step) :
    step.engine.base = e.base := by
  cases steps with
  | retracts => exact base_closeWriter e
  | parts => exact base_closeWriter e
  | _ => rfl

theorem base_release (task : TaskId) (stage : Stage M) (e : Engine M) :
    (stage.release task e).base = e.base := by
  rcases stage with phase | reading
  · cases phase <;> rfl
  · cases reading <;> rfl

theorem base_onward {intake : Intake} {e e' : Engine M} {events : List (Event M)} {course : Course}
    {next? : Option (Reading M)} (onward : Reading.Onward intake e events course next? e') :
    e'.base = e.base ∧ e'.state = e.state := by
  cases onward <;> exact ⟨rfl, rfl⟩

/-- The reader changes nothing of that, and not whether the engine is connected. -/
theorem base_read {reading : Reading M} {next? : Option (Reading M)} {task : TaskId}
    {e e' : Engine M} (steps : reading.Steps task e next? e') :
    e'.base = e.base ∧ e'.state = e.state := by
  cases steps with
  | hears intake unshut receives onward =>
    have kept := base_onward onward
    exact kept
  | proceeds turn onward =>
    have kept := base_onward onward
    exact kept
  | _ => exact ⟨rfl, rfl⟩

theorem Effect.base {w : Site M} {took : List (TaskId × Event M)} {tried : List (Event M)}
    {heard : List (Except Failure Received)} {stages' : Work (Stage M)} {e' : Engine M}
    (effect : Effect w took tried heard stages' e') : e'.base = w.state.base := by
  cases effect with
  | same => rfl
  | begins call fresh => rfl
  | calls task phase there fresh => exact base_step (phase.steps task w.clock w.state)
  | reads task reading there unaborted =>
    exact (base_read (reading.steps unaborted task w.clock)).1
  | leaves task stage there => exact base_release task stage w.state
  | acts act lawful => cases act <;> rfl

/-! ## What the reader still has to tell -/

/-- How far the reader has got with telling what it has read, where `read` is what it has read and
how reading goes on. -/
def Tells (told : List (Event M)) (read : List (Event M) × Option Intake) : Reading M → Prop
  | .receiving intake => told = .system .connected :: read.1 ∧ read.2 = some intake
  | .pausing _ intake => told = .system .connected :: read.1 ∧ read.2 = some intake
  | .dispatching phase rest course intake =>
    told ++ phase.awaits ++ rest = .system .connected :: read.1 ∧
      read.2 = if course = .fail then none else some intake
  | .failing phase =>
    told ++ phase.awaits = .system .connected :: read.1 ++ [.system .failure] ∧ read.2 = none

/-- What is told and what is waiting to be told is the same at any time. -/
theorem Saying.all {event : Event M} {before told : List (Event M)} {phase : Operation.Phase M}
    (saying : Saying event before phase told) : told ++ phase.awaits = before ++ [event] := by
  rcases saying.said with ⟨awaits, same⟩ | ⟨awaits, same⟩
  · rw [awaits, same]
  · rw [awaits, same, List.append_nil]

theorem takes_prefix_awaits (phase : Operation.Phase M) : phase.takes <+: phase.awaits := by
  cases phase with
  | dispatching event => exact List.prefix_refl _
  | _ => exact List.nil_prefix

theorem tells_onward {told events : List (Event M)} {course : Course} {intake : Intake}
    {read : List (Event M) × Option Intake} {e e' : Engine M} {next : Reading M}
    (all : told ++ events = .system .connected :: read.1)
    (on : read.2 = if course = .fail then none else some intake)
    (onward : Reading.Onward intake e events course (some next) e') : Tells told read next := by
  cases onward with
  | dispatches event rest course =>
    refine ⟨?_, on⟩
    rw [List.append_assoc]
    exact all
  | receives =>
    rw [List.append_nil] at all
    exact ⟨all, on⟩
  | pauses latest =>
    rw [List.append_nil] at all
    exact ⟨all, on⟩
  | fails =>
    rw [List.append_nil] at all
    refine ⟨?_, on⟩
    rw [all]
    rfl

/-- What is told while reading goes on. -/
theorem follow_isTraffic (codec : Codec M) (intake : Intake)
    (outcomes : List (Except Failure Received)) :
    ∀ event ∈ (intake.follow codec outcomes).1, event.isTraffic = true := by
  induction outcomes generalizing intake with
  | nil => exact fun event there => by cases there
  | cons outcome outcomes ih =>
    have now : ∀ event ∈ (intake.take codec outcome).1.1, event.isTraffic = true := by
      intro event there
      rcases (Intake.takes_take codec intake outcome).isMessage_or event there with message | rfl
      · obtain ⟨type, body, rfl⟩ := message
        rfl
      · rfl
    by_cases fails : (intake.take codec outcome).1.2 = .fail
    · rw [Intake.follow_cons_of_fail fails]
      exact now
    · rw [Intake.follow_cons_of_goesOn fails]
      intro event there
      exact (List.mem_append.mp there).elim (now event) (ih _ event)

section

variable {codec : Codec M} {start : Intake} {heard : List (Except Failure Received)}
  {told : List (Event M)}

/-- What has been read is told before the failure. -/
theorem prefix_transcript (some : told <+: .system .connected :: (start.follow codec heard).1) :
    told <+: .system .connected :: start.transcript codec heard := by
  rw [Intake.transcript_eq]
  exact some.trans (List.prefix_append _ _)

/-- What one more outcome comes to. -/
theorem follow_snoc {intake : Intake} (on : (start.follow codec heard).2 = some intake)
    (outcome : Except Failure Received) :
    start.follow codec (heard ++ [outcome]) =
      ((start.follow codec heard).1 ++ (intake.take codec outcome).1.1,
        if (intake.take codec outcome).1.2 = .fail then none
        else some (intake.take codec outcome).2) := by
  rw [Intake.follow_append_of_some on]
  split
  next fails => rw [Intake.follow_cons_of_fail fails]
  next fine =>
    rw [Intake.follow_cons_of_goesOn fine]
    simp only [Intake.follow, List.append_nil]

variable {stages : Work (Stage M)} {e : Engine M} {tried : List (Event M)} {task : TaskId}

theorem toldBy_receiving (told : List (Event M)) (reading : Reading M)
    (idle : Stage.operation? (.inr reading) = none) :
    told ++ toldBy (Stage.operation? (.inr reading)) = told := by
  rw [idle]
  exact List.append_nil told

/-- Whatever the reader does, it tells what it has read. -/
theorem tells_prefix {reading : Reading M} (tells : Tells told (start.follow codec heard) reading)
    (e : Engine M) :
    told ++ toldBy (Stage.operation? (.inr reading)) <+:
      .system .connected :: start.transcript codec (heard ++ heardBy e (.inr reading)) := by
  cases reading with
  | receiving intake =>
    obtain ⟨all, on⟩ := tells
    rw [toldBy_receiving told _ rfl]
    refine prefix_transcript ?_
    rw [Intake.follow_append_of_some on, all]
    exact List.prefix_append (.system .connected :: (start.follow codec heard).1) _
  | pausing latest intake =>
    rw [toldBy_receiving told _ rfl]
    show told <+: .system .connected :: start.transcript codec (heard ++ [])
    rw [List.append_nil]
    exact prefix_transcript (tells.1 ▸ List.prefix_refl _)
  | dispatching phase rest course intake =>
    show told ++ phase.takes <+: .system .connected :: start.transcript codec (heard ++ [])
    rw [List.append_nil]
    refine prefix_transcript ?_
    rw [← tells.1, List.append_assoc, List.prefix_append_right_inj]
    exact (takes_prefix_awaits phase).trans (List.prefix_append _ _)
  | failing phase =>
    show told ++ phase.takes <+: .system .connected :: start.transcript codec (heard ++ [])
    rw [List.append_nil, Intake.transcript_eq, tells.2]
    show told ++ phase.takes <+:
      .system .connected :: (start.follow codec heard).1 ++ [.system .failure]
    rw [← tells.1, List.prefix_append_right_inj]
    exact takes_prefix_awaits phase

/-- A step of the reader. -/
theorem tells_next (roles : Roles stages e told tried)
    (bounded : Bounded (operations stages) e.registry) {reading next : Reading M} {e' : Engine M}
    (there : stages task = some (.inr reading)) (unaborted : e.aborted = false)
    (tells : Tells told (start.follow e.codec.toCodec heard) reading)
    (steps : reading.Steps task e (some next) e') :
    Tells (told ++ toldBy (Stage.operation? (.inr reading)))
      (start.follow e.codec.toCodec (heard ++ heardBy e (.inr reading))) next := by
  have fits := roles.fits task _ there
  have silent : told ++ toldBy (none : Option (Operation.Phase M)) = told := List.append_nil told
  cases steps with
  | waits intake unshut nothing =>
    rw [heardBy_of_receives unaborted unshut, nothing]
    show Tells (told ++ toldBy none) (start.follow _ (heard ++ [])) _
    rw [silent, List.append_nil]
    exact tells
  | resumes latest intake =>
    show Tells (told ++ toldBy none) (start.follow _ (heard ++ [])) _
    rw [silent, List.append_nil]
    exact tells
  | @hears intake outcome link next? e' unshut receives onward =>
    obtain ⟨all, on⟩ := tells
    rw [heardBy_of_receives unaborted unshut, receives]
    show Tells (told ++ toldBy none) (start.follow _ (heard ++ [outcome])) _
    rw [silent, follow_snoc on]
    refine tells_onward ?_ rfl onward
    rw [all]
    rfl
  | @dispatches phase later registry rest course intake turn =>
    obtain ⟨all, on⟩ := tells
    obtain ⟨-, event, before, -, -, saying⟩ := fits
    show Tells (told ++ phase.takes) (start.follow _ (heard ++ [])) _
    rw [List.append_nil]
    have owed := bounded.owed task phase (operations_of_some there)
    -- What has been told and what waits to be told is the same before and after.
    have now := saying.step bounded.ordered owed turn
    refine ⟨?_, on⟩
    rw [now.all, ← saying.all]
    exact all
  | @proceeds phase answer registry rest course intake next? e' turn onward =>
    obtain ⟨all, on⟩ := tells
    obtain ⟨-, event, before, -, -, saying⟩ := fits
    show Tells (told ++ phase.takes) (start.follow _ (heard ++ [])) _
    -- The event that was being dispatched has been told; the rest of them is as before.
    obtain ⟨untold, finished⟩ := saying.finished turn
    rw [saying.all, ← finished] at all
    rw [untold, List.append_nil, List.append_nil]
    exact tells_onward all on onward
  | @fails phase later registry turn =>
    obtain ⟨all, on⟩ := tells
    obtain ⟨before, -, saying⟩ := fits
    show Tells (told ++ phase.takes) (start.follow _ (heard ++ [])) _
    rw [List.append_nil]
    have owed := bounded.owed task phase (operations_of_some there)
    have now := saying.step bounded.ordered owed turn
    refine ⟨?_, on⟩
    rw [now.all, ← saying.all]
    exact all

end

end Engine

end HardwareSigner
