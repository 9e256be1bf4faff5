import HardwareSigner.Proofs.Engine.Callers
import HardwareSigner.Proofs.Engine.Grammar
import HardwareSigner.Proofs.Listener.Deeds

/-!
# What the receivers of an engine are handed

Neither a call nor the reader takes an event out of a mailbox. So what has been taken out is what
the receiver was handed (`Engine.hands`), and an event that is the next one to be taken remains so
until the receiver comes.

> `Engine.taken_history`: what has been taken out of a mailbox in the course of a run.
-/

namespace HardwareSigner

namespace EngineCall.Phase

variable {M : Type}

/-- What a step of a call makes of what has been taken out of a mailbox: nothing. -/
theorem Steps.taken {task : TaskId} {clock : Nat} {e : Engine M} {phase : Phase M} {step : Step M}
    (steps : phase.Steps task clock e step) {box : MailboxId}
    (known : box < e.registry.mailboxes.length) :
    step.engine.registry.taken box = e.registry.taken box := by
  have works : ∀ {phase : Operation.Phase M} {next : Operation.Phase M ⊕ Operation.Answer}
      {registry : Registry M}, phase.step task e.registry = (next, registry) →
      registry.taken box = e.registry.taken box := by
    intro phase next registry turn
    have same := (phase.steps task e.registry).keeps.taken box known
    rwa [turn] at same
  cases steps with
  | registers phase => exact works rfl
  | announces turn | refuses turn | connects turn | tells outcome turn | unlinks outcome turn
  | clears outcome turn | closes outcome turn => exact works turn
  | retracts | parts => exact congrArg (Registry.taken · box) (Engine.registry_closeWriter e)
  | _ => rfl

end EngineCall.Phase

namespace Reading

variable {M : Type}

/-- Nor does the reader take anything out. -/
theorem taken_of_step (task : TaskId) (clock : Nat) (reading : Reading M) (e : Engine M)
    {box : MailboxId} (known : box < e.registry.mailboxes.length) :
    (reading.step task clock e).2.registry.taken box = e.registry.taken box := by
  rw [registry_step]
  cases Stage.operation? (.inr reading) with
  | none => rfl
  | some phase =>
    simp only [Option.map_some, Option.getD_some]
    split
    · exact (Operation.Phase.keeps_release phase task e.registry).taken box known
    · exact (phase.steps task e.registry).keeps.taken box known

end Reading

namespace Engine

variable {M : Type}

/-- What the receiver of a mailbox is handed in the course of an action. -/
def hands (box : MailboxId) (w : Site M) : Deed M → List (Event M)
  | .run task =>
    match w.phase? task with
    | some (.receive waiting) =>
      match waiting.poll w.clock w.state.registry with
      | some (.arrived event, _) => if waiting.box = box then [event] else []
      | _ => []
    | _ => []
  | .outside (.listeners (.take other)) =>
    if other = box then ((w.state.registry.receive? other).map Prod.fst).toList else []
  | .outside (.listeners (.drain other)) =>
    if other = box then (w.state.registry.drain other).1 else []
  | _ => []

section

variable {w : Site M} {box : MailboxId} {task : TaskId} {deed : Deed M} {deeds : List (Deed M)}

/-- A receiver that is ready takes its step. -/
theorem state_run_receive {waiting : Receiving} (at_work : w.phase? task = some (.receive waiting))
    {receipt : Receipt M} {after : Registry M}
    (polled : waiting.poll w.clock w.state.registry = some (receipt, after)) :
    (w.run machine task).state = { w.state with registry := after } ∧
      (w.result? task = none → (w.run machine task).result? task = some (.receipt receipt)) := by
  have can : machine.ready task w.clock (.receive waiting) w.state = true := by
    show (waiting.poll w.clock w.state.registry).isSome = true
    rw [polled]
    rfl
  have turn : machine.step task w.clock (.receive waiting) w.state =
      { next := .inr (.receipt receipt), state := { w.state with registry := after } } := by
    show EngineTask.step task w.clock (.receive waiting) w.state = _
    simp only [EngineTask.step, polled]
  refine ⟨by rw [World.state_run at_work can, turn], fun unfinished => ?_⟩
  rw [World.result?_run at_work can, turn, unfinished, if_pos rfl]
  rfl

/-- Whoever else takes a step takes nothing out. -/
theorem taken_run_of_other (known : box < w.state.registry.mailboxes.length)
    (other : ∀ waiting, w.phase? task ≠ some (.receive waiting)) :
    (w.run machine task).state.registry.taken box = w.state.registry.taken box := by
  rcases World.run_cases machine w task with same | ⟨found, at_work, ready⟩
  · rw [same]
  · rw [World.state_run at_work ready]
    cases found with
    | call phase => exact (phase.steps task w.clock w.state).taken known
    | exchange phase other ms => exact (phase.steps task w.clock w.state).taken known
    | rest latest => rfl
    | read reading =>
      refine Eq.trans ?_ (Reading.taken_of_step task w.clock reading w.state known)
      show (EngineTask.step task w.clock (.read reading) w.state).state.registry.taken box = _
      unfold EngineTask.step
      simp only
      generalize reading.step task w.clock w.state = turn
      obtain ⟨next?, after⟩ := turn
      cases next? <;> rfl
    | receive waiting => exact absurd at_work (other waiting)

theorem taken_run (known : box < w.state.registry.mailboxes.length) (task : TaskId) :
    (w.run machine task).state.registry.taken box =
      w.state.registry.taken box ++ hands box w (.run task) := by
  have unfolded : hands box w (.run task) = match w.phase? task with
      | some (.receive waiting) =>
        match waiting.poll w.clock w.state.registry with
        | some (.arrived event, _) => if waiting.box = box then [event] else []
        | _ => []
      | _ => [] := rfl
  rw [unfolded]
  by_cases receives : ∃ waiting, w.phase? task = some (.receive waiting)
  · obtain ⟨waiting, at_work⟩ := receives
    rw [at_work]
    simp only
    cases polled : waiting.poll w.clock w.state.registry with
    | none =>
      have unready : machine.ready task w.clock (.receive waiting) w.state = false := by
        show (waiting.poll w.clock w.state.registry).isSome = false
        rw [polled]
        rfl
      rw [World.run_of_unready at_work unready]
      exact (List.append_nil _).symm
    | some outcome =>
      obtain ⟨receipt, after⟩ := outcome
      rw [(state_run_receive at_work polled).1]
      rcases Receiving.poll_cases polled with ⟨event, received, rfl⟩ | ⟨rfl, nothing⟩
      · exact Registry.taken_receive received box
      · cases receipt with
        | arrived event => cases nothing
        | closed => exact (List.append_nil _).symm
        | timedOut after => exact (List.append_nil _).symm
  · have other : ∀ waiting, w.phase? task ≠ some (.receive waiting) :=
      fun waiting same => receives ⟨waiting, same⟩
    rw [taken_run_of_other known other]
    refine (List.append_nil _).symm.trans (congrArg _ ?_)
    split
    next waiting same => exact absurd same (other waiting)
    next => rfl

/-- What is taken out of a mailbox is handed to its receiver. -/
theorem taken_apply (known : box < w.state.registry.mailboxes.length) (deed : Deed M) :
    (w.apply machine deed).state.registry.taken box =
      w.state.registry.taken box ++ hands box w deed := by
  cases deed with
  | start found => exact (List.append_nil _).symm
  | wait ms => exact (List.append_nil _).symm
  | run task => exact taken_run known task
  | abandon task =>
    refine Eq.trans ?_ (List.append_nil _).symm
    show (w.abandon machine task).state.registry.taken box = _
    have left : ∀ stage : Stage M, (stage.release task w.state).registry.taken box =
        w.state.registry.taken box := by
      intro stage
      rw [Stage.registry_release]
      cases stage.operation? with
      | none => rfl
      | some phase =>
        exact (Operation.Phase.keeps_release phase task w.state.registry).taken box known
    cases at_work : w.phase? task with
    | none => rw [World.abandon_of_none at_work]
    | some found =>
      rw [World.abandon_of_phase at_work]
      cases found with
      | call phase => exact left (.inl phase)
      | exchange phase other ms => exact left (.inl phase)
      | read reading => exact left (.inr reading)
      | receive waiting => rfl
      | rest latest => rfl
  | outside act =>
    cases act with
    | listeners act =>
      cases act with
      | take other =>
        show (((w.state.registry.receive? other).map Prod.snd).getD w.state.registry).taken box =
          _ ++ if other = box then ((w.state.registry.receive? other).map Prod.fst).toList else []
        cases received : w.state.registry.receive? other with
        | none =>
          show w.state.registry.taken box =
            w.state.registry.taken box ++ if other = box then [] else []
          rw [ite_self, List.append_nil]
        | some found => exact Registry.taken_receive received box
      | drain other => exact Registry.taken_drain w.state.registry other box
      | drop other =>
        exact (Registry.taken_drop w.state.registry other box).trans (List.append_nil _).symm
      | shutdown => exact (List.append_nil _).symm
    | feed arrivals => exact (List.append_nil _).symm
    | discard => exact (List.append_nil _).symm
    | vanish => exact (List.append_nil _).symm

end

/-! ## In the course of a run -/

section

variable {w : Site M} {told : List (TaskId × Event M)} {tried : List (Event M)} {box : MailboxId}
  {deed : Deed M} {deeds : List (Deed M)}

/-- No mailbox is forgotten, and none is given anything in front of what it has been given. -/
theorem keeps_mailboxes (kept : Kept w told tried) (obeys : w.Obeys machine Lawful deeds)
    (box : MailboxId) :
    w.state.registry.mailboxes.length ≤ (w.applyAll machine deeds).state.registry.mailboxes.length ∧
      w.state.registry.accepted box <+: (w.applyAll machine deeds).state.registry.accepted box := by
  refine World.keeps_run ⟨Nat.le_refl _, List.prefix_refl _⟩ ?_ obeys
  rintro before deed earlier lawful ⟨known, accepted⟩
  have kept := kept_run kept earlier
  have moves := kept.moves lawful
  rw [World.applyAll_snoc]
  obtain ⟨given, more, -⟩ := moves.accepted (kept.roles.sound kept.bounded) And.left box
  rw [more]
  exact ⟨Nat.le_trans known moves.length, accepted.trans (List.prefix_append _ given)⟩

theorem taken_history (kept : Kept w told tried) (known : box < w.state.registry.mailboxes.length)
    (obeys : w.Obeys machine Lawful deeds) :
    (w.applyAll machine deeds).state.registry.taken box =
      w.state.registry.taken box ++ w.history machine (hands box) deeds := by
  refine World.keeps_run (List.append_nil _).symm ?_ obeys
  intro before deed earlier lawful same
  have still := Nat.lt_of_lt_of_le known (keeps_mailboxes kept earlier box).1
  rw [World.applyAll_snoc, World.history_snoc, taken_apply still, same, List.append_assoc]

end

/-- Whoever waits for an event that is there has it, however long he has waited. -/
theorem poll_of_queued {r : Registry M} {waiting : Receiving} {event : Event M}
    {rest : List (Event M)} (queued : r.queued waiting.box = event :: rest) (clock : Nat) :
    ∃ after, waiting.poll clock r = some (.arrived event, after) := by
  obtain ⟨after, received⟩ := Registry.receive?_of_queued queued
  refine ⟨after, ?_⟩
  unfold Receiving.poll
  rw [received]

end Engine

end HardwareSigner
