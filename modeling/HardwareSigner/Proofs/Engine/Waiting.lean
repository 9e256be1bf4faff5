import HardwareSigner.Proofs.Engine.Dealings
import HardwareSigner.Proofs.Engine.Handing

/-!
# Who waits for events

The tasks of an engine that wait for the events of a mailbox, at once or after a call. As long as a
mailbox is left to its receiver nobody else comes to wait for its events, and nobody else is handed
any.

> `EngineTask.steps`: the ways in which a task goes on or comes to an end.
> `Engine.unawaited_run`: nobody waits for the events of a mailbox before its receiver does.
-/

namespace HardwareSigner

/-- Whose events a task waits for, now or when its call has succeeded. -/
def EngineTask.awaits? {M : Type} : EngineTask M → Option MailboxId
  | .receive waiting => some waiting.box
  | .exchange _ box _ => some box
  | _ => none

namespace EngineTask

variable {M : Type} {task : TaskId} {clock : Nat} {e : Engine M} {found later : EngineTask M}

/-- What a step of a task leads to. -/
inductive Steps (task : TaskId) (clock : Nat) (e : Engine M) :
    EngineTask M → EngineTask M ⊕ Answer M → Prop
  | callsOn {phase next : EngineCall.Phase M} (turn : (phase.step task clock e).next = .inl next) :
      Steps task clock e (.call phase) (.inl (.call next))
  | called {phase : EngineCall.Phase M} {answer : EngineCall.Answer}
      (turn : (phase.step task clock e).next = .inr answer) :
      Steps task clock e (.call phase) (.inr (.call answer))
  | exchanges {phase next : EngineCall.Phase M} (box : MailboxId) (ms : UInt64)
      (turn : (phase.step task clock e).next = .inl next) :
      Steps task clock e (.exchange phase box ms) (.inl (.exchange next box ms))
  | waits {phase : EngineCall.Phase M} (box : MailboxId) (ms : UInt64)
      (turn : (phase.step task clock e).next = .inr (.done (.ok ()))) :
      Steps task clock e (.exchange phase box ms) (.inl (.receive (.within box clock ms)))
  | fails {phase : EngineCall.Phase M} {answer : EngineCall.Answer} (box : MailboxId) (ms : UInt64)
      (turn : (phase.step task clock e).next = .inr answer) (failed : answer ≠ .done (.ok ())) :
      Steps task clock e (.exchange phase box ms) (.inr (.call answer))
  | readsOn (reading next : Reading M) : Steps task clock e (.read reading) (.inl (.read next))
  | stops (reading : Reading M) : Steps task clock e (.read reading) (.inr .finished)
  | receives {waiting : Receiving} {receipt : Receipt M} {after : Registry M}
      (polled : waiting.poll clock e.registry = some (receipt, after)) :
      Steps task clock e (.receive waiting) (.inr (.receipt receipt))
  | stays {waiting : Receiving} (nothing : waiting.poll clock e.registry = none) :
      Steps task clock e (.receive waiting) (.inl (.receive waiting))
  | rests (latest : Nat) : Steps task clock e (.rest latest) (.inr .finished)

theorem steps (task : TaskId) (clock : Nat) (e : Engine M) (found : EngineTask M) :
    Steps task clock e found (step task clock found e).next := by
  cases found with
  | call phase =>
    show Steps task clock e _ ((phase.step task clock e).next.map .call .call)
    cases turn : (phase.step task clock e).next with
    | inl next => exact .callsOn turn
    | inr answer => exact .called turn
  | exchange phase box ms =>
    show Steps task clock e _ (afterCall clock box ms (phase.step task clock e).next)
    unfold afterCall
    split
    next next turn => exact .exchanges box ms turn
    next turn => exact .waits box ms turn
    next answer failed turn => exact .fails box ms turn failed
  | read reading =>
    unfold step
    simp only
    split
    next next after turn => exact .readsOn reading next
    next after turn => exact .stops reading
  | receive waiting =>
    unfold step
    simp only
    split
    next receipt after polled => exact .receives polled
    next nothing => exact .stays nothing
  | rest latest => exact .rests latest

/-- Whoever receives goes on only if there is nothing to be said. -/
theorem of_receive_onward (task : TaskId) {waiting : Receiving}
    (onward : (step task clock (.receive waiting) e).next = .inl later) :
    later = .receive waiting ∧ waiting.poll clock e.registry = none := by
  have steps := steps task clock e (.receive waiting)
  rw [onward] at steps
  cases steps with
  | stays nothing => exact ⟨rfl, nothing⟩

/-- Whoever receives has a receipt in the end. -/
theorem of_receive_finished (task : TaskId) {waiting : Receiving} {answer : Answer M}
    (finished : (step task clock (.receive waiting) e).next = .inr answer) :
    ∃ receipt, answer = .receipt receipt := by
  have steps := steps task clock e (.receive waiting)
  rw [finished] at steps
  cases steps with
  | receives polled => exact ⟨_, rfl⟩

theorem awaits?_of_step (goesOn : (step task clock found e).next = .inl later) :
    later.awaits? = found.awaits? := by
  have steps := steps task clock e found
  rw [goesOn] at steps
  cases steps <;> rfl

/-- Whoever is started by a step waits for no event. -/
theorem awaits?_of_spawned (starts : (step task clock found e).spawned? = some later) :
    later.awaits? = none := by
  cases found with
  | call phase | exchange phase _ _ =>
    obtain ⟨reading, -, rfl⟩ := Option.map_eq_some_iff.mp starts
    rfl
  | read reading =>
    unfold step at starts
    simp only at starts
    split at starts <;> cases starts
  | receive waiting =>
    unfold step at starts
    simp only at starts
    split at starts <;> cases starts
  | rest latest => cases starts

end EngineTask

namespace Engine

variable {M : Type} {w : Site M} {box : MailboxId} {task : TaskId} {deed : Deed M}
  {deeds : List (Deed M)}

/-- A mailbox is left to its receiver: nobody else begins to wait for its events or takes any. -/
def Leaves (box : MailboxId) : Deed M → Prop
  | .start found => found.awaits? ≠ some box
  | .outside (.listeners (.take other)) => other ≠ box
  | .outside (.listeners (.drain other)) => other ≠ box
  | _ => True

/-- What may be done besides the calls of the receiver. -/
def Elsewhere (box : MailboxId) (w : Site M) (deed : Deed M) : Prop :=
  Lawful w deed ∧ Leaves box deed

/-- Nobody begins to wait for events of a mailbox that is left to its receiver. -/
theorem awaited_apply (numbered : w.Numbered) (leaves : Leaves box deed) {later : EngineTask M}
    (there : (w.apply machine deed).phase? task = some later)
    (awaits : later.awaits? = some box) :
    ∃ found, w.phase? task = some found ∧ found.awaits? = some box := by
  cases deed with
  | start found =>
    have there : (w.start found).phase? task = some later := there
    rw [World.phase?_start numbered] at there
    rcases Work.set_cases _ _ _ there with ⟨-, same⟩ | ⟨-, before⟩
    · cases same
      exact absurd awaits leaves
    · exact ⟨later, before, awaits⟩
  | run other =>
    have there : (w.run machine other).phase? task = some later := there
    rcases World.run_cases machine w other with same | ⟨found, at_work, ready⟩
    · rw [same] at there
      exact ⟨later, there, awaits⟩
    · rw [World.phase?_run numbered at_work ready] at there
      rcases Work.set_cases _ _ _ there with ⟨-, starts⟩ | ⟨-, there⟩
      · cases (EngineTask.awaits?_of_spawned starts).symm.trans awaits
      · rcases Work.set_cases _ _ _ there with ⟨rfl, goesOn⟩ | ⟨-, before⟩
        · have stays := EngineTask.awaits?_of_step (Sum.getLeft?_eq_some_iff.mp goesOn)
          exact ⟨found, at_work, stays.symm.trans awaits⟩
        · exact ⟨later, before, awaits⟩
  | abandon other =>
    have there : (w.abandon machine other).phase? task = some later := there
    rw [World.phase?_abandon] at there
    rcases Work.set_cases _ _ _ there with ⟨-, gone⟩ | ⟨-, before⟩
    · cases gone
    · exact ⟨later, before, awaits⟩
  | outside act => exact ⟨later, there, awaits⟩
  | wait ms => exact ⟨later, there, awaits⟩

/-- Only whoever waits for events of such a mailbox is handed any. -/
theorem hands_of_leaves (leaves : Leaves box deed)
    (other : ∀ task found, deed = .run task → w.phase? task = some found →
      found.awaits? ≠ some box) : hands box w deed = [] := by
  cases deed with
  | run task =>
    unfold hands
    simp only
    split
    next waiting there =>
      split
      next event _ polled =>
        refine if_neg fun mine => ?_
        exact other task _ rfl there (congrArg some mine)
      next => rfl
    next => rfl
  | outside act =>
    cases act with
    | listeners act =>
      cases act with
      | take found => exact if_neg leaves
      | drain found => exact if_neg leaves
      | _ => rfl
    | _ => rfl
  | _ => rfl

/-- Nor is anybody who goes on waiting. -/
theorem hands_of_unpolled
    (waits : ∀ waiting, w.phase? task = some (.receive waiting) →
      waiting.poll w.clock w.state.registry = none) : hands box w (.run task) = [] := by
  unfold hands
  simp only
  split
  next waiting there => rw [waits waiting there]
  next => rfl

/-- Whoever has an answer is handed the event that there is. -/
theorem hands_of_polled {waiting : Receiving} {receipt : Receipt M} {after : Registry M}
    (at_work : w.phase? task = some (.receive waiting))
    (polled : waiting.poll w.clock w.state.registry = some (receipt, after)) :
    hands waiting.box w (.run task) = receipt.event?.toList := by
  unfold hands
  simp only [at_work, polled]
  cases receipt with
  | arrived event => exact if_pos trivial
  | closed => rfl
  | timedOut time => rfl

/-- Nobody waits for events of a mailbox before its receiver does. -/
theorem unawaited_run (numbered : w.Numbered)
    (nobody : ∀ task found, w.phase? task = some found → found.awaits? ≠ some box)
    (obeys : w.Obeys machine (Elsewhere box) deeds) :
    ∀ task found, (w.applyAll machine deeds).phase? task = some found →
      found.awaits? ≠ some box := by
  refine World.keeps_run nobody ?_ obeys
  intro before deed _ elsewhere nobody task found there awaits
  rw [World.applyAll_snoc] at there
  obtain ⟨earlier, at_work, also⟩ := awaited_apply
    (numbered_applyAll numbered before) elsewhere.2 there awaits
  exact nobody task earlier at_work also

end Engine

end HardwareSigner
