import HardwareSigner.Engine.Task
import HardwareSigner.Proofs.Engine.Steps
import HardwareSigner.Proofs.Listener.Moves

/-!
# What an action makes of an engine

Of all tasks of an engine only the calls and the reader do anything to it. `Stage` is what such a
task is doing, and `Engine.Effect` says what an action makes of the stages of all tasks and of the
engine, with the dispatches that take the lock and the events that are offered without waiting.

> `Engine.effect`: these are all the actions that there are, if a task begins at its beginning and
> the listeners are unlinked from outside only after a shutdown.
-/

namespace HardwareSigner

/-- What a task does that makes a call, or that reads. -/
abbrev Stage (M : Type) := EngineCall.Phase M ⊕ Reading M

namespace Stage

variable {M : Type}

/-- How far the task has got with an operation on the registry. -/
def operation? : Stage M → Option (Operation.Phase M)
  | .inl (.listeners phase) => some phase
  | .inl (.announcing phase) => some phase
  | .inl (.parting phase _) => some phase
  | .inl (.clearing phase _) => some phase
  | .inr (.dispatching phase _ _ _) => some phase
  | .inr (.failing phase) => some phase
  | _ => none

/-- What a task that is given up leaves behind. -/
def release (task : TaskId) (stage : Stage M) (e : Engine M) : Engine M :=
  match stage with
  | .inl phase => phase.release task e
  | .inr reading => { reading.release task e with reader := .stopped }

theorem registry_release (task : TaskId) (stage : Stage M) (e : Engine M) :
    (stage.release task e).registry =
      (stage.operation?.map (·.release task e.registry)).getD e.registry := by
  rcases stage with phase | reading
  · cases phase <;> rfl
  · cases reading <;> rfl

theorem state_release (task : TaskId) (stage : Stage M) (e : Engine M) :
    (stage.release task e).state = e.state := by
  rcases stage with phase | reading
  · cases phase <;> rfl
  · cases reading <;> rfl

theorem aborted_release (task : TaskId) (stage : Stage M) (e : Engine M) :
    (stage.release task e).aborted = e.aborted := by
  rcases stage with phase | reading
  · cases phase <;> rfl
  · cases reading <;> rfl

end Stage

namespace Reading

variable {M : Type}

theorem registry_of_onward {intake : Intake} {e after : Engine M} {events : List (Event M)}
    {course : Course} {next? : Option (Reading M)}
    (onward : Onward intake e events course next? after) : after.registry = e.registry := by
  cases onward <;> rfl

/-- All that the reader does to the registry is a step of its operation, which it gives up if it is
to stop at once. -/
theorem registry_step (task : TaskId) (clock : Nat) (reading : Reading M) (e : Engine M) :
    (reading.step task clock e).2.registry =
      ((Stage.operation? (.inr reading)).map fun phase =>
        if e.aborted then phase.release task e.registry
        else (phase.step task e.registry).2).getD e.registry := by
  cases aborted : e.aborted with
  | true =>
    have stops : reading.step task clock e = (none, Stage.release task (.inr reading) e) :=
      if_pos aborted
    rw [stops]
    exact Stage.registry_release task (.inr reading) e
  | false =>
    have steps := reading.steps aborted task clock
    generalize reading.step task clock e = step at steps
    obtain ⟨next?, after⟩ := step
    cases steps with
    | hears intake unshut receives onward => exact (registry_of_onward onward).trans rfl
    | proceeds turn onward =>
      refine (registry_of_onward onward).trans ?_
      exact (congrArg Prod.snd turn).symm
    | dispatches rest course intake turn => exact (congrArg Prod.snd turn).symm
    | fails turn => exact (congrArg Prod.snd turn).symm
    | stopsFailing turn => exact (congrArg Prod.snd turn).symm
    | _ => rfl

end Reading

/-- The stage of a task, if it is a call or the reader. -/
def EngineTask.stage? {M : Type} : EngineTask M → Option (Stage M)
  | .call phase => some (.inl phase)
  | .exchange phase _ _ => some (.inl phase)
  | .read reading => some (.inr reading)
  | .receive _ => none
  | .rest _ => none

namespace Engine

variable {M : Type}

/-- Tasks at work on an engine. -/
abbrev Site (M : Type) := World (Engine M) (EngineTask M) (EngineTask.Answer M)

abbrev Deed (M : Type) := Action Act (EngineTask M)

def stages (w : Site M) : Work (Stage M) := fun task => (w.phase? task).bind EngineTask.stage?

/-- How far operations on the registry have got. -/
def operations (stages : Work (Stage M)) : Work (Operation.Phase M) :=
  fun task => (stages task).bind Stage.operation?

/-- What may be done: a task begins at its beginning, and the listeners are unlinked from outside
only after a shutdown. Everything else may happen at any time. -/
def Lawful (w : Site M) : Deed M → Prop
  | .start (.call (.begin _)) => True
  | .start (.exchange (.begin _) _ _) => True
  | .start (.receive _) => True
  | .start (.rest _) => True
  | .start _ => False
  | .outside .vanish => w.state.registry.shutdown = true
  | _ => True

/-- The operation of which a task will take a step. A reader that is to stop takes none. -/
def acting (e : Engine M) : Stage M → Option (Operation.Phase M)
  | .inl phase => Stage.operation? (.inl phase)
  | .inr reading => if e.aborted then none else Stage.operation? (.inr reading)

def tookBy (task : TaskId) (phase? : Option (Operation.Phase M)) : List (TaskId × Event M) :=
  (phase?.map fun phase => phase.takes.map fun event => (task, event)).getD []

def triedBy (phase? : Option (Operation.Phase M)) : List (Event M) :=
  (phase?.map Operation.Phase.tries).getD []

/-- The operation of which an action takes a step. -/
def stepping (w : Site M) : Deed M → Option (Operation.Phase M)
  | .run task => if w.ready machine task then (stages w task).bind (acting w.state) else none
  | _ => none

/-- The dispatch that takes the lock. -/
def takes (w : Site M) (deed : Deed M) : List (TaskId × Event M) :=
  match deed with
  | .run task => tookBy task (stepping w deed)
  | _ => []

/-- The event that is offered to those who have a place. -/
def tries (w : Site M) (deed : Deed M) : List (Event M) := triedBy (stepping w deed)

/-- What the reader receives with its next step. -/
def heardBy (e : Engine M) : Stage M → List (Except Failure Received)
  | .inr (.receiving _) =>
    if e.aborted || e.registry.shutdown then [] else (e.link.receive?.map Prod.fst).toList
  | _ => []

theorem heardBy_of_receives {e : Engine M} (unaborted : e.aborted = false)
    (unshut : e.registry.shutdown = false) (intake : Intake) :
    heardBy e (.inr (.receiving intake)) = (e.link.receive?.map Prod.fst).toList := by
  unfold heardBy
  rw [unaborted, unshut]
  rfl

/-- The outcome of a read, if an action takes it. -/
def hears (w : Site M) : Deed M → List (Except Failure Received)
  | .run task =>
    if w.ready machine task then ((stages w task).map (heardBy w.state)).getD [] else []
  | _ => []

/-- What an action makes of the stages and of the engine. -/
inductive Effect (w : Site M) : List (TaskId × Event M) → List (Event M) →
    List (Except Failure Received) → Work (Stage M) → Engine M → Prop
  | same : Effect w [] [] [] (stages w) w.state
  | begins (call : EngineCall M) (fresh : stages w w.next = none) :
      Effect w [] [] [] (Work.set (stages w) w.next (some (.inl (.begin call)))) w.state
  | calls (task : TaskId) (phase : EngineCall.Phase M) (there : stages w task = some (.inl phase))
      (fresh : stages w w.next = none) :
      Effect w (tookBy task (Stage.operation? (.inl phase)))
        (triedBy (Stage.operation? (.inl phase))) []
        (Work.set
          (Work.set (stages w) task ((phase.step task w.clock w.state).next.getLeft?.map .inl))
          w.next ((phase.step task w.clock w.state).reader?.map .inr))
        (phase.step task w.clock w.state).engine
  | reads (task : TaskId) (reading : Reading M) (there : stages w task = some (.inr reading))
      (unaborted : w.state.aborted = false) :
      Effect w (tookBy task (Stage.operation? (.inr reading)))
        (triedBy (Stage.operation? (.inr reading))) (heardBy w.state (.inr reading))
        (Work.set (stages w) task ((reading.step task w.clock w.state).1.map .inr))
        (reading.step task w.clock w.state).2
  | leaves (task : TaskId) (stage : Stage M) (there : stages w task = some stage) :
      Effect w [] [] [] (Work.set (stages w) task none) (stage.release task w.state)
  | acts (act : Act) (lawful : act = .vanish → w.state.registry.shutdown = true) :
      Effect w [] [] [] (stages w) (w.state.act act)

/-! ## All actions -/

section

variable {w : Site M} {task : TaskId} {found : EngineTask M}

theorem stages_of_phase? {after : Site M} {phase? : Option (EngineTask M)}
    (changed : after.phase? = Work.set w.phase? task phase?) :
    stages after = Work.set (stages w) task (phase?.bind EngineTask.stage?) := by
  funext other
  show (after.phase? other).bind EngineTask.stage? = _
  rw [changed]
  by_cases here : other = task
  · rw [here, Work.set_self, Work.set_self]
  · rw [Work.set_of_ne _ _ _ here, Work.set_of_ne _ _ _ here]
    rfl

theorem stages_of_some (at_work : w.phase? task = some found) :
    stages w task = found.stage? := by
  unfold stages
  rw [at_work]
  rfl

theorem stages_of_none (gone : w.phase? task = none) : stages w task = none := by
  unfold stages
  rw [gone]
  rfl

/-- A call can take its step if what it waits for is there. -/
theorem ready_eq_of_call {phase : EngineCall.Phase M}
    (there : stages w task = some (.inl phase)) :
    w.ready machine task = phase.ready task w.clock w.state := by
  unfold stages at there
  obtain ⟨found, at_work, stage⟩ := Option.bind_eq_some_iff.mp there
  unfold World.ready
  rw [at_work]
  cases found with
  | call phase => cases stage; rfl
  | exchange phase box ms => cases stage; rfl
  | _ => cases stage

/-- So can the reader. -/
theorem ready_eq_of_reader {reading : Reading M}
    (there : stages w task = some (.inr reading)) :
    w.ready machine task = reading.ready task w.clock w.state := by
  unfold stages at there
  obtain ⟨found, at_work, stage⟩ := Option.bind_eq_some_iff.mp there
  unfold World.ready
  rw [at_work]
  cases found with
  | read reading => cases stage; rfl
  | _ => cases stage

/-- The stages after a step of a call, whatever follows the call. -/
theorem stages_stepCall (numbered : w.Numbered) (at_work : w.phase? task = some found)
    (ready : machine.ready task w.clock found w.state = true) {phase : EngineCall.Phase M}
    (next : EngineCall.Phase M ⊕ EngineCall.Answer → EngineTask M ⊕ EngineTask.Answer M)
    (steps : machine.step task w.clock found w.state =
      EngineTask.stepCall task w.clock phase w.state next)
    (goesOn : ∀ turn, (next turn).getLeft?.bind EngineTask.stage? = turn.getLeft?.map .inl) :
    stages (w.run machine task) =
        Work.set
          (Work.set (stages w) task ((phase.step task w.clock w.state).next.getLeft?.map .inl))
          w.next ((phase.step task w.clock w.state).reader?.map .inr) ∧
      (w.run machine task).state = (phase.step task w.clock w.state).engine := by
  have moved := World.phase?_run numbered at_work ready
  have state := World.state_run at_work ready
  rw [steps] at moved state
  refine ⟨?_, state⟩
  have first : ∀ other, (Work.set w.phase? task
      (EngineTask.stepCall task w.clock phase w.state next).next.getLeft? other).bind
        EngineTask.stage? =
      Work.set (stages w) task ((phase.step task w.clock w.state).next.getLeft?.map .inl)
        other := by
    intro other
    by_cases here : other = task
    · rw [here, Work.set_self, Work.set_self]
      exact goesOn _
    · rw [Work.set_of_ne _ _ _ here, Work.set_of_ne _ _ _ here]
      rfl
  -- The task that the call starts has the newest number; everybody else is as after the step.
  funext other
  show ((w.run machine task).phase? other).bind EngineTask.stage? = _
  rw [moved]
  by_cases newest : other = w.next
  · rw [newest, Work.set_self, Work.set_self]
    show (((phase.step task w.clock w.state).reader?.map EngineTask.read).bind _) = _
    cases (phase.step task w.clock w.state).reader? with
    | none => rfl
    | some reading => rfl
  · rw [Work.set_of_ne _ _ _ newest, Work.set_of_ne _ _ _ newest]
    exact first other

/-- The stages after a step of a call. -/
theorem stages_run_call (numbered : w.Numbered) {phase : EngineCall.Phase M}
    (there : stages w task = some (.inl phase)) (ready : w.ready machine task = true) :
    stages (w.run machine task) =
        Work.set
          (Work.set (stages w) task ((phase.step task w.clock w.state).next.getLeft?.map .inl))
          w.next ((phase.step task w.clock w.state).reader?.map .inr) ∧
      (w.run machine task).state = (phase.step task w.clock w.state).engine := by
  obtain ⟨found, at_work, can⟩ := World.exists_phase_of_ready ready
  have stage := (stages_of_some at_work).symm.trans there
  cases found with
  | call phase =>
    cases stage
    exact stages_stepCall numbered at_work can (·.map .call .call) rfl
      fun | .inl phase => rfl | .inr answer => rfl
  | exchange phase box ms =>
    cases stage
    -- An exchange goes on to wait for the answer, which is no stage of the engine.
    refine stages_stepCall numbered at_work can (EngineTask.afterCall w.clock box ms) rfl ?_
    intro turn
    unfold EngineTask.afterCall
    split <;> rfl
  | _ => cases stage

/-- A step of the reader. -/
theorem stages_stepRead {reading : Reading M} (at_work : w.phase? task = some (.read reading))
    (ready : machine.ready task w.clock (.read reading) w.state = true) :
    stages (w.run machine task) =
        Work.set (stages w) task ((reading.step task w.clock w.state).1.map .inr) ∧
      (w.run machine task).state = (reading.step task w.clock w.state).2 := by
  have state := World.state_run at_work ready
  cases step : reading.step task w.clock w.state with
  | mk next? e =>
    cases next? with
    | none =>
      have turn : machine.step task w.clock (.read reading) w.state =
          { next := .inr .finished, state := e } := by
        show EngineTask.step task w.clock (.read reading) w.state = _
        rw [EngineTask.step, step]
      have moved := World.phase?_run_of_spawned_none at_work ready (by rw [turn])
      rw [turn] at moved state
      exact ⟨stages_of_phase? moved, state⟩
    | some next =>
      have turn : machine.step task w.clock (.read reading) w.state =
          { next := .inl (.read next), state := e } := by
        show EngineTask.step task w.clock (.read reading) w.state = _
        rw [EngineTask.step, step]
      have moved := World.phase?_run_of_spawned_none at_work ready (by rw [turn])
      rw [turn] at moved state
      exact ⟨stages_of_phase? moved, state⟩

/-- A receiver that has waited for an event. -/
theorem effect_receive {waiting : Receiving} (at_work : w.phase? task = some (.receive waiting))
    (ready : machine.ready task w.clock (.receive waiting) w.state = true) :
    Effect w [] [] [] (stages (w.run machine task)) (w.run machine task).state := by
  have idle : stages w task = none := stages_of_some at_work
  have some : (waiting.poll w.clock w.state.registry).isSome = true := ready
  obtain ⟨⟨receipt, after⟩, polled⟩ := Option.isSome_iff_exists.mp some
  have turn : machine.step task w.clock (.receive waiting) w.state =
      { next := .inr (.receipt receipt), state := { w.state with registry := after } } := by
    show EngineTask.step task w.clock (.receive waiting) w.state = _
    simp only [EngineTask.step, polled]
  have moved := World.phase?_run_of_spawned_none at_work ready (by rw [turn])
  rw [stages_of_phase? moved, World.state_run at_work ready, turn]
  show Effect w [] [] [] (Work.set (stages w) task none) { w.state with registry := after }
  rw [Work.set_same idle]
  rcases Receiving.poll_cases polled with ⟨event, received, -⟩ | ⟨same, -⟩
  · have takes : ({ w.state with registry := after } : Engine M) =
        w.state.act (.listeners (.take waiting.box)) := by
      show _ = ({ w.state with registry :=
        ((w.state.registry.receive? waiting.box).map Prod.snd).getD w.state.registry } : Engine M)
      rw [received]
      rfl
    rw [takes]
    exact .acts (.listeners (.take waiting.box)) fun vanish => by cases vanish
  · rw [same]
    exact .same

/-- A step of the reader. If it has been told to stop, it only leaves. -/
theorem effect_read {reading : Reading M} (at_work : w.phase? task = some (.read reading))
    (ready : machine.ready task w.clock (.read reading) w.state = true) :
    Effect w (tookBy task (acting w.state (.inr reading)))
      (triedBy (acting w.state (.inr reading))) (heardBy w.state (.inr reading))
      (stages (w.run machine task)) (w.run machine task).state := by
  have there : stages w task = some (.inr reading) := stages_of_some at_work
  obtain ⟨moved, state⟩ := stages_stepRead at_work ready
  rw [moved, state]
  cases aborted : w.state.aborted with
  | false =>
    have steps : acting w.state (.inr reading) = Stage.operation? (.inr reading) :=
      if_neg (Bool.eq_false_iff.mp aborted)
    rw [steps]
    exact .reads task reading there aborted
  | true =>
    have stops : acting w.state (.inr reading) = none := if_pos aborted
    have stopped : reading.step task w.clock w.state =
        (none, Stage.release task (.inr reading) w.state) := if_pos aborted
    have deaf : heardBy w.state (.inr reading) = [] := by
      cases reading with
      | receiving intake => exact if_pos (by rw [aborted]; rfl)
      | _ => rfl
    rw [stops, stopped, deaf]
    exact .leaves task (.inr reading) there

/-- Nothing comes of running a task that is not ready, and nothing is seen of it. -/
theorem effect_of_not_ready (unready : w.ready machine task = false) :
    Effect w (takes w (.run task)) (tries w (.run task)) (hears w (.run task))
      (stages (w.run machine task)) (w.run machine task).state := by
  have idle : stepping w (.run task) = none := if_neg (Bool.eq_false_iff.mp unready)
  have unheard : hears w (.run task) = [] := if_neg (Bool.eq_false_iff.mp unready)
  show Effect w (tookBy task (stepping w (.run task))) (triedBy (stepping w (.run task))) _ _ _
  rw [World.run_of_not_ready unready, idle, unheard]
  exact .same

theorem effect_run (numbered : w.Numbered) (task : TaskId) :
    Effect w (takes w (.run task)) (tries w (.run task)) (hears w (.run task))
      (stages (w.run machine task)) (w.run machine task).state := by
  have fresh := stages_of_none numbered.phase?_next
  cases ready : w.ready machine task with
  | false => exact effect_of_not_ready ready
  | true =>
    obtain ⟨found, at_work, can⟩ := World.exists_phase_of_ready ready
    have there := stages_of_some at_work
    have acts : stepping w (.run task) = found.stage?.bind (acting w.state) := by
      rw [← there]
      exact if_pos ready
    have receives : hears w (.run task) = (found.stage?.map (heardBy w.state)).getD [] := by
      rw [← there]
      exact if_pos ready
    show Effect w (tookBy task (stepping w (.run task))) (triedBy (stepping w (.run task))) _ _ _
    rw [acts, receives]
    cases found with
    | call phase =>
      obtain ⟨moved, state⟩ := stages_run_call numbered there ready
      rw [moved, state]
      exact .calls task phase there fresh
    | exchange phase box ms =>
      obtain ⟨moved, state⟩ := stages_run_call numbered there ready
      rw [moved, state]
      exact .calls task phase there fresh
    | read reading => exact effect_read at_work can
    | receive waiting => exact effect_receive at_work can
    | rest latest =>
      have idle : stages w task = none := there
      have moved := World.phase?_run_of_spawned_none at_work can rfl
      rw [stages_of_phase? moved, World.state_run at_work can]
      show Effect w [] [] [] (Work.set (stages w) task none) w.state
      rw [Work.set_same idle]
      exact .same

/-- What an action makes of the stages and of the engine. -/
theorem effect (numbered : w.Numbered) {deed : Deed M} (lawful : Lawful w deed) :
    Effect w (takes w deed) (tries w deed) (hears w deed) (stages (w.apply machine deed))
      (w.apply machine deed).state := by
  have fresh := stages_of_none numbered.phase?_next
  cases deed with
  | start found =>
    have moved := stages_of_phase? (World.phase?_start numbered found)
    show Effect w [] [] [] (stages (w.start found)) w.state
    rw [moved]
    cases found with
    | call phase =>
      cases phase with
      | begin call => exact .begins call fresh
      | _ => exact lawful.elim
    | exchange phase box ms =>
      cases phase with
      | begin call => exact .begins call fresh
      | _ => exact lawful.elim
    | read reading => exact lawful.elim
    | receive waiting =>
      show Effect w [] [] [] (Work.set (stages w) w.next none) w.state
      rw [Work.set_same fresh]
      exact .same
    | rest latest =>
      show Effect w [] [] [] (Work.set (stages w) w.next none) w.state
      rw [Work.set_same fresh]
      exact .same
  | run task => exact effect_run numbered task
  | abandon task =>
    show Effect w [] [] [] (stages (w.abandon machine task)) (w.abandon machine task).state
    rw [stages_of_phase? (World.phase?_abandon machine w task)]
    show Effect w [] [] [] (Work.set (stages w) task none) _
    cases at_work : w.phase? task with
    | none =>
      rw [World.abandon_of_none at_work, Work.set_same (stages_of_none at_work)]
      exact .same
    | some found =>
      rw [World.abandon_of_phase at_work]
      have there := stages_of_some at_work
      cases found with
      | call phase => exact .leaves task (.inl phase) there
      | exchange phase box ms => exact .leaves task (.inl phase) there
      | read reading => exact .leaves task (.inr reading) there
      | receive waiting =>
        have idle : stages w task = none := there
        rw [Work.set_same idle]
        exact .same
      | rest latest =>
        have idle : stages w task = none := there
        rw [Work.set_same idle]
        exact .same
  | outside act =>
    refine .acts act fun vanish => ?_
    subst vanish
    exact lawful
  | wait ms => exact .same

end

/-! ## Where a stage comes from -/

/-- How a task has come to its stage. -/
inductive Comes (w : Site M) (heard : List (Except Failure Received)) (task : TaskId) :
    Stage M → Prop
  | stays (stage : Stage M) (there : stages w task = some stage) : Comes w heard task stage
  | begins (call : EngineCall M) (new : task = w.next) : Comes w heard task (.inl (.begin call))
  | calls (phase next : EngineCall.Phase M) (there : stages w task = some (.inl phase))
      (goesOn : (phase.step task w.clock w.state).next = .inl next) : Comes w heard task (.inl next)
  | reads (reading next : Reading M) (there : stages w task = some (.inr reading))
      (unaborted : w.state.aborted = false) (receives : heard = heardBy w.state (.inr reading))
      (goesOn : (reading.step task w.clock w.state).1 = some next) : Comes w heard task (.inr next)
  | starts (caller : TaskId) (phase : Operation.Phase M) (new : task = w.next)
      (there : stages w caller = some (.inl (.announcing phase))) :
      Comes w heard task (.inr (.receiving (.ofLimit w.state.settings.maxPayload)))

theorem Effect.comes {w : Site M} {took : List (TaskId × Event M)} {tried : List (Event M)}
    {heard : List (Except Failure Received)} {stages' : Work (Stage M)} {e' : Engine M}
    (effect : Effect w took tried heard stages' e') {task : TaskId} {stage : Stage M}
    (there : stages' task = some stage) : Comes w heard task stage := by
  cases effect with
  | same => exact .stays stage there
  | begins call fresh =>
    rcases Work.set_cases _ _ _ there with ⟨new, now⟩ | ⟨-, before⟩
    · cases now
      exact .begins call new
    · exact .stays stage before
  | calls caller phase at_work fresh =>
    rcases Work.set_cases _ _ _ there with ⟨new, now⟩ | ⟨-, earlier⟩
    · -- Only a call that has announced the connection starts a reader.
      obtain ⟨reading, starts, rfl⟩ := Option.map_eq_some_iff.mp now
      obtain ⟨announced, rfl, rfl⟩ := (phase.steps caller w.clock w.state).of_reader starts
      exact .starts caller announced new at_work
    · rcases Work.set_cases _ _ _ earlier with ⟨rfl, now⟩ | ⟨-, before⟩
      · obtain ⟨next, goesOn, rfl⟩ := Option.map_eq_some_iff.mp now
        exact .calls phase next at_work (Sum.getLeft?_eq_some_iff.mp goesOn)
      · exact .stays stage before
  | reads reader reading at_work unaborted =>
    rcases Work.set_cases _ _ _ there with ⟨rfl, now⟩ | ⟨-, before⟩
    · obtain ⟨next, goesOn, rfl⟩ := Option.map_eq_some_iff.mp now
      exact .reads reading next at_work unaborted rfl goesOn
    · exact .stays stage before
  | leaves leaver gone at_work =>
    rcases Work.set_cases _ _ _ there with ⟨-, now⟩ | ⟨-, before⟩
    · cases now
    · exact .stays stage before
  | acts act lawful => exact .stays stage there

end Engine

end HardwareSigner
