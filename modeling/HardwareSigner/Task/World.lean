import HardwareSigner.Task.Lock

/-!
# Tasks that share a state

Several tasks work on one state. Each is in a phase that says what it will do next, and a step takes
it from there to the next phase or to its result. Between two steps anything may happen: another
task's step, a change from outside, the passing of time.

A `Machine` says what the steps are. A `World` is a state with the tasks at work on it, and
`World.apply` takes it through one `Action`; every list of actions is a run, and `World.Reaches`
says that some run leads from one world to another.

> `World.Reaches.keeps`: what every action keeps, every run keeps.
-/

namespace HardwareSigner

/-- What a step makes of its task and of the state. -/
structure Turn (σ π ρ : Type) where
  /-- The next phase, or the result. -/
  next : π ⊕ ρ
  state : σ
  /-- A further task that the step starts. -/
  spawned? : Option π := none

/-- How the tasks of a system proceed: `σ` is what they share, `π` are their phases and `ρ` their
results, and `α` is what may be done from outside. -/
structure Machine (α σ π ρ : Type) where
  /-- Whether a task can take its next step at the given time. -/
  ready : TaskId → Nat → π → σ → Bool
  step : TaskId → Nat → π → σ → Turn σ π ρ
  /-- When the passing of time alone will make a task ready. -/
  wakeAt? : π → Option Nat
  /-- What becomes of the state if the task is given up: it leaves every queue it stands in. -/
  release : TaskId → π → σ → σ
  outside : α → σ → σ

/-- A state, the tasks at work on it in the order of their numbers, the results of those that have
finished, and the time in milliseconds. -/
structure World (σ π ρ : Type) where
  clock : Nat
  state : σ
  tasks : List (TaskId × π)
  results : List (TaskId × ρ)
  /-- The number of the next task. -/
  next : TaskId

/-- What can happen. -/
inductive Action (α π : Type)
  | start (phase : π)
  | run (task : TaskId)
  /-- A task is given up before it has finished. -/
  | abandon (task : TaskId)
  | outside (act : α)
  /-- Time passes. -/
  | wait (ms : Nat)

namespace World

variable {α σ π ρ : Type}

/-- A state on which nobody is at work. -/
def ofState (state : σ) : World σ π ρ := ⟨0, state, [], [], 0⟩

def phase? (w : World σ π ρ) (task : TaskId) : Option π := w.tasks.lookup task

def result? (w : World σ π ρ) (task : TaskId) : Option ρ := w.results.lookup task

/-- Starts a task. -/
def start (w : World σ π ρ) (phase : π) : World σ π ρ :=
  { w with tasks := w.tasks ++ [(w.next, phase)], next := w.next + 1 }

/-- Puts a task into another phase. -/
def goOn (w : World σ π ρ) (task : TaskId) (phase : π) : World σ π ρ :=
  { w with tasks := w.tasks.map fun entry => if entry.1 = task then (task, phase) else entry }

/-- Takes a task out. -/
def leave (w : World σ π ρ) (task : TaskId) : World σ π ρ :=
  { w with tasks := w.tasks.filter fun entry => entry.1 != task }

def finish (w : World σ π ρ) (task : TaskId) (result : ρ) : World σ π ρ :=
  { w.leave task with results := w.results ++ [(task, result)] }

/-- Whether a task is there and can take its next step. -/
def ready (m : Machine α σ π ρ) (w : World σ π ρ) (task : TaskId) : Bool :=
  match w.phase? task with
  | none => false
  | some phase => m.ready task w.clock phase w.state

/-- Lets a task take one step. -/
def run (m : Machine α σ π ρ) (w : World σ π ρ) (task : TaskId) : World σ π ρ :=
  match w.phase? task with
  | none => w
  | some phase =>
    if m.ready task w.clock phase w.state then
      let turn := m.step task w.clock phase w.state
      let moved := { w with state := turn.state }
      let after := match turn.next with
        | .inl phase => moved.goOn task phase
        | .inr result => moved.finish task result
      match turn.spawned? with
      | none => after
      | some phase => after.start phase
    else w

def abandon (m : Machine α σ π ρ) (w : World σ π ρ) (task : TaskId) : World σ π ρ :=
  match w.phase? task with
  | none => w
  | some phase => { w.leave task with state := m.release task phase w.state }

/-- What an action makes of a world. A step of a task that is not ready does nothing. -/
def apply (m : Machine α σ π ρ) (w : World σ π ρ) : Action α π → World σ π ρ
  | .start phase => w.start phase
  | .run task => w.run m task
  | .abandon task => w.abandon m task
  | .outside act => { w with state := m.outside act w.state }
  | .wait ms => { w with clock := w.clock + ms }

/-- What a list of actions makes of a world. -/
def applyAll (m : Machine α σ π ρ) (w : World σ π ρ) (actions : List (Action α π)) :
    World σ π ρ :=
  actions.foldl (apply m) w

theorem applyAll_append (m : Machine α σ π ρ) (w : World σ π ρ) (before after : List (Action α π)) :
    w.applyAll m (before ++ after) = (w.applyAll m before).applyAll m after :=
  List.foldl_append

/-- Some run leads from one world to the other. -/
def Reaches (m : Machine α σ π ρ) (start reached : World σ π ρ) : Prop :=
  ∃ actions, start.applyAll m actions = reached

namespace Reaches

variable {m : Machine α σ π ρ} {u v w : World σ π ρ}

theorem refl (w : World σ π ρ) : Reaches m w w := ⟨[], rfl⟩

theorem trans (first : Reaches m u v) (second : Reaches m v w) : Reaches m u w := by
  obtain ⟨before, rfl⟩ := first
  obtain ⟨after, rfl⟩ := second
  exact ⟨before ++ after, applyAll_append m u before after⟩

theorem apply (w : World σ π ρ) (action : Action α π) : Reaches m w (w.apply m action) :=
  ⟨[action], rfl⟩

theorem keeps {Kept : World σ π ρ → Prop}
    (step : ∀ w action, Kept w → Kept (w.apply m action))
    (reached : Reaches m v w) (kept : Kept v) : Kept w := by
  obtain ⟨actions, rfl⟩ := reached
  induction actions generalizing v with
  | nil => exact kept
  | cons action rest ih => exact ih (step v action kept)

end Reaches

end World

end HardwareSigner
