import HardwareSigner.Engine.Call
import HardwareSigner.Listener.Receiver

/-!
# Everybody at work on an engine

The tasks of an engine are the calls, the reader, and whoever waits for an event. An *exchange* is a
call that, if it succeeds, waits for the next event of a mailbox. From outside the link is fed,
receivers take events or are dropped, and the engine is discarded.

`Engine.machine` makes one system of it.
-/

namespace HardwareSigner

/-- What a task of an engine is doing. -/
inductive EngineTask (M : Type)
  | call (phase : EngineCall.Phase M)
  | read (reading : Reading M)
  | receive (waiting : Receiving)
  /-- Makes a call; then waits for an event of `box`, at most `ms` milliseconds. -/
  | exchange (phase : EngineCall.Phase M) (box : MailboxId) (ms : UInt64)
  /-- Waits for nothing but the time to pass. -/
  | rest (latest : Nat)

namespace EngineTask

/-- What comes of a task. -/
inductive Answer (M : Type)
  | call (answer : EngineCall.Answer)
  | receipt (receipt : Receipt M)
  /-- The reader has stopped, or the time has passed. -/
  | finished

variable {M : Type}

def ready (task : TaskId) (clock : Nat) (phase : EngineTask M) (e : Engine M) : Bool :=
  match phase with
  | .call phase | .exchange phase _ _ => phase.ready task clock e
  | .read reading => reading.ready task clock e
  | .receive waiting => (waiting.poll clock e.registry).isSome
  | .rest latest => latest ≤ clock

def wakeAt? : EngineTask M → Option Nat
  | .call phase | .exchange phase _ _ => phase.wakeAt?
  | .read reading => reading.wakeAt?
  | .receive waiting => waiting.wakeAt?
  | .rest latest => some latest

def release (task : TaskId) (phase : EngineTask M) (e : Engine M) : Engine M :=
  match phase with
  | .call phase | .exchange phase _ _ => phase.release task e
  | .read reading => { reading.release task e with reader := .stopped }
  | .receive _ | .rest _ => e

/-- One step of a call, which may start the reader. -/
def stepCall (task : TaskId) (clock : Nat) (phase : EngineCall.Phase M) (e : Engine M)
    (next : EngineCall.Phase M ⊕ EngineCall.Answer → EngineTask M ⊕ Answer M) :
    Turn (Engine M) (EngineTask M) (Answer M) :=
  let step := phase.step task clock e
  { next := next step.next, state := step.engine, spawned? := step.reader?.map .read }

/-- What follows a step of the call in an exchange. -/
def afterCall (clock : Nat) (box : MailboxId) (ms : UInt64) :
    EngineCall.Phase M ⊕ EngineCall.Answer → EngineTask M ⊕ Answer M
  | .inl phase => .inl (.exchange phase box ms)
  | .inr (.done (.ok ())) => .inl (.receive (.within box clock ms))
  | .inr answer => .inr (.call answer)

def step (task : TaskId) (clock : Nat) (phase : EngineTask M) (e : Engine M) :
    Turn (Engine M) (EngineTask M) (Answer M) :=
  match phase with
  | .call phase => stepCall task clock phase e (·.map .call .call)
  | .exchange phase box ms => stepCall task clock phase e (afterCall clock box ms)
  | .read reading =>
    match reading.step task clock e with
    | (some reading, e) => { next := .inl (.read reading), state := e }
    | (none, e) => { next := .inr .finished, state := e }
  | .receive waiting =>
    match waiting.poll clock e.registry with
    | some (receipt, registry) =>
      { next := .inr (.receipt receipt), state := { e with registry := registry } }
    | none => { next := .inl phase, state := e }
  | .rest _ => { next := .inr .finished, state := e }

end EngineTask

namespace Engine

variable {M : Type}

/-- What happens to an engine from outside. -/
inductive Act
  | listeners (act : Registry.Act)
  /-- Something arrives for the reader. -/
  | feed (arrivals : List Arrival)
  | discard
  /-- The engine and its reader are gone, and nobody can put anything into a mailbox any more. -/
  | vanish

def act (e : Engine M) : Act → Engine M
  | .listeners act => { e with registry := e.registry.act act }
  | .feed arrivals => { e with link := e.link.feed arrivals }
  | .discard => e.discard
  | .vanish => { e with registry := e.registry.unlinkAll }

def machine : Machine Act (Engine M) (EngineTask M) (EngineTask.Answer M) where
  ready := EngineTask.ready
  step := EngineTask.step
  wakeAt? := EngineTask.wakeAt?
  release := EngineTask.release
  outside act e := e.act act

end Engine

end HardwareSigner
