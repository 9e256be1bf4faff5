import HardwareSigner.Engine.Basic

/-!
# The reader of a connection

The reader is a task. It takes what the link receives, one outcome after the other, and dispatches
the events that it comes to. After an end of the stream it pauses. If reading fails it dispatches
`failure` and stops. The signal to shut down stops it the next time that it would wait for the link
or pause, and keeps `failure` from being dispatched.
-/

namespace HardwareSigner

/-- How far the reader has got with what it is doing. -/
inductive Reading (M : Type)
  | receiving (intake : Intake)
  /-- Dispatches an event, with `rest` to be dispatched after it. -/
  | dispatching (phase : Operation.Phase M) (rest : List (Event M)) (course : Course)
      (intake : Intake)
  | pausing (latest : Nat) (intake : Intake)
  /-- Dispatches the failure. -/
  | failing (phase : Operation.Phase M)

namespace Reading

variable {M : Type}

/-- The reader of an engine at its beginning. -/
def first (e : Engine M) : Reading M := .receiving (.ofLimit e.settings.maxPayload)

def ready (task : TaskId) (clock : Nat) (reading : Reading M) (e : Engine M) : Bool :=
  e.aborted ||
    match reading with
    | .receiving _ => e.registry.shutdown || e.link.receive?.isSome
    | .dispatching phase .. | .failing phase => phase.ready task e.registry
    | .pausing latest _ => e.registry.shutdown || latest ≤ clock

def wakeAt? : Reading M → Option Nat
  | .pausing latest _ => some latest
  | _ => none

/-- What a reader that is told to stop leaves behind. -/
def release (task : TaskId) (reading : Reading M) (e : Engine M) : Engine M :=
  match reading with
  | .dispatching phase .. | .failing phase =>
    { e with registry := phase.release task e.registry }
  | _ => e

def stop (e : Engine M) : Option (Reading M) × Engine M := (none, { e with reader := .stopped })

/-- Dispatches the next event, or goes on in the way that has been found. -/
def proceed (clock : Nat) (events : List (Event M)) (course : Course) (intake : Intake)
    (e : Engine M) : Option (Reading M) × Engine M :=
  match events, course with
  | event :: rest, _ =>
    (some (.dispatching (.begin (.dispatch event)) rest course intake), e)
  | [], .goOn => (some (.receiving intake), e)
  | [], .pause => (some (.pausing (clock + e.settings.eofPollMs.toNat) intake), e)
  | [], .fail =>
    if e.registry.shutdown then stop e
    else (some (.failing (.begin (.dispatch (.system .failure)))), e)

/-- One step of a reader that is ready; without a next phase it has stopped. -/
def step (task : TaskId) (clock : Nat) (reading : Reading M) (e : Engine M) :
    Option (Reading M) × Engine M :=
  if e.aborted then stop (reading.release task e)
  else
    match reading with
    | .receiving intake =>
      if e.registry.shutdown then stop e
      else
        match e.link.receive? with
        | none => (some reading, e)
        | some (outcome, link) =>
          let ((events, course), intake) := intake.take e.codec.toCodec outcome
          proceed clock events course intake { e with link := link }
    | .dispatching phase rest course intake =>
      match phase.step task e.registry with
      | (.inl phase, registry) =>
        (some (.dispatching phase rest course intake), { e with registry := registry })
      | (.inr _, registry) => proceed clock rest course intake { e with registry := registry }
    | .pausing _ intake => if e.registry.shutdown then stop e else (some (.receiving intake), e)
    | .failing phase =>
      match phase.step task e.registry with
      | (.inl phase, registry) => (some (.failing phase), { e with registry := registry })
      | (.inr _, registry) => stop { e with registry := registry }

end Reading

end HardwareSigner
