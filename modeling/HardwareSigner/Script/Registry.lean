import HardwareSigner.Script.Mailbox
import HardwareSigner.Task.Rehearsal

/-!
# A registry step by step

A script works on one registry: it adds and removes listeners, dispatches events, reads mailboxes,
and starts operations behind its back. `RegistryScript.perform` carries out one step and tells its
outcome; a step that cannot be completed is `blocked`. After each step everybody behind the stage
goes on as far as possible.
-/

namespace HardwareSigner

/-- A task on a registry: an operation, or waiting for an event. -/
inductive RegistryTask (M : Type)
  | operation (phase : Operation.Phase M)
  | receive (waiting : Receiving)

namespace RegistryTask

variable {M : Type}

/-- What comes of a task. -/
inductive Answer (M : Type)
  | operation (answer : Operation.Answer)
  | receipt (receipt : Receipt M)

/-- Operations and receivers as tasks on a registry. -/
def machine : Machine Registry.Act (Registry M) (RegistryTask M) (Answer M) where
  ready task clock phase r :=
    match phase with
    | .operation phase => phase.ready task r
    | .receive waiting => (waiting.poll clock r).isSome
  step task clock phase r :=
    match phase with
    | .operation phase =>
      let (next, after) := phase.step task r
      { next := next.map .operation .operation, state := after }
    | .receive waiting =>
      match waiting.poll clock r with
      | some (receipt, after) => { next := .inr (.receipt receipt), state := after }
      | none => { next := .inl phase, state := r }
  wakeAt?
    | .operation _ => none
    | .receive waiting => waiting.wakeAt?
  release task phase r :=
    match phase with
    | .operation phase => phase.release task r
    | .receive _ => r
  outside act r := r.act act

end RegistryTask

/-- What a script may ask for. -/
inductive RegistryRequest (M : Type)
  /-- Adds a listener and holds its receiver under a name. -/
  | add (id : ListenerId) (name : String)
  | operation (operation : Operation M)
  | capacity
  | shutdown
  | mailbox (name : String) (request : MailboxRequest)
  | drop (name : String)
  | spawn (name : String) (operation : Operation M)
  | join (name : String)
  | abort (name : String)

/-- The outcome of a step. -/
inductive RegistryOutcome (M : Type)
  | done
  | answer (answer : Operation.Answer)
  | found (finding : Finding M)
  | capacity (capacity : Nat)
  /-- A receiver was dropped, if there was one to drop. -/
  | dropped (existed : Bool)
  /-- No mailbox is held under the name. -/
  | unheld
  | unknownTask
  | pending
  | blocked

/-- A registry with what a script holds of it. -/
structure RegistryScript (M : Type) where
  rehearsal : Rehearsal (Registry M) (RegistryTask M) (RegistryTask.Answer M)
  held : Held := []
  /-- Operations that were started behind the script's back. -/
  spawned : List (String × TaskId) := []

namespace RegistryScript

variable {M : Type}

def ofCapacity (capacity : Nat) : RegistryScript M :=
  { rehearsal := .ofState (.empty capacity) }

def registry (s : RegistryScript M) : Registry M := s.rehearsal.state

/-- Plays a task in front. -/
def play (s : RegistryScript M) (task : RegistryTask M) :
    Option (RegistryTask.Answer M) × RegistryScript M :=
  let (answer, rehearsal) := s.rehearsal.play RegistryTask.machine task
  (answer, { s with rehearsal := rehearsal })

def outside (s : RegistryScript M) (act : Registry.Act) : RegistryScript M :=
  { s with rehearsal := s.rehearsal.outside RegistryTask.machine act }

def ofAnswer : Option (RegistryTask.Answer M) → RegistryOutcome M
  | some (.operation answer) => .answer answer
  | some (.receipt receipt) => .found (.received receipt.outcome)
  | none => .blocked

def onMailbox (s : RegistryScript M) (h : Holding) (request : MailboxRequest) :
    RegistryOutcome M × RegistryScript M :=
  match request.waiting? h.box s.rehearsal.world.clock with
  | some waiting =>
    match s.play (.receive waiting) with
    | (some (.receipt receipt), s) => (.found (request.ofReceipt receipt), s)
    | (_, s) => (.blocked, s)
  | none =>
    let (finding, act?) := request.finding h s.registry
    (.found finding, (act?.map s.outside).getD s)

/-- Drops the receiver held under a name, if there is one. -/
def drop (s : RegistryScript M) (name : String) : RegistryScript M :=
  match s.held.lookup name with
  | none => s
  | some h => { s.outside (.drop h.box) with held := s.held.without name }

def forget (s : RegistryScript M) (name : String) : RegistryScript M :=
  { s with spawned := s.spawned.filter fun entry => entry.1 != name }

def performOnly (s : RegistryScript M) : RegistryRequest M → RegistryOutcome M × RegistryScript M
  | .add id name =>
    match s.play (.operation (.begin (.add id))) with
    | (some (.operation (.added (.ok box))), s) =>
      let s := s.drop name
      (.done, { s with held := s.held.hold name ⟨id, box⟩ })
    | (answer, s) => (ofAnswer answer, s)
  | .operation operation =>
    let (answer, s) := s.play (.operation (.begin operation))
    (ofAnswer answer, s)
  | .capacity => (.capacity s.registry.capacity, s)
  | .shutdown => (.done, s.outside .shutdown)
  | .mailbox name request =>
    match s.held.lookup name with
    | none => (.unheld, s)
    | some h => s.onMailbox h request
  | .drop name => (.dropped (s.held.lookup name).isSome, s.drop name)
  | .spawn name operation =>
    let (task, rehearsal) := s.rehearsal.spawn RegistryTask.machine (.operation (.begin operation))
    (.done, { s.forget name with
      rehearsal := rehearsal
      spawned := (s.forget name).spawned ++ [(name, task)] })
  | .join name =>
    match s.spawned.lookup name with
    | none => (.unknownTask, s)
    | some task =>
      match s.rehearsal.world.result? task with
      | none => (.pending, s)
      | some answer => (ofAnswer (some answer), s.forget name)
  | .abort name =>
    match s.spawned.lookup name with
    | none => (.unknownTask, s)
    | some task =>
      (.done, { s.forget name with
        rehearsal := s.rehearsal.abandon RegistryTask.machine task })

/-- Carries out a step, after which everybody goes on as far as possible. -/
def perform (s : RegistryScript M) (request : RegistryRequest M) :
    RegistryOutcome M × RegistryScript M :=
  let (outcome, s) := s.performOnly request
  (outcome, { s with rehearsal := s.rehearsal.settle RegistryTask.machine })

/-- The mailboxes that the script holds. -/
def views (s : RegistryScript M) : List (String × MailboxView) :=
  s.held.map fun (name, h) => (name, h.view s.registry)

end RegistryScript

end HardwareSigner
