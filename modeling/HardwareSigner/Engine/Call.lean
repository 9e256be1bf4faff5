import HardwareSigner.Engine.Reading

/-!
# Calling an engine

Everything an engine can be asked for is a task that may have to wait: for a lock, for the link, for
the reader to stop.

* Connecting opens the link, puts the writing half in its place and tells all listeners; then the
  reader starts. If the engine was closed meanwhile, the writing half is taken out again.
* Sending writes one frame, in the order in which the senders asked for the writing half.
* Closing gives the reader some time to stop, then closes the writing half, tells the listeners that
  have room, and unlinks them all. Its outcome is that of closing the link.
-/

namespace HardwareSigner

/-- What can be asked of an engine. -/
inductive EngineCall (M : Type)
  | addListener (id : ListenerId)
  | removeListener (id : ListenerId)
  | countListeners
  | connect
  | send (message : M)
  /-- Sends a payload that is already serialized. -/
  | sendRaw (type : MessageType) (payload : Bytes)
  | close

namespace EngineCall

/-- What comes of a call. -/
inductive Answer
  | added (outcome : Except Failure MailboxId)
  | counted (count : Nat)
  | done (outcome : Except Failure Unit)
  deriving DecidableEq

/-- How far a call has got. -/
inductive Phase (M : Type)
  | begin (call : EngineCall M)
  /-- Works on the registry, which gives the answer. -/
  | listeners (phase : Operation.Phase M)
  /-- Waits for the lock to open the link. -/
  | connecting
  /-- The link is being opened until `latest`, when it may fail. -/
  | opening (latest : Nat) (failure? : Option String)
  /-- The link is open; waits for the lock to put the writing half in. -/
  | installing
  /-- Closed in between; waits for the lock to take the writing half out again. -/
  | retracting
  /-- Tells the listeners that the link is open. -/
  | announcing (phase : Operation.Phase M)
  /-- Waits for the lock to write a block. -/
  | sending (block : Bytes)
  /-- A block is being written until `latest`, when it may fail. -/
  | writing (block : Bytes) (latest : Nat) (failure? : Option String)
  /-- Waits for the reader to stop. -/
  | joining (latest : Nat)
  /-- Waits for the lock to take the writing half out. -/
  | detaching
  /-- Tells the listeners that have room. -/
  | parting (phase : Operation.Phase M) (outcome : Except Failure Unit)
  /-- Unlinks the listeners. -/
  | clearing (phase : Operation.Phase M) (outcome : Except Failure Unit)

/-- What a step of a call gives. -/
structure Step (M : Type) where
  next : Phase M ⊕ Answer
  engine : Engine M
  /-- The reader, if the step starts it. -/
  reader? : Option (Reading M) := none

namespace Phase

variable {M : Type}

def ready (task : TaskId) (clock : Nat) (phase : Phase M) (e : Engine M) : Bool :=
  match phase with
  | .begin _ => true
  | .listeners phase | .announcing phase | .parting phase _ | .clearing phase _ =>
    phase.ready task e.registry
  | .connecting => e.openLock.granted task
  | .installing | .retracting | .sending _ | .detaching => e.writerLock.granted task
  | .opening latest _ | .writing _ latest _ => latest ≤ clock
  | .joining latest => e.reader != .running || latest ≤ clock

def wakeAt? : Phase M → Option Nat
  | .opening latest _ | .writing _ latest _ | .joining latest => some latest
  | _ => none

/-- A call that is given up leaves the locks and queues it stands in. -/
def release (task : TaskId) (phase : Phase M) (e : Engine M) : Engine M :=
  match phase with
  | .begin _ | .joining _ => e
  | .listeners phase | .announcing phase | .parting phase _ | .clearing phase _ =>
    { e with registry := phase.release task e.registry }
  | .connecting | .opening .. => { e with openLock := e.openLock.release task }
  | .installing | .retracting | .sending _ | .writing .. | .detaching => e.releasesWriter task

def answer (outcome : Except Failure Unit) (e : Engine M) : Step M :=
  { next := .inr (.done outcome), engine := e }

def goOn (phase : Phase M) (e : Engine M) : Step M := { next := .inl phase, engine := e }

/-- Asks for the lock to write a block. -/
def startSend (task : TaskId) (block : Except Failure Bytes) (e : Engine M) : Step M :=
  if !e.connected then answer (.error .notConnected) e
  else
    match block with
    | .error failure => answer (.error failure) e
    | .ok block => goOn (.sending block) (e.asksWriter task)

def start (task : TaskId) (clock : Nat) (call : EngineCall M) (e : Engine M) : Step M :=
  match call with
  | .addListener id =>
    if e.state = .closed then { next := .inr (.added (.error .notConnected)), engine := e }
    else goOn (.listeners (.begin (.add id))) e
  | .removeListener id => goOn (.listeners (.begin (.remove id))) e
  | .countListeners => goOn (.listeners (.begin .count)) e
  | .connect =>
    match e.state with
    | .disconnected =>
      goOn .connecting
        { e with state := .connecting, openLock := e.openLock.request task .exclusive }
    | .connecting | .connected => answer (.error .alreadyConnected) e
    | .closed => answer (.error .notConnected) e
  | .send message => startSend task (e.codec.encode message) e
  | .sendRaw type payload => startSend task (Frame.encode type payload) e
  | .close =>
    if e.state = .closed then answer (.ok ()) e
    else
      let closed := { e with state := .closed }.shutdown
      if e.reader = .unstarted then goOn .detaching (closed.asksWriter task)
      else goOn (.joining (clock + e.settings.shutdownGraceMs.toNat)) closed

/-- The answer of the registry as that of the engine. -/
def ofRegistry : Operation.Answer → Answer
  | .added outcome => .added outcome
  | .removed outcome => .done outcome
  | .counted count => .counted count
  | _ => .done (.ok ())

/-- The link has been opened or not. -/
def opened (task : TaskId) (failure? : Option String) (e : Engine M) : Step M :=
  let (outcome, link) := e.link.openLink failure?
  let after := { e with link := link, openLock := e.openLock.release task }
  match outcome with
  | .ok () => goOn .installing (after.asksWriter task)
  | .error failure =>
    answer (.error failure)
      (if after.state = .connecting then { after with state := .disconnected } else after)

/-- Puts the writing half in. -/
def install (task : TaskId) (e : Engine M) : Step M :=
  let installed := { e with writer := true }.releasesWriter task
  if installed.state = .connecting then
    goOn (.announcing (.begin (.dispatch (.system .connected))))
      { installed with state := .connected }
  else goOn .retracting (installed.asksWriter task)

/-- All listeners have been told; the reader starts unless the engine is being closed. -/
def announced (e : Engine M) : Step M :=
  if e.registry.shutdown then answer (.error .notConnected) e
  else
    { next := .inr (.done (.ok ()))
      engine := { e with reader := .running }
      reader? := some (.first e) }

/-- It is this sender's turn. -/
def startWrite (task : TaskId) (clock : Nat) (block : Bytes) (e : Engine M) : Step M :=
  if !e.writer then answer (.error .notConnected) (e.releasesWriter task)
  else
    let (plan, link) := e.link.planWrite
    goOn (.writing block (clock + plan.delay) plan.failure?) { e with link := link }

/-- One step of a call that is ready. -/
def step (task : TaskId) (clock : Nat) (phase : Phase M) (e : Engine M) : Step M :=
  match phase with
  | .begin call => start task clock call e
  | .listeners phase =>
    let (next, registry) := phase.step task e.registry
    { next := next.map .listeners ofRegistry, engine := { e with registry := registry } }
  | .connecting =>
    let (plan, link) := e.link.planOpen
    goOn (.opening (clock + plan.delay) plan.failure?) { e with link := link }
  | .opening _ failure? => opened task failure? e
  | .installing => install task e
  | .retracting => answer (.error .notConnected) (e.closeWriter.2.releasesWriter task)
  | .announcing phase =>
    match phase.step task e.registry with
    | (.inl phase, registry) => goOn (.announcing phase) { e with registry := registry }
    | (.inr _, registry) => announced { e with registry := registry }
  | .sending block => startWrite task clock block e
  | .writing block _ failure? =>
    let (outcome, link) := e.link.write block failure?
    answer outcome ({ e with link := link }.releasesWriter task)
  | .joining _ =>
    goOn .detaching
      (({ e with aborted := e.aborted || e.reader == .running } : Engine M).asksWriter task)
  | .detaching =>
    let (outcome, after) := e.closeWriter
    goOn (.parting (.begin (.tryDispatch (.system .disconnected))) outcome)
      (after.releasesWriter task)
  | .parting phase outcome =>
    match phase.step task e.registry with
    | (.inl phase, registry) => goOn (.parting phase outcome) { e with registry := registry }
    | (.inr _, registry) =>
      goOn (.clearing (.begin .clear) outcome) { e with registry := registry }
  | .clearing phase outcome =>
    match phase.step task e.registry with
    | (.inl phase, registry) => goOn (.clearing phase outcome) { e with registry := registry }
    | (.inr _, registry) => answer outcome { e with registry := registry }

end Phase

end EngineCall

end HardwareSigner
