import HardwareSigner.Client.Basic
import HardwareSigner.Script.Mailbox
import HardwareSigner.Task.Rehearsal

/-!
# An engine step by step

A script works on one engine over a scripted link, with listeners and clients.
`EngineScript.perform` carries out one step and tells its outcome; a step that cannot be completed
is `blocked`. After each step everybody behind the stage goes on as far as possible; if the link
leads to a device a millisecond passes as well.

An engine that has been let go is discarded when no call is at work on it any more. Then its reader
stops, and after that all mailboxes are closed.
-/

namespace HardwareSigner

/-- What a script may ask for. -/
inductive EngineRequest (M : Type)
  /-- Adds a listener and holds its receiver under a name. -/
  | add (id : ListenerId) (name : String)
  | call (call : EngineCall M)
  | connected
  | feed (arrivals : List Arrival)
  | advance (ms : Nat)
  /-- Asks what has been written since the last time. -/
  | log
  /-- Lets the engine and all clients go. -/
  | dropEngine
  /-- Attaches a client; a blocking one waits for events as the engine's settings say, if it is not
  told how long. -/
  | attach (name : String) (blocking : Bool) (timeout? : Option UInt64)
  | client (name : String) (request : ClientRequest M)
  | mailbox (name : String) (request : MailboxRequest)
  /-- Drops the receiver and the client with a name. -/
  | drop (name : String)
  | spawn (name : String) (call : EngineCall M)
  | join (name : String)

/-- What has reached the link. -/
structure LinkLog where
  /-- Blocks of bytes, or the reports of a device. -/
  written : List Bytes
  /-- The feature reports of a device. -/
  features? : Option (List Bytes)
  /-- How often the link has been closed altogether. -/
  closes : Nat

/-- The outcome of a step. -/
inductive EngineOutcome (M : Type)
  | done (outcome : Except Failure Unit)
  | count (count : Nat)
  | flag (value : Bool)
  | found (finding : Finding M)
  | log (log : LinkLog)
  /-- The state of the connection, and whether the client's listener has a number that was allocated
  for it. -/
  | state (state : ConnectionState) (allocated : Bool)
  /-- No mailbox is held under the name. -/
  | unheld
  | noEngine
  | noClient
  | unknownTask
  | pending
  | blocked

/-- An engine with what a script holds of it. -/
structure EngineScript (M : Type) where
  rehearsal : Rehearsal (Engine M) (EngineTask M) (EngineTask.Answer M)
  held : Held := []
  clients : List (String × Client) := []
  spawned : List (String × TaskId) := []
  /-- The engine has been let go. -/
  released : Bool := false
  /-- How many listener numbers have been allocated. -/
  allocated : Nat := 0
  /-- The session identifiers for clients to come. -/
  sessions : Nat → SessionId
  /-- How much of what was written has been told. -/
  told : Nat := 0
  toldFeatures : Nat := 0

namespace EngineScript

variable {M : Type}

/-- A script for an engine that has not been connected. -/
def ofEngine (engine : Engine M) (sessions : Nat → SessionId) : EngineScript M :=
  { rehearsal := .ofState engine, sessions := sessions }

def engine (s : EngineScript M) : Engine M := s.rehearsal.state

/-- The state of the connection, unless the engine has been let go. -/
def state? (s : EngineScript M) : Option ConnectionState :=
  if s.released then none else some s.engine.state

/-- Plays a task in front. -/
def play (s : EngineScript M) (task : EngineTask M) :
    Option (EngineTask.Answer M) × EngineScript M :=
  let (answer, rehearsal) := s.rehearsal.play Engine.machine task
  (answer, { s with rehearsal := rehearsal })

def outside (s : EngineScript M) (act : Engine.Act) : EngineScript M :=
  { s with rehearsal := s.rehearsal.outside Engine.machine act }

def ofAnswer : Option (EngineTask.Answer M) → EngineOutcome M
  | some (.call (.added outcome)) => .done (outcome.map fun _ => ())
  | some (.call (.counted count)) => .count count
  | some (.call (.done outcome)) => .done outcome
  | some (.receipt receipt) => .found (.received receipt.outcome)
  | some .finished => .done (.ok ())
  | none => .blocked

def playCall (s : EngineScript M) (call : EngineCall M) : EngineOutcome M × EngineScript M :=
  let (answer, s) := s.play (.call (.begin call))
  (ofAnswer answer, s)

/-- Waits for an event. -/
def await (s : EngineScript M) (request : MailboxRequest) (waiting : Receiving) :
    EngineOutcome M × EngineScript M :=
  match s.play (.receive waiting) with
  | (some (.receipt receipt), s) => (.found (request.ofReceipt receipt), s)
  | (_, s) => (.blocked, s)

def onMailbox (s : EngineScript M) (h : Holding) (request : MailboxRequest) :
    EngineOutcome M × EngineScript M :=
  match request.waiting? h.box s.rehearsal.world.clock with
  | some waiting => s.await request waiting
  | none =>
    let (finding, act?) := request.finding h s.engine.registry
    (.found finding, (act?.map fun act => s.outside (.listeners act)).getD s)

def dropHeld (s : EngineScript M) (name : String) : EngineScript M :=
  match s.held.lookup name with
  | none => s
  | some h => { s.outside (.listeners (.drop h.box)) with held := s.held.without name }

def dropClient (s : EngineScript M) (name : String) : EngineScript M :=
  match s.clients.lookup name with
  | none => s
  | some c =>
    { s.outside (.listeners (.drop c.box)) with
      clients := s.clients.filter fun entry => entry.1 != name }

/-- Adds a listener; gives its mailbox or the outcome of the attempt. -/
def addListener (s : EngineScript M) (id : ListenerId) :
    (EngineOutcome M ⊕ MailboxId) × EngineScript M :=
  match s.play (.call (.begin (.addListener id))) with
  | (some (.call (.added (.ok box))), s) => (.inr box, s)
  | (answer, s) => (.inl (ofAnswer answer), s)

/-- Attaches a client with a listener and a session of its own. -/
def attach (s : EngineScript M) (name : String) (blocking : Bool) (timeout? : Option UInt64) :
    EngineOutcome M × EngineScript M :=
  let number := s.allocated
  let id : ListenerId := ⟨UInt64.ofNat (ListenerId.firstAllocated + number)⟩
  let s := { s with allocated := number + 1 }
  match s.addListener id with
  | (.inl outcome, s) => (outcome, s)
  | (.inr box, s) =>
    let kind : ClientKind :=
      if blocking then .blocking (timeout?.getD s.engine.settings.responseTimeoutMs) else .polling
    let s := s.dropClient name
    (.done (.ok ()),
      { s with clients := s.clients ++ [(name, ⟨kind, id, box, s.sessions number⟩)] })

/-- What a client's mailbox request is, if it asks for events that are there. -/
def mailboxRequest? : ClientRequest M → Option MailboxRequest
  | .take => some .take
  | .drain => some .drain
  | _ => none

def onClient (s : EngineScript M) (c : Client) (request : ClientRequest M) :
    EngineOutcome M × EngineScript M :=
  match c.task? s.engine.codec s.rehearsal.world.clock request with
  | some (.receive waiting) =>
    s.await (if waiting.limit?.isNone then .receive else .receiveWithin 0) waiting
  | some task =>
    let (answer, s) := s.play task
    (ofAnswer answer, s)
  | none =>
    match mailboxRequest? request with
    | some request => s.onMailbox ⟨c.id, c.box⟩ request
    | none =>
      let count := s.engine.registry.pending c.box
      match request with
      | .discard => (.count count, s.outside (.listeners (.drain c.box)))
      | .pending => (.count count, s)
      | _ => (.state s.engine.state (ListenerId.firstAllocated ≤ c.id.value.toNat), s)

/-- Everything written so far: for a device its reports and feature reports. -/
def writtenSoFar (s : EngineScript M) : List Bytes × List Bytes :=
  match s.engine.link.hid? with
  | none => (s.engine.link.written, [])
  | some hid => (hid.device.written, hid.device.features)

def log (s : EngineScript M) : EngineOutcome M × EngineScript M :=
  let (written, features) := s.writtenSoFar
  (.log {
    written := written.drop s.told
    features? := s.engine.link.hid?.map fun _ => features.drop s.toldFeatures
    closes := s.engine.link.closes },
    { s with told := written.length, toldFeatures := features.length })

/-- Whether a step needs an engine that has not been let go. -/
def needsEngine : EngineRequest M → Bool
  | .add .. | .call _ | .connected | .dropEngine | .attach .. | .spawn .. => true
  | _ => false

def performOnly (s : EngineScript M) : EngineRequest M → EngineOutcome M × EngineScript M
  | .add id name =>
    match s.addListener id with
    | (.inl outcome, s) => (outcome, s)
    | (.inr box, s) =>
      let s := s.dropHeld name
      (.done (.ok ()), { s with held := s.held.hold name ⟨id, box⟩ })
  | .call call => s.playCall call
  | .connected => (.flag s.engine.connected, s)
  | .feed arrivals => (.done (.ok ()), s.outside (.feed arrivals))
  | .advance ms =>
    let (answer, s) := s.play (.rest (s.rehearsal.world.clock + ms))
    (ofAnswer answer, s)
  | .log => s.log
  | .dropEngine =>
    let s := s.clients.foldl (fun s entry => s.dropClient entry.1) s
    (.done (.ok ()), { s with released := true })
  | .attach name blocking timeout? => s.attach name blocking timeout?
  | .client name request =>
    match s.clients.lookup name with
    | none => (.noClient, s)
    | some c => s.onClient c request
  | .mailbox name request =>
    match s.held.lookup name with
    | none => (.unheld, s)
    | some h => s.onMailbox h request
  | .drop name =>
    (.flag ((s.held.lookup name).isSome || (s.clients.lookup name).isSome),
      (s.dropHeld name).dropClient name)
  | .spawn name call =>
    let (task, rehearsal) := s.rehearsal.spawn Engine.machine (.call (.begin call))
    (.done (.ok ()), { s with
      rehearsal := rehearsal
      spawned := s.spawned.filter (fun entry => entry.1 != name) ++ [(name, task)] })
  | .join name =>
    match s.spawned.lookup name with
    | none => (.unknownTask, s)
    | some task =>
      match s.rehearsal.world.result? task with
      | none => (.pending, s)
      | some answer =>
        (ofAnswer (some answer),
          { s with spawned := s.spawned.filter fun entry => entry.1 != name })

/-- Whether a call is at work on the engine. -/
def busy (s : EngineScript M) : Bool :=
  s.rehearsal.world.tasks.any fun entry =>
    match entry.2 with
    | .call _ => true
    | _ => false

/-- Everybody goes on as far as possible. -/
def settle (s : EngineScript M) : EngineScript M :=
  { s with
    rehearsal :=
      if s.engine.link.hid?.isSome then s.rehearsal.pass Engine.machine 1
      else s.rehearsal.settle Engine.machine }

/-- Discards an engine that nobody holds any more. -/
def tidy (s : EngineScript M) : EngineScript M :=
  if s.released && !s.busy then (s.outside .discard).settle.outside .vanish else s

/-- Carries out a step, after which everybody goes on as far as possible. -/
def perform (s : EngineScript M) (request : EngineRequest M) :
    EngineOutcome M × EngineScript M :=
  if s.released && needsEngine request then (.noEngine, s)
  else
    let (outcome, s) := s.performOnly request
    (outcome, s.settle.tidy)

end EngineScript

end HardwareSigner
