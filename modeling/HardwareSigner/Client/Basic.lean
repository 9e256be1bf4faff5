import HardwareSigner.Engine.Task

/-!
# Clients

A client shares an engine with others and has a listener of its own. There are two kinds. A
*blocking* client waits after each request for the next event in its mailbox, which need not be the
answer to that request. A *polling* client sends and returns; it looks into its mailbox when it
likes.
-/

namespace HardwareSigner

inductive ClientKind
  /-- Waits for events so many milliseconds at most. -/
  | blocking (timeout : UInt64)
  | polling
  deriving DecidableEq, Repr

structure Client where
  kind : ClientKind
  id : ListenerId
  box : MailboxId
  session : SessionId

/-- What a client can be asked to do. -/
inductive ClientRequest (M : Type)
  | connect
  | ping (text : String)
  | startSession
  | send (message : M)
  /-- Waits for the next event, as long as the client waits for one. -/
  | next
  /-- Waits for the next event at most so many milliseconds. -/
  | poll (ms : UInt64)
  | close
  /-- Takes the next event if it is there. -/
  | take
  | drain
  /-- Takes all events and says how many there were. -/
  | discard
  /-- Says how many events there are. -/
  | pending
  | state

namespace Client

variable {M : Type}

/-- A call in the name of the client: a blocking client also waits for an event. -/
def requestTask (c : Client) (call : EngineCall M) : EngineTask M :=
  match c.kind with
  | .blocking timeout => .exchange (.begin call) c.box timeout
  | .polling => .call (.begin call)

/-- Waiting for the next event. -/
def nextTask (c : Client) (clock : Nat) : EngineTask M :=
  match c.kind with
  | .blocking timeout => .receive (.within c.box clock timeout)
  | .polling => .receive (.unlimited c.box)

/-- The task by which a request is met, if it may have to wait. -/
def task? (c : Client) (codec : RequestCodec M) (clock : Nat) :
    ClientRequest M → Option (EngineTask M)
  | .connect => some (c.requestTask .connect)
  | .ping text => some (c.requestTask (.send (codec.ping text)))
  | .startSession => some (c.requestTask (.send (codec.startSession c.session)))
  | .send message => some (c.requestTask (.send message))
  | .next => some (c.nextTask clock)
  | .poll ms => some (.receive (.within c.box clock ms))
  | .close => some (.call (.begin .close))
  | .take | .drain | .discard | .pending | .state => none

end Client

end HardwareSigner
