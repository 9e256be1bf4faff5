import HardwareSigner.Engine.Intake
import HardwareSigner.Link.Scripted
import HardwareSigner.Listener.Operation

/-!
# The engine of a connection

An engine owns one link, its listeners, and the reader that turns what the link receives into
events. Its connection goes through four states, from `disconnected` over `connecting` to
`connected`, or back if the link cannot be opened; and from any of them to `closed`, which is final.

The link has two halves, each behind a lock of its own: one to open it and one to write to it. The
writing half is in its place from the time the link is open until it is taken out to be closed.
-/

namespace HardwareSigner

inductive ConnectionState
  | disconnected | connecting | connected | closed
  deriving DecidableEq, Repr

def ConnectionState.display : ConnectionState → String
  | .disconnected => "Disconnected"
  | .connecting => "Connecting"
  | .connected => "Connected"
  | .closed => "Closed"

/-- How far the reader of an engine has got. -/
inductive ReaderState
  | unstarted | running | stopped
  deriving DecidableEq, Repr

structure Engine (M : Type) where
  codec : RequestCodec M
  settings : EngineSettings
  link : ScriptedLink
  registry : Registry M
  state : ConnectionState := .disconnected
  /-- Held while the link is being opened. -/
  openLock : Lock := {}
  /-- Held while the writing half is used, put in or taken out. -/
  writerLock : Lock := {}
  /-- Whether the writing half is in its place. -/
  writer : Bool := false
  reader : ReaderState := .unstarted
  /-- The reader has been told to stop without finishing what it does. -/
  aborted : Bool := false

namespace Engine

variable {M : Type}

/-- An engine whose link has not been opened. -/
def create (codec : RequestCodec M) (settings : EngineSettings) (link : ScriptedLink) : Engine M :=
  { codec := codec
    settings := settings
    link := link
    registry := .empty settings.queueCapacity.toNat }

/-- An engine for the link that a configuration describes, if it can be used. -/
def ofSettings (codec : RequestCodec M) (settings : ClientSettings) :
    Except Failure (Engine M) := do
  settings.check.mapError .settings
  return create codec settings.engine { target := ← settings.transport.target }

/-- Whether the engine is connected. -/
def connected (e : Engine M) : Bool := e.state == .connected

/-- The signal for everybody at work on the engine to stop. -/
def shutdown (e : Engine M) : Engine M :=
  { e with registry := { e.registry with shutdown := true } }

def asksWriter (e : Engine M) (task : TaskId) : Engine M :=
  { e with writerLock := e.writerLock.request task .exclusive }

def releasesWriter (e : Engine M) (task : TaskId) : Engine M :=
  { e with writerLock := e.writerLock.release task }

/-- Takes the writing half out, if it is there, and closes it. -/
def closeWriter (e : Engine M) : Except Failure Unit × Engine M :=
  if e.writer then
    let (outcome, link) := e.link.close
    (outcome, { e with writer := false, link := link })
  else (.ok (), e)

/-- Nobody needs the engine any more: everybody at work on it stops, and the reader at once. -/
def discard (e : Engine M) : Engine M := { e.shutdown with aborted := true }

end Engine

end HardwareSigner
