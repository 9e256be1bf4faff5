import HardwareSigner.Codec.Basic
import HardwareSigner.Event
import HardwareSigner.Frame.Buffer
import HardwareSigner.Link.Received

/-!
# From what a link receives to events

Reading a connection turns each outcome of a read into events for the listeners, and says how to go
on. Bytes are cut into frames and each frame is a message. Between two frames the stream may end,
which is told once, and reading is tried again later. An error, bytes that are no message and a
stream that ends inside a frame are fatal: after the events before it reading is over.

> `Intake.transcript` is what a list of outcomes comes to.
-/

namespace HardwareSigner

/-- How reading goes on. -/
inductive Course
  | goOn
  /-- After a pause. -/
  | pause
  /-- Not at all. -/
  | fail
  deriving DecidableEq, Repr

/-- What has been read of a connection and is not an event yet. -/
structure Intake where
  frames : FrameBuffer
  /-- The stream has ended, and nothing has come since. -/
  atEnd : Bool := false

namespace Intake

variable {M : Type}

/-- Nothing has been read; payloads longer than `limit` will be refused. -/
def ofLimit (limit : UInt32) : Intake := { frames := .empty limit }

/-- The messages in some frames, up to the first that is none. -/
def events (codec : Codec M) : List Frame → List (Event M) × Course
  | [] => ([], .goOn)
  | frame :: frames =>
    match codec.decode frame with
    | .error _ => ([], .fail)
    | .ok message =>
      let (rest, course) := events codec frames
      (.message frame.type message :: rest, course)

/-- What one outcome of a read comes to. -/
def take (codec : Codec M) (intake : Intake) (outcome : Except Failure Received) :
    (List (Event M) × Course) × Intake :=
  match outcome with
  | .error _ => (([], .fail), intake)
  | .ok .idle => (([], .goOn), intake)
  | .ok (.data bytes) =>
    match intake.frames.push bytes with
    | (.error _, frames) => (([], .fail), ⟨frames, false⟩)
    | (.ok found, frames) => (events codec found, ⟨frames, false⟩)
  | .ok .endOfStream =>
    match intake.frames.finish with
    | (.error _, frames) => (([], .fail), ⟨frames, intake.atEnd⟩)
    | (.ok (), frames) =>
      ((if intake.atEnd then [] else [.system .endOfStream], .pause), ⟨frames, true⟩)

/-- The events that a list of outcomes comes to. A fatal outcome is told last. -/
def transcript (codec : Codec M) (intake : Intake) :
    List (Except Failure Received) → List (Event M)
  | [] => []
  | outcome :: outcomes =>
    match intake.take codec outcome with
    | ((found, .fail), _) => found ++ [.system .failure]
    | ((found, _), after) => found ++ transcript codec after outcomes

end Intake

end HardwareSigner
