import HardwareSigner.Device.Bridge
import HardwareSigner.Device.Select
import HardwareSigner.Link.Received

/-!
# The link to an attached device

Opening takes five steps: list the devices, choose one, open it, switch its line on, empty both its
queues. The first step that fails decides the outcome. Bytes are sent in reports, and received in
reports joined until none has come for a while. Closing switches the line off.

`HidLink.perform` carries out one request and says what it did to the device.
-/

namespace HardwareSigner

/-- A device on a bus, and what is wanted of it. -/
structure HidLink where
  bus : Bus
  settings : HidSettings
  /-- The device that opening gives access to. -/
  device : Device
  /-- Whether opening has ever succeeded. -/
  opened : Bool := false

namespace HidLink

/-- Finds and opens the device, switches its line on and empties both queues. -/
def openLink (l : HidLink) : Except Failure Unit × HidLink :=
  match l.bus.openConfigured l.settings with
  | (.error failure, bus) => (.error failure, { l with bus := bus })
  | (.ok _, bus) =>
    match Bridge.enable true l.device with
    | (.error failure, device) => (.error failure, { l with bus := bus, device := device })
    | (.ok (), device) =>
      match Bridge.purge .both device with
      | (.error failure, device) => (.error failure, { l with bus := bus, device := device })
      | (.ok (), device) => (.ok (), { l with bus := bus, device := device, opened := true })

def send (l : HidLink) (payload : Bytes) : Except Failure Unit × HidLink :=
  let (outcome, device) := l.device.send payload
  (outcome, { l with device := device })

def receive (l : HidLink) : Except Failure Received × HidLink :=
  let (outcome, device) := l.device.receive l.settings.readTimeout
  (outcome.map Received.ofReassembly, { l with device := device })

/-- Switches the line off. -/
def close (l : HidLink) : Except Failure Unit × HidLink :=
  let (outcome, device) := Bridge.enable false l.device
  (outcome, { l with device := device })

/-- Adds to what the next reads of the device come to. -/
def feed (l : HidLink) (reads : List Report.Read) : HidLink :=
  { l with device := { l.device with reads := l.device.reads ++ reads } }

/-- What may be asked of a link. -/
inductive Request
  | openLink
  /-- Lets reports arrive at the device. -/
  | feed (reads : List Report.Read)
  | send (payload : Bytes)
  | receive
  | close

/-- What comes of a request. -/
inductive Reply
  | done (outcome : Except Failure Unit)
  | received (outcome : Except Failure Received)
  /-- The link has to be open for this. -/
  | notOpen

/-- The outcome of a request, and what reached the device meanwhile. -/
structure Effect where
  reply : Reply
  written : List Bytes
  features : List Bytes
  /-- How many reads were made. -/
  reads : Nat

/-- The outcome of a request and the link after it, whatever that did to the device. -/
def answer (l : HidLink) : Request → Reply × HidLink
  | .openLink =>
    let (outcome, after) := l.openLink
    (.done outcome, after)
  | .feed reads => (.done (.ok ()), l.feed reads)
  | request =>
    if !l.opened then (.notOpen, l)
    else
      match request with
      | .send payload =>
        let (outcome, after) := l.send payload
        (.done outcome, after)
      | .receive =>
        let (outcome, after) := l.receive
        (.received outcome, after)
      | _ =>
        let (outcome, after) := l.close
        (.done outcome, after)

/-- Carries out a request. Only opening and feeding can be asked of a link that is not open. -/
def perform (l : HidLink) (request : Request) : Effect × HidLink :=
  let (reply, after) := l.answer request
  ({ reply
     written := after.device.written.drop l.device.written.length
     features := after.device.features.drop l.device.features.length
     reads := after.device.waits.length - l.device.waits.length }, after)

end HidLink

end HardwareSigner
