import HardwareSigner.Device.Basic

/-!
# The bridge to the serial line

Behind its reports a device has a serial line with a transmit and a receive queue. The bridge to it
is driven by feature reports whose first byte is the command: `40` resets it, `41` switches the line
on or off, `43` empties queues, and `42` is the status.
-/

namespace HardwareSigner.Bridge

/-- Which queues to empty. -/
inductive Purge
  | transmit | receive | both
  deriving DecidableEq, Repr

def Purge.code : Purge → UInt8
  | .transmit => 1
  | .receive => 2
  | .both => 3

/-- An error of the line that the bridge remembers until the status is read. -/
inductive LineError
  | none | parity | overrun
  | other (code : UInt8)
  deriving DecidableEq, Repr

namespace LineError

def ofCode (code : UInt8) : LineError :=
  if code = 0 then .none
  else if code = 1 then .parity
  else if code = 2 then .overrun
  else .other code

def label : LineError → String
  | .none => "None"
  | .parity => "Parity"
  | .overrun => "Overrun"
  | .other code => s!"Other({code})"

end LineError

/-- The state of the line. -/
structure Status where
  /-- Bytes waiting to be sent. -/
  transmitQueue : UInt16
  /-- Bytes waiting to be read. -/
  receiveQueue : UInt16
  error : LineError
  /-- The line is held down by the other side. -/
  lineBreak : Bool
  deriving DecidableEq, Repr

def statusCommand : UInt8 := 0x42

/-- The size of a status report. -/
def statusSize : Nat := 10

/-- Reads a status report, of which seven bytes are looked at. -/
def Status.parse (report : Bytes) : Except Failure Status :=
  match report with
  | id :: t₁ :: t₀ :: r₁ :: r₀ :: error :: lineBreak :: _ =>
    if id = statusCommand then
      .ok {
        transmitQueue := UInt16.ofNat (BigEndian.decode [t₁, t₀])
        receiveQueue := UInt16.ofNat (BigEndian.decode [r₁, r₀])
        error := .ofCode error
        lineBreak := lineBreak != 0 }
    else .error (.hid ("unexpected status report id 0x" ++ Hex.padded 2 id.toNat))
  | _ => .error (.hid s!"status report too short: {report.length} bytes")

/-- Resets the bridge. -/
def reset (d : Device) : Except Failure Unit × Device := d.sendFeature [0x40, 0x00]

/-- Switches the line on or off. -/
def enable (on : Bool) (d : Device) : Except Failure Unit × Device :=
  d.sendFeature [0x41, if on then 0x01 else 0x00]

/-- Empties queues. -/
def purge (which : Purge) (d : Device) : Except Failure Unit × Device :=
  d.sendFeature [0x43, which.code]

/-- Asks for the status. Of what the device returns no more counts than it says it has read. -/
def status (d : Device) : Except Failure Status × Device :=
  match d.readFeature (statusCommand :: List.replicate (statusSize - 1) 0) with
  | (.error failure, after) => (.error failure, after)
  | (.ok (buffer, count), after) => (Status.parse (buffer.take count), after)

end HardwareSigner.Bridge
