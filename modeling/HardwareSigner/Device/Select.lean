import HardwareSigner.Settings.Basic

/-!
# Finding and opening a device

A `Bus` lists the attached devices and opens them. The device to open is the first in its list that
has the configured identifiers.
-/

namespace HardwareSigner

/-- An attached device as it is listed. -/
structure Descriptor where
  path : String
  vendor : UInt16
  product : UInt16
  serial? : Option String := none
  manufacturer? : Option String := none
  productName? : Option String := none
  deriving DecidableEq

namespace Descriptor

/-- Whether the device has the configured identifiers and, if one is configured, the exact serial
number. -/
def fits (d : Descriptor) (s : HidSettings) : Bool :=
  d.vendor == s.vendor && d.product == s.product &&
    match s.serial? with
    | none => true
    | some serial => d.serial? == some serial

/-- The first device that will do. -/
def select? (devices : List Descriptor) (s : HidSettings) : Option Descriptor :=
  devices.find? (·.fits s)

end Descriptor

/-- What is attached, and how listing and opening fare. -/
structure Bus where
  devices : List Descriptor := []
  listError? : Option String := none
  openError? : Option String := none
  /-- The paths that were asked to be opened. -/
  opened : List String := []

namespace Bus

/-- Every attached device. -/
def list (b : Bus) : Except Failure (List Descriptor) :=
  match b.listError? with
  | some text => .error (.hid text)
  | none => .ok b.devices

/-- Opens one device. -/
def openPath (b : Bus) (d : Descriptor) : Except Failure Unit × Bus :=
  (match b.openError? with
    | some text => .error (.hid text)
    | none => .ok (), { b with opened := b.opened ++ [d.path] })

/-- Finds the configured device and opens it. -/
def openConfigured (b : Bus) (s : HidSettings) : Except Failure Descriptor × Bus :=
  match b.list with
  | .error failure => (.error failure, b)
  | .ok devices =>
    match Descriptor.select? devices s with
    | none => (.error (.deviceNotFound s.vendor s.product s.serial?), b)
    | some descriptor =>
      match b.openPath descriptor with
      | (.error failure, after) => (.error failure, after)
      | (.ok (), after) => (.ok descriptor, after)

end Bus

end HardwareSigner
