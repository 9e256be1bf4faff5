import HardwareSigner.Report.Reassembly

/-!
# Attached devices

A `Device` moves reports of 64 bytes and short feature reports. What it answers is laid down
beforehand, call by call: the outcomes of the next reads, writes and feature calls. What is done to
it is kept: the reports and feature reports sent, and how long each read was willing to wait.
-/

namespace HardwareSigner

structure Device where
  /-- What the next reads come to; after the last of them reads time out. -/
  reads : List Report.Read := []
  /-- What the next writes come to: an error, or a number of bytes. After the last of them writes
  take all 64 bytes. -/
  writes : List (Except String Nat) := []
  /-- The errors of the next feature reports sent; `none` for success, also after the last. -/
  featureSends : List (Option String) := []
  /-- What the next feature reports read come to: an error, or some data and the number of bytes
  that are said to have been read. After the last of them nothing is read. -/
  featureReads : List (Except String (Bytes × Nat)) := []
  /-- The reports written so far. -/
  written : List Bytes := []
  /-- The feature reports sent so far. -/
  features : List Bytes := []
  /-- For each read so far, how long it was willing to wait. -/
  waits : List Duration := []

namespace Device

/-- Writes one report. It counts as written even if the device then reports an error. -/
def write (d : Device) (report : Bytes) : Except Failure Nat × Device :=
  let outcome : Except Failure Nat :=
    match d.writes with
    | [] => .ok Report.size
    | .ok count :: _ => .ok count
    | .error text :: _ => .error (.hid text)
  (outcome, { d with writes := d.writes.tail, written := d.written ++ [report] })

/-- Sends one feature report. It counts as sent even if the device then reports an error. -/
def sendFeature (d : Device) (report : Bytes) : Except Failure Unit × Device :=
  let outcome : Except Failure Unit :=
    match d.featureSends with
    | some text :: _ => .error (.hid text)
    | _ => .ok ()
  (outcome, { d with featureSends := d.featureSends.tail, features := d.features ++ [report] })

/-- Reads a feature report into `buffer`: gives the buffer and the number of bytes that are said to
have been read. -/
def readFeature (d : Device) (buffer : Bytes) : Except Failure (Bytes × Nat) × Device :=
  let outcome : Except Failure (Bytes × Nat) :=
    match d.featureReads with
    | [] => .ok (buffer, 0)
    | .error text :: _ => .error (.hid text)
    | .ok (data, count) :: _ =>
      .ok (data.take buffer.length ++ buffer.drop data.length, count)
  (outcome, { d with featureReads := d.featureReads.tail })

/-- Reads and joins the reports of one message, each read waiting at most `timeout`. -/
def receive (d : Device) (timeout : Duration) : Except Failure Report.Reassembly × Device :=
  let joined := Report.reassemble d.reads
  (joined.outcome,
    { d with reads := joined.rest, waits := d.waits ++ List.replicate joined.count timeout })

/-- Writes reports one by one until one of them is not taken in full. -/
def writeAll (d : Device) : List Bytes → Except Failure Unit × Device
  | [] => (.ok (), d)
  | report :: reports =>
    match d.write report with
    | (.error failure, after) => (.error failure, after)
    | (.ok count, after) =>
      if count = Report.size then after.writeAll reports
      else (.error (.io (.reported
        s!"Unable to send report to device. Expected: {Report.size} Actual: {count}")), after)

/-- Sends a payload in reports. -/
def send (d : Device) (payload : Bytes) : Except Failure Unit × Device :=
  d.writeAll (Report.chunk payload)

end Device

end HardwareSigner
