import HardwareSigner.Failure
import HardwareSigner.Report.Chunk

/-!
# Joining reports

Nothing marks the last report of a message. Reports are read until a read times out with nothing;
their valid bytes are joined. If the first read times out there is nothing to join: the link is
idle. A report that claims more than 63 valid bytes, or an error of the device, ends the message
without a payload, and the next one starts with the next report.
-/

namespace HardwareSigner.Report

/-- What a read of one report comes to. -/
inductive Read
  /-- Bytes of a report, or none if the time ran out. -/
  | arrived (data : Bytes)
  | failed (text : String)
  deriving DecidableEq, Repr

/-- A message that arrived, or the finding that there is none. -/
inductive Reassembly
  | complete (payload : Bytes)
  | idle
  deriving DecidableEq, Repr

/-- How many of the bytes behind the first are valid. -/
def claimed (report : Bytes) : UInt8 := report.headD 0

/-- As many bytes behind the first as the report claims; what has not arrived is zero. -/
def valid (report : Bytes) : Bytes :=
  (report.drop 1 ++ List.replicate capacity 0).take (claimed report).toNat

/-- What came of joining, the reads that are left, and how many were made. -/
structure Joined where
  outcome : Except Failure Reassembly
  rest : List Read
  count : Nat

/-- Reads and joins, given what has been joined so far (`none` before the first report). A read
delivers at most one report; when the script of reads is used up they time out. -/
def joinFrom (sofar : Option Bytes) : List Read → Joined
  | [] => ⟨.ok (match sofar with | none => .idle | some payload => .complete payload), [], 1⟩
  | .failed text :: rest => ⟨.error (.hid text), rest, 1⟩
  | .arrived data :: rest =>
    let report := data.take size
    if report.isEmpty then
      ⟨.ok (match sofar with | none => .idle | some payload => .complete payload), rest, 1⟩
    else if capacity < (claimed report).toNat then
      ⟨.error (.reportTooLong (claimed report)), rest, 1⟩
    else
      let joined := joinFrom (some (sofar.getD [] ++ valid report)) rest
      { joined with count := joined.count + 1 }

/-- The next message of a script of reads. -/
def reassemble (reads : List Read) : Joined := joinFrom none reads

end HardwareSigner.Report
