import HardwareSigner.Report.Reassembly

/-!
# What a link receives

Reading from a link gives bytes, cut anywhere, or the news that nothing came in time, or that the
other side has closed the stream.
-/

namespace HardwareSigner

/-- The outcome of one read from a link. -/
inductive Received
  | data (bytes : Bytes)
  /-- Nothing came in time. -/
  | idle
  | endOfStream
  deriving DecidableEq, Repr

namespace Received

/-- The bytes that came, if any; the end of the stream is a failure. -/
def bytes? : Received → Except Failure (Option Bytes)
  | .data bytes => .ok (some bytes)
  | .idle => .ok none
  | .endOfStream => .error .endOfStream

/-- A device has no end of stream. -/
def ofReassembly : Report.Reassembly → Received
  | .complete payload => .data payload
  | .idle => .idle

end Received

end HardwareSigner
