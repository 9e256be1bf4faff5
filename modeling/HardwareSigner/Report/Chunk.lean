import HardwareSigner.Bytes

/-!
# Cutting a payload into reports

A report has 64 bytes. The first says how many of the 63 behind it are valid; the rest is zero. All
the reports of a payload are full but for the last, which holds at least one byte; an empty payload
has no reports at all.
-/

namespace HardwareSigner.Report

/-- The size of a report. -/
def size : Nat := 64

/-- How many bytes of a payload fit into a report. -/
def capacity : Nat := size - 1

/-- The report that carries `piece`. -/
def ofPiece (piece : Bytes) : Bytes :=
  UInt8.ofNat piece.length :: piece ++ List.replicate (capacity - piece.length) 0

/-- A payload in pieces that each fit into a report, all full but for the last. -/
def pieces (payload : Bytes) : List Bytes :=
  if payload.isEmpty then []
  else payload.take capacity :: pieces (payload.drop capacity)
termination_by payload.length
decreasing_by
  have : payload.length ≠ 0 := by simp_all
  simp only [List.length_drop, capacity, size]
  omega

/-- The reports for a payload, in order. -/
def chunk (payload : Bytes) : List Bytes := (pieces payload).map ofPiece

end HardwareSigner.Report
