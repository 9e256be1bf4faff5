import HardwareSigner.Frame.Basic

/-!
# Frames read directly from a source of bytes

A `Source` hands out a run of bytes, at each read no more than it feels like. `Source.fill` reads
until it has what it wants or the source ends; `Frame.read` fills a header and then its payload.
The end of the source is in order only where a frame would begin.
-/

namespace HardwareSigner

/-- Bytes to be read, and the way they are handed out. -/
structure Source where
  rest : Bytes
  /-- How many bytes the read with this number may return at most. -/
  allowance : Nat → Nat
  /-- How many reads there have been. -/
  reads : Nat
  /-- When the bytes are used up, one read fails with this text before the source ends. -/
  fault? : Option String

namespace Source

/-- One read of at most `want` bytes. No bytes means that the source has ended. -/
def read (s : Source) (want : Nat) : Except Failure Bytes × Source :=
  let after := { s with reads := s.reads + 1 }
  if s.rest.isEmpty then
    match s.fault? with
    | some text => (.error (.io (.reported text)), { after with fault? := none })
    | none => (.ok [], after)
  else
    let count := min want (s.allowance s.reads)
    (.ok (s.rest.take count), { after with rest := s.rest.drop count })

theorem length_le_of_read {s after : Source} {want : Nat} {bytes : Bytes}
    (h : s.read want = (.ok bytes, after)) : bytes.length ≤ want := by
  unfold read at h
  simp only at h
  split at h
  · split at h
    · cases h
    · cases h; exact Nat.zero_le _
  · cases h
    rw [List.length_take]
    omega

/-- Reads until there are `want` bytes, or fewer if the source ends first. -/
def fill (s : Source) (want : Nat) : Except Failure Bytes × Source :=
  if want = 0 then (.ok [], s)
  else
    match s.read want with
    | (.error failure, after) => (.error failure, after)
    | (.ok [], after) => (.ok [], after)
    | (.ok (b :: bytes), after) =>
      match after.fill (want - (bytes.length + 1)) with
      | (.error failure, last) => (.error failure, last)
      | (.ok more, last) => (.ok (b :: bytes ++ more), last)
termination_by want
decreasing_by omega

end Source

/-- The next frame of the source, `none` at a clean end. -/
def Frame.read (s : Source) (limit : UInt32) : Except Failure (Option Frame) × Source :=
  match s.fill Header.size with
  | (.error failure, after) => (.error failure, after)
  | (.ok [], after) => (.ok none, after)
  | (.ok bytes, after) =>
    match Header.decode? bytes with
    | none => (.error (.decode (.shortRead Header.size bytes.length)), after)
    | some header =>
      match header.check limit with
      | .error failure => (.error (.decode failure), after)
      | .ok () =>
        match after.fill header.length.toNat with
        | (.error failure, last) => (.error failure, last)
        | (.ok payload, last) =>
          if payload.length < header.length.toNat then
            (.error (.decode (.shortRead header.length.toNat payload.length)), last)
          else (.ok (some ⟨header, payload⟩), last)

end HardwareSigner
