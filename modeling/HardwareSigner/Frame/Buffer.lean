import HardwareSigner.Frame.Basic

/-!
# Frames out of a stream that arrives in pieces

A link hands over bytes in whatever pieces it likes. A `FrameBuffer` keeps the bytes that do not
make up a frame yet, and remembers the header once it has been read, so that pieces may be cut
anywhere.

`FrameBuffer.next` takes one frame off the front; `push` adds a piece and takes off all it can. A
header that announces too long a payload is refused before it is taken off: it stays at the front,
and every later push refuses it again until the buffer is cleared.
-/

namespace HardwareSigner

/-- Bytes received so far that are not part of a finished frame. -/
structure FrameBuffer where
  /-- The largest payload length that is accepted. -/
  limit : UInt32
  /-- The header that has been taken off the front and whose payload is awaited. -/
  header? : Option Header
  /-- The bytes behind it. -/
  pending : Bytes
  deriving DecidableEq, Repr

namespace FrameBuffer

/-- A buffer with nothing in it. -/
def empty (limit : UInt32) : FrameBuffer := ⟨limit, none, []⟩

/-- What the front of a buffer holds. -/
inductive Front
  /-- A whole frame, and the buffer behind it. -/
  | frame (f : Frame) (rest : FrameBuffer)
  /-- The beginning of a frame. -/
  | incomplete (rest : FrameBuffer)
  /-- A header that may not be. -/
  | refused (failure : DecodeFailure)

/-- The payload that `h` announces, if it has arrived. -/
def takePayload (b : FrameBuffer) (h : Header) : Front :=
  if b.pending.length < h.length.toNat then .incomplete { b with header? := some h }
  else .frame ⟨h, b.pending.take h.length.toNat⟩
    { b with header? := none, pending := b.pending.drop h.length.toNat }

/-- One step at the front: a header is taken off only if all of it is there and its length is
allowed, a payload only if all of it is there. -/
def next (b : FrameBuffer) : Front :=
  match b.header? with
  | some h => b.takePayload h
  | none =>
    match Header.decode? b.pending with
    | none => .incomplete b
    | some h =>
      match h.check b.limit with
      | .error failure => .refused failure
      | .ok () => { b with pending := b.pending.drop Header.size }.takePayload h

/-- What bounds the number of frames in a buffer. -/
def weight (b : FrameBuffer) : Nat := 2 * b.pending.length + if b.header?.isSome then 1 else 0

theorem weight_le_of_takePayload {b : FrameBuffer} {h : Header} {f : Frame} {rest : FrameBuffer}
    (taken : b.takePayload h = .frame f rest) : rest.weight ≤ 2 * b.pending.length := by
  unfold takePayload at taken
  split at taken
  · cases taken
  · cases taken
    simp only [weight, List.length_drop, Option.isSome_none]
    exact Nat.mul_le_mul_left 2 (Nat.sub_le _ _)

/-- Taking a frame off leaves less to do. -/
theorem weight_lt_of_next {b : FrameBuffer} {f : Frame} {rest : FrameBuffer}
    (taken : b.next = .frame f rest) : rest.weight < b.weight := by
  unfold next at taken
  split at taken
  · next h held =>
    have bound := weight_le_of_takePayload taken
    have one : b.weight = 2 * b.pending.length + 1 := by simp [weight, held]
    omega
  · split at taken
    · cases taken
    · next h read =>
      split at taken
      · cases taken
      · have bound := weight_le_of_takePayload taken
        have long : ¬b.pending.length < Header.size := by
          rw [← Header.decode?_eq_none_iff, read]; simp
        simp only [List.length_drop, Header.size] at bound long
        have least : 2 * b.pending.length ≤ b.weight := Nat.le_add_right _ _
        omega

/-- What came off the front of a buffer until nothing more could. -/
structure Yield where
  frames : List Frame
  /-- Why it ended, unless for lack of bytes. -/
  failure? : Option DecodeFailure
  rest : FrameBuffer

/-- All the frames at the front. -/
def takeFrames (b : FrameBuffer) : Yield :=
  match _taken : b.next with
  | .incomplete rest => ⟨[], none, rest⟩
  | .refused failure => ⟨[], some failure, b⟩
  | .frame f rest =>
    let yield := rest.takeFrames
    { yield with frames := f :: yield.frames }
termination_by b.weight
decreasing_by exact weight_lt_of_next _taken

/-- Adds a piece and takes off every finished frame. If a header is refused, the frames found in
front of it are lost with the answer; the buffer keeps the header and all behind it. -/
def push (b : FrameBuffer) (piece : Bytes) : Except DecodeFailure (List Frame) × FrameBuffer :=
  let yield := { b with pending := b.pending ++ piece }.takeFrames
  match yield.failure? with
  | some failure => (.error failure, yield.rest)
  | none => (.ok yield.frames, yield.rest)

/-- Forgets everything received. -/
def clear (b : FrameBuffer) : FrameBuffer := empty b.limit

/-- The stream has ended: that is in order only between two frames. The buffer starts afresh. -/
def finish (b : FrameBuffer) : Except DecodeFailure Unit × FrameBuffer :=
  let outcome : Except DecodeFailure Unit :=
    match b.header? with
    | some h => .error (.shortRead h.length.toNat b.pending.length)
    | none =>
      if b.pending.isEmpty then .ok () else .error (.shortRead Header.size b.pending.length)
  (outcome, b.clear)

/-- How many bytes wait. A header that has been taken off does not count. -/
def size (b : FrameBuffer) : Nat := b.pending.length

def isEmpty (b : FrameBuffer) : Bool := b.pending.isEmpty

end FrameBuffer

end HardwareSigner
