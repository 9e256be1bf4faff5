import HardwareSigner.Proofs.Frame.Blocks

/-!
# How bytes divide into frames

Any bytes are the blocks of some frames and a rest that begins with no block (`Divides`). If the
rest is empty the bytes end between two frames; otherwise there is the beginning of one, or a whole
header that announces more than is allowed (`TooLong`). This says what a stream holds without a
buffer that finds it.

> `takeFrames_of_divides`: a fresh buffer finds exactly these frames, and it refuses a header
> exactly if the rest is too long.

So bytes divide in one way only, and a buffer may be asked how.
-/

namespace HardwareSigner

namespace Frame

/-- The bytes are the blocks of the frames and a rest that begins with no block. -/
structure Divides (limit : UInt32) (bytes : Bytes) (frames : List Frame) (rest : Bytes) : Prop where
  blocks : ∃ written, bytes = written ++ rest ∧ Blocks limit frames written
  last : ∀ f block more, Block limit f block → rest ≠ block ++ more

/-- The bytes begin with a whole header that announces more than is allowed. -/
def TooLong (limit : UInt32) (bytes : Bytes) : Prop :=
  ∃ (h : Header) (header more : Bytes), bytes = header ++ more ∧ h.Block header ∧ limit < h.length

end Frame

theorem Header.length_block {h : Header} {header : Bytes} (spelt : h.Block header) :
    header.length = size := by
  obtain ⟨first, second, rfl⟩ := spelt
  simp [size]

/-- A header is read from its bytes, whatever the marker is. -/
theorem Header.decode?_block {h : Header} {header : Bytes} (spelt : h.Block header) (more : Bytes) :
    decode? (header ++ more) = some h := by
  have long := length_block spelt
  obtain ⟨first, second, rfl⟩ := spelt
  have code : BigEndian.decode (BigEndian.encode 2 h.code.toNat) = h.code.toNat :=
    BigEndian.decode_encode_of_lt h.code.toNat_lt
  have length : BigEndian.decode (BigEndian.encode 4 h.length.toNat) = h.length.toNat :=
    BigEndian.decode_encode_of_lt h.length.toNat_lt
  rw [decode?, if_neg (by rw [List.length_append, long]; omega)]
  simp [List.drop_append, code, length]

namespace FrameBuffer

open HardwareSigner.Frame (Block Blocks Divides TooLong)

/-- A block at the front of a fresh buffer is the first frame found. -/
theorem next_of_block {limit : UInt32} {f : Frame} {block : Bytes} (first : f.Block limit block)
    (more : Bytes) :
    ((empty limit).extend (block ++ more)).next = .frame f ((empty limit).extend more) := by
  obtain ⟨counted, allowed, header, spelt, rfl⟩ := first
  have enough : ¬(f.payload ++ more).length < f.header.length.toNat := by
    rw [List.length_append]
    omega
  rw [List.append_assoc, next_of_allowed rfl (Header.decode?_block spelt _)
    (Header.check_of_le allowed)]
  show FrameBuffer.takePayload ⟨limit, none, List.drop Header.size (header ++ _)⟩ f.header = _
  rw [List.drop_left' (Header.length_block spelt), takePayload, if_neg enough,
    List.take_left' counted, List.drop_left' counted]
  rfl

/-- Blocks at the front of a fresh buffer are the first frames found. -/
theorem takeFrames_of_blocks {limit : UInt32} {frames : List Frame} {written : Bytes}
    (blocks : Blocks limit frames written) (more : Bytes) :
    ((empty limit).extend (written ++ more)).takeFrames =
      { ((empty limit).extend more).takeFrames with
        frames := frames ++ ((empty limit).extend more).takeFrames.frames } := by
  induction blocks with
  | nil => rfl
  | cons first others ih =>
    rw [List.append_assoc, takeFrames_of_frame (next_of_block first _), ih]
    rfl

/-- A header is refused at the front of a fresh buffer exactly if the bytes are too long. -/
theorem refused_iff_tooLong {limit : UInt32} {bytes : Bytes} :
    (∃ failure, ((empty limit).extend bytes).next = .refused failure) ↔ TooLong limit bytes := by
  constructor
  · rintro ⟨failure, refused⟩
    rcases ((empty limit).extend bytes).next_cases with ⟨h, there, -⟩ | ⟨-, -, same⟩ |
      ⟨h, found, -, read, kept, -⟩ | ⟨h, -, -, -, same⟩
    · cases there
    · exact Front.noConfusion (same.symm.trans refused)
    · refine ⟨h, bytes.take Header.size, bytes.drop Header.size,
        (List.take_append_drop _ _).symm, Header.block_of_decode? read,
        Classical.byContradiction fun least => ?_⟩
      have allowed : h.check limit = .ok () := Header.check_of_le (UInt32.not_lt.mp least)
      cases kept.symm.trans allowed
    · exact absurd (same.symm.trans refused) (takePayload_ne_refused _ h failure)
  · rintro ⟨h, header, more, rfl, spelt, above⟩
    exact ⟨_, next_of_refused rfl (Header.decode?_block spelt more) (if_pos above)⟩

/-- What is found in bytes that begin with no block: a header that is refused, or nothing. -/
theorem takeFrames_of_last {limit : UInt32} {rest : Bytes}
    (last : ∀ f block more, Block limit f block → rest ≠ block ++ more) :
    ((empty limit).extend rest).takeFrames.frames = [] ∧
      (((empty limit).extend rest).takeFrames.failure? ≠ none ↔ TooLong limit rest) ∧
      (((empty limit).extend rest).takeFrames.failure? = none →
        ((empty limit).extend rest).takeFrames.rest.Holds rest) := by
  have holds : ((empty limit).extend rest).Holds rest := .whole rfl
  rw [← refused_iff_tooLong]
  cases front : ((empty limit).extend rest).next with
  | frame f behind =>
    obtain ⟨block, left, same, first, -⟩ := holds_of_frame holds front
    exact absurd same (last f block left first)
  | incomplete behind =>
    rw [takeFrames_of_incomplete front]
    refine ⟨rfl, ⟨fun refused => absurd rfl refused, ?_⟩,
      fun _ => (holds_of_incomplete holds front).1⟩
    rintro ⟨failure, same⟩
    exact Front.noConfusion same
  | refused failure =>
    rw [takeFrames_of_refused front]
    exact ⟨rfl, ⟨fun _ => ⟨failure, rfl⟩, fun _ => Option.some_ne_none failure⟩,
      fun accepted => absurd accepted (Option.some_ne_none failure)⟩

section

variable {limit : UInt32} {bytes rest : Bytes} {frames : List Frame}

/-- A fresh buffer finds the frames into which bytes divide. It refuses a header exactly if the rest
is too long, and otherwise holds the rest. -/
theorem takeFrames_of_divides (divides : Divides limit bytes frames rest) :
    ((empty limit).extend bytes).takeFrames.frames = frames ∧
      (((empty limit).extend bytes).takeFrames.failure? ≠ none ↔ TooLong limit rest) ∧
      (((empty limit).extend bytes).takeFrames.failure? = none →
        ((empty limit).extend bytes).takeFrames.rest.Holds rest) := by
  obtain ⟨⟨written, rfl, blocks⟩, last⟩ := divides
  obtain ⟨none, refused, holds⟩ := takeFrames_of_last last
  rw [takeFrames_of_blocks blocks, none, List.append_nil]
  exact ⟨rfl, refused, holds⟩

/-- The end of the stream is in order exactly if the buffer stands for no bytes. -/
theorem finish_of_holds {b : FrameBuffer} (holds : b.Holds rest) :
    b.finish.1 = .ok () ↔ rest = [] := by
  cases holds with
  | whole missing =>
    simp only [finish, missing]
    cases b.pending <;> simp
  | headed there spelt _ =>
    simp only [finish, there]
    refine ⟨(fun ends => by cases ends), fun none => ?_⟩
    have long := Header.length_block spelt
    rw [(List.append_eq_nil_iff.mp none).1] at long
    cases long

/-- A buffer that stands for no bytes is a fresh one. -/
theorem clear_of_holds {b : FrameBuffer} (holds : b.Holds []) : b.clear = b := by
  generalize none : ([] : Bytes) = bytes at holds
  cases holds with
  | whole missing =>
    obtain ⟨limit, header?, pending⟩ := b
    cases missing
    cases none
    rfl
  | headed there spelt _ =>
    have long := Header.length_block spelt
    rw [(List.append_eq_nil_iff.mp none.symm).1] at long
    cases long

end

end FrameBuffer

namespace Frame
theorem Block.length_pos {limit : UInt32} {f : Frame} {block : Bytes}
    (first : f.Block limit block) : 0 < block.length := by
  obtain ⟨-, -, header, spelt, rfl⟩ := first
  rw [List.length_append, Header.length_block spelt]
  exact Nat.lt_of_lt_of_le (by decide : 0 < Header.size) (Nat.le_add_right _ _)

/-- All bytes divide into frames. -/
theorem exists_divides (limit : UInt32) (bytes : Bytes) :
    ∃ frames rest, Divides limit bytes frames rest := by
  by_cases begins : ∃ f block more, Block limit f block ∧ bytes = block ++ more
  · obtain ⟨f, block, more, first, same⟩ := begins
    have shorter : more.length < bytes.length := by
      rw [same, List.length_append]
      exact Nat.lt_add_of_pos_left first.length_pos
    obtain ⟨frames, rest, ⟨written, rfl, blocks⟩, last⟩ := exists_divides limit more
    refine ⟨f :: frames, rest, ⟨block ++ written, ?_, .cons first blocks⟩, last⟩
    rw [same, List.append_assoc]
  · exact ⟨[], bytes, ⟨[], rfl, .nil⟩, fun f block more first same =>
      begins ⟨f, block, more, first, same⟩⟩
termination_by bytes.length

/-- Bytes divide into frames in one way. -/
theorem Divides.unique {limit : UInt32} {bytes rest rest' : Bytes} {frames frames' : List Frame}
    (first : Divides limit bytes frames rest) (second : Divides limit bytes frames' rest') :
    frames = frames' :=
  (FrameBuffer.takeFrames_of_divides first).1.symm.trans
    (FrameBuffer.takeFrames_of_divides second).1

end Frame

end HardwareSigner
