import HardwareSigner.Frame.Buffer

/-!
# Frames do not depend on the pieces they arrive in

A buffer takes frames off its front one by one (`FrameBuffer.next`). This file shows that bytes
which arrive later do not disturb what has been taken off before: a frame that was complete stays
the same frame, a refused header stays refused, and the beginning of a frame goes on as if it had
arrived together with the rest (`next_extend_of_incomplete`). Taking frames off after each piece
therefore comes to the same as joining the pieces first:

> `takeFrames_extend_of_accepted`: what a longer buffer yields is what the shorter one yields,
> followed by what its rest yields together with the new bytes.

That is a statement about bytes because no byte gets lost: `held` counts the bytes in a buffer with
the header that was taken off.

> `held_takeFrames`: the bytes of the frames taken off and those still held are all there were.

`pushAll` pushes a list of pieces. If nothing in the joined bytes is refused, every push succeeds
and together they find the frames of the joined bytes (`pushAll_of_accepted`). Otherwise one piece
completes the refused header; all pushes before it succeed and it fails (`pushAll_of_refused`).
-/

namespace HardwareSigner

/-! ## Headers at the front of longer and longer bytes -/

/-- A stretch that lies within some bytes stays what it is when more bytes follow. -/
theorem take_drop_append_of_le {start width : Nat} {bytes : Bytes}
    (within : start + width ≤ bytes.length) (more : Bytes) :
    ((bytes ++ more).drop start).take width = (bytes.drop start).take width := by
  rw [List.drop_append_of_le_length (by omega), List.take_append_of_le_length]
  rw [List.length_drop]
  omega

namespace Header

theorem size_le_of_decode? {bytes : Bytes} {h : Header} (read : decode? bytes = some h) :
    size ≤ bytes.length := by
  rw [← Nat.not_lt, ← decode?_eq_none_iff, read]
  exact Option.some_ne_none h

theorem decode?_append {bytes : Bytes} {h : Header} (read : decode? bytes = some h)
    (more : Bytes) : decode? (bytes ++ more) = some h := by
  have enough : 8 ≤ bytes.length := size_le_of_decode? read
  have long : ¬bytes.length < size := Nat.not_lt.mpr enough
  rw [← read, decode?, decode?, if_neg long, if_neg (by rw [List.length_append]; omega),
    take_drop_append_of_le (by omega), take_drop_append_of_le (by omega)]

end Header

namespace FrameBuffer

/-- The buffer with a piece added and nothing taken off. -/
def extend (b : FrameBuffer) (piece : Bytes) : FrameBuffer :=
  { b with pending := b.pending ++ piece }

@[simp] theorem pending_extend (b : FrameBuffer) (piece : Bytes) :
    (b.extend piece).pending = b.pending ++ piece := rfl

@[simp] theorem extend_nil (b : FrameBuffer) : b.extend [] = b := by
  simp [extend]

theorem extend_append (b : FrameBuffer) (first second : Bytes) :
    b.extend (first ++ second) = (b.extend first).extend second := by
  simp [extend, List.append_assoc]

/-! ## One step at the front

What a step does depends on whether a header has been taken off, is complete and is allowed
(`next_cases`), and on whether its payload is complete (`takePayload_cases`). -/

theorem takePayload_cases (b : FrameBuffer) (h : Header) :
    (b.pending.length < h.length.toNat ∧
      b.takePayload h = .incomplete { b with header? := some h }) ∨
    (h.length.toNat ≤ b.pending.length ∧
      b.takePayload h = .frame ⟨h, b.pending.take h.length.toNat⟩
        { b with header? := none, pending := b.pending.drop h.length.toNat }) := by
  unfold takePayload
  split
  next short => exact Or.inl ⟨short, rfl⟩
  next long => exact Or.inr ⟨Nat.not_lt.mp long, rfl⟩

theorem next_cases (b : FrameBuffer) :
    (∃ h, b.header? = some h ∧ b.next = b.takePayload h) ∨
    (b.header? = none ∧ Header.decode? b.pending = none ∧ b.next = .incomplete b) ∨
    (∃ h failure, b.header? = none ∧ Header.decode? b.pending = some h ∧
      h.check b.limit = .error failure ∧ b.next = .refused failure) ∨
    (∃ h, b.header? = none ∧ Header.decode? b.pending = some h ∧ h.check b.limit = .ok () ∧
      b.next = { b with pending := b.pending.drop Header.size }.takePayload h) := by
  unfold next
  split
  next h held => exact Or.inl ⟨h, held, rfl⟩
  next missing =>
    split
    next short => exact Or.inr (Or.inl ⟨missing, short, rfl⟩)
    next h read =>
      split
      next failure kept => exact Or.inr (Or.inr (Or.inl ⟨h, failure, missing, read, kept, rfl⟩))
      next allowed => exact Or.inr (Or.inr (Or.inr ⟨h, missing, read, allowed, rfl⟩))

theorem next_of_header {b : FrameBuffer} {h : Header} (held : b.header? = some h) :
    b.next = b.takePayload h := by
  rw [next, held]

theorem next_of_refused {b : FrameBuffer} {h : Header} {failure : DecodeFailure}
    (missing : b.header? = none) (read : Header.decode? b.pending = some h)
    (kept : h.check b.limit = .error failure) : b.next = .refused failure := by
  simp only [next, missing, read, kept]

theorem next_of_allowed {b : FrameBuffer} {h : Header} (missing : b.header? = none)
    (read : Header.decode? b.pending = some h) (allowed : h.check b.limit = .ok ()) :
    b.next = { b with pending := b.pending.drop Header.size }.takePayload h := by
  simp only [next, missing, read, allowed]

theorem takePayload_ne_refused (b : FrameBuffer) (h : Header) (failure : DecodeFailure) :
    b.takePayload h ≠ .refused failure := by
  rcases b.takePayload_cases h with ⟨-, same⟩ | ⟨-, same⟩ <;> rw [same] <;>
    exact Front.noConfusion

/-- Only a header that has not been taken off is refused. -/
theorem next_ne_refused {b : FrameBuffer} (held : b.header?.isSome) (failure : DecodeFailure) :
    b.next ≠ .refused failure := by
  obtain ⟨h, there⟩ := Option.isSome_iff_exists.mp held
  rw [next_of_header there]
  exact takePayload_ne_refused b h failure

theorem header_of_takePayload {b rest : FrameBuffer} {h : Header}
    (short : b.takePayload h = .incomplete rest) : rest = { b with header? := some h } := by
  rcases b.takePayload_cases h with ⟨-, same⟩ | ⟨-, same⟩ <;> rw [same] at short
  · exact (Front.incomplete.inj short).symm
  · exact Front.noConfusion short

/-- What the beginning of a frame becomes: it stays as it is, or its header is taken off. -/
theorem eq_or_header_of_incomplete {b rest : FrameBuffer} (short : b.next = .incomplete rest) :
    rest = b ∨ rest.header?.isSome := by
  rcases b.next_cases with ⟨h, held, same⟩ | ⟨-, -, same⟩ | ⟨h, failure, -, -, -, same⟩ |
    ⟨h, -, -, -, same⟩ <;> rw [same] at short
  · rw [header_of_takePayload short]
    exact Or.inr rfl
  · exact Or.inl (Front.incomplete.inj short).symm
  · exact Front.noConfusion short
  · rw [header_of_takePayload short]
    exact Or.inr rfl

/-! ## A step and the bytes that arrive after it -/

theorem takePayload_extend_of_frame {b rest : FrameBuffer} {h : Header} {f : Frame}
    (taken : b.takePayload h = .frame f rest) (piece : Bytes) :
    (b.extend piece).takePayload h = .frame f (rest.extend piece) := by
  rcases b.takePayload_cases h with ⟨-, same⟩ | ⟨enough, same⟩ <;> rw [same] at taken
  · exact Front.noConfusion taken
  · obtain ⟨rfl, rfl⟩ := Front.frame.inj taken
    rw [takePayload, if_neg (by rw [pending_extend, List.length_append]; omega), pending_extend,
      List.take_append_of_le_length enough, List.drop_append_of_le_length enough]
    rfl

theorem next_extend_of_allowed {b : FrameBuffer} {h : Header} (missing : b.header? = none)
    (read : Header.decode? b.pending = some h) (allowed : h.check b.limit = .ok ())
    (piece : Bytes) :
    (b.extend piece).next =
      ({ b with pending := b.pending.drop Header.size }.extend piece).takePayload h := by
  rw [next_of_allowed (b := b.extend piece) missing (Header.decode?_append read piece) allowed,
    pending_extend,
    List.drop_append_of_le_length (Header.size_le_of_decode? read)]
  rfl

theorem next_extend_of_frame {b rest : FrameBuffer} {f : Frame} (taken : b.next = .frame f rest)
    (piece : Bytes) : (b.extend piece).next = .frame f (rest.extend piece) := by
  rcases b.next_cases with ⟨h, held, same⟩ | ⟨-, -, same⟩ | ⟨h, failure, -, -, -, same⟩ |
    ⟨h, missing, read, allowed, same⟩ <;> rw [same] at taken
  · rw [next_of_header (b := b.extend piece) held]
    exact takePayload_extend_of_frame taken piece
  · exact Front.noConfusion taken
  · exact Front.noConfusion taken
  · rw [next_extend_of_allowed missing read allowed]
    exact takePayload_extend_of_frame taken piece

theorem next_extend_of_refused {b : FrameBuffer} {failure : DecodeFailure}
    (refused : b.next = .refused failure) (piece : Bytes) :
    (b.extend piece).next = .refused failure := by
  rcases b.next_cases with ⟨h, -, same⟩ | ⟨-, -, same⟩ | ⟨h, found, missing, read, kept, same⟩ |
    ⟨h, -, -, -, same⟩ <;> rw [same] at refused
  · exact absurd refused (takePayload_ne_refused _ h failure)
  · exact Front.noConfusion refused
  · obtain rfl := Front.refused.inj refused
    exact next_of_refused missing (Header.decode?_append read piece) kept
  · exact absurd refused (takePayload_ne_refused _ h failure)

/-- The beginning of a frame goes on as if it had arrived together with the new piece, whether its
header has been taken off meanwhile or not. -/
theorem next_extend_of_incomplete {b rest : FrameBuffer} (short : b.next = .incomplete rest)
    (piece : Bytes) : (b.extend piece).next = (rest.extend piece).next := by
  rcases b.next_cases with ⟨h, held, same⟩ | ⟨-, -, same⟩ | ⟨h, failure, -, -, -, same⟩ |
    ⟨h, missing, read, allowed, same⟩ <;> rw [same] at short
  · rw [header_of_takePayload short, ← held]
  · rw [Front.incomplete.inj short]
  · exact Front.noConfusion short
  · rw [header_of_takePayload short, next_extend_of_allowed missing read allowed]
    rfl

theorem next_of_incomplete {b rest : FrameBuffer} (short : b.next = .incomplete rest) :
    rest.next = .incomplete rest := by
  have same := next_extend_of_incomplete short []
  rw [extend_nil, extend_nil] at same
  rw [← same, short]

/-! ## All frames at the front -/

theorem takeFrames_of_frame {b rest : FrameBuffer} {f : Frame} (taken : b.next = .frame f rest) :
    b.takeFrames = { rest.takeFrames with frames := f :: rest.takeFrames.frames } := by
  rw [takeFrames]
  split
  next short => rw [taken] at short; cases short
  next refused => rw [taken] at refused; cases refused
  next found =>
    rw [taken] at found
    cases found
    rfl

theorem takeFrames_of_incomplete {b rest : FrameBuffer} (short : b.next = .incomplete rest) :
    b.takeFrames = ⟨[], none, rest⟩ := by
  rw [takeFrames]
  split
  next found => rw [short] at found; cases found; rfl
  next refused => rw [short] at refused; cases refused
  next taken => rw [short] at taken; cases taken

theorem takeFrames_of_refused {b : FrameBuffer} {failure : DecodeFailure}
    (refused : b.next = .refused failure) : b.takeFrames = ⟨[], some failure, b⟩ := by
  rw [takeFrames]
  split
  next short => rw [refused] at short; cases short
  next found => rw [refused] at found; cases found; rfl
  next taken => rw [refused] at taken; cases taken

/-- Whatever takes frames off the front one by one can be followed step by step. -/
theorem takeFrames_induction {P : FrameBuffer → Prop}
    (incomplete : ∀ b rest, b.next = .incomplete rest → P b)
    (refused : ∀ b failure, b.next = .refused failure → P b)
    (frame : ∀ b f rest, b.next = .frame f rest → P rest → P b) (b : FrameBuffer) : P b := by
  cases front : b.next with
  | incomplete rest => exact incomplete b rest front
  | refused failure => exact refused b failure front
  | frame f rest =>
    exact frame b f rest front (takeFrames_induction incomplete refused frame rest)
termination_by b.weight
decreasing_by exact weight_lt_of_next front

/-- Whether the header has been taken off makes no difference to what is found behind it. -/
theorem takeFrames_congr {b c : FrameBuffer} (same : b.next = c.next)
    (allowed : ∀ failure, c.next ≠ .refused failure) : b.takeFrames = c.takeFrames := by
  cases front : c.next with
  | incomplete rest =>
    rw [takeFrames_of_incomplete (same.trans front), takeFrames_of_incomplete front]
  | refused failure => exact absurd front (allowed failure)
  | frame f rest => rw [takeFrames_of_frame (same.trans front), takeFrames_of_frame front]

/-- Taking frames off before a piece arrives changes nothing about what is found in the end. -/
theorem takeFrames_extend_of_accepted {b : FrameBuffer} (accepted : b.takeFrames.failure? = none)
    (piece : Bytes) :
    (b.extend piece).takeFrames =
      { (b.takeFrames.rest.extend piece).takeFrames with
        frames := b.takeFrames.frames ++ (b.takeFrames.rest.extend piece).takeFrames.frames } := by
  induction b using takeFrames_induction with
  | incomplete b rest short =>
    rw [takeFrames_of_incomplete short]
    show (b.extend piece).takeFrames = (rest.extend piece).takeFrames
    -- The header may have been taken off meanwhile. It has been allowed then, so it is not refused
    -- with the new bytes.
    rcases eq_or_header_of_incomplete short with rfl | held
    · rfl
    · exact takeFrames_congr (next_extend_of_incomplete short piece)
        (next_ne_refused (b := rest.extend piece) held)
  | refused b failure refused =>
    rw [takeFrames_of_refused refused] at accepted
    cases accepted
  | frame b f rest taken ih =>
    rw [takeFrames_of_frame taken] at accepted ⊢
    rw [takeFrames_of_frame (next_extend_of_frame taken piece), ih accepted]
    rfl

/-- Behind a refused header nothing is found, whatever arrives. -/
theorem takeFrames_extend_of_refused {b : FrameBuffer} {failure : DecodeFailure}
    (refused : b.takeFrames.failure? = some failure) (piece : Bytes) :
    (b.extend piece).takeFrames =
      { b.takeFrames with rest := b.takeFrames.rest.extend piece } := by
  induction b using takeFrames_induction with
  | incomplete b rest short =>
    rw [takeFrames_of_incomplete short] at refused
    cases refused
  | refused b failure front =>
    rw [takeFrames_of_refused front, takeFrames_of_refused (next_extend_of_refused front piece)]
  | frame b f rest taken ih =>
    rw [takeFrames_of_frame taken] at refused ⊢
    rw [takeFrames_of_frame (next_extend_of_frame taken piece), ih refused]

/-- Nothing more can be taken off. -/
def Settled (b : FrameBuffer) : Prop := b.takeFrames = ⟨[], none, b⟩

theorem settled_empty (limit : UInt32) : (empty limit).Settled :=
  takeFrames_of_incomplete rfl

theorem next_of_settled {b : FrameBuffer} (settled : b.Settled) : b.next = .incomplete b := by
  unfold Settled at settled
  cases front : b.next with
  | incomplete rest =>
    rw [takeFrames_of_incomplete front] at settled
    rw [(Yield.mk.inj settled).2.2]
  | refused failure =>
    rw [takeFrames_of_refused front] at settled
    cases (Yield.mk.inj settled).2.1
  | frame f rest =>
    rw [takeFrames_of_frame front] at settled
    cases (Yield.mk.inj settled).1

theorem settled_rest {b : FrameBuffer} (accepted : b.takeFrames.failure? = none) :
    b.takeFrames.rest.Settled := by
  induction b using takeFrames_induction with
  | incomplete b rest short =>
    rw [takeFrames_of_incomplete short]
    exact takeFrames_of_incomplete (next_of_incomplete short)
  | refused b failure refused =>
    rw [takeFrames_of_refused refused] at accepted
    cases accepted
  | frame b f rest taken ih =>
    rw [takeFrames_of_frame taken] at accepted ⊢
    exact ih accepted

/-- What is left behind frames that end in a refusal begins with the refused header. -/
theorem next_rest_of_refused {b : FrameBuffer} {failure : DecodeFailure}
    (refused : b.takeFrames.failure? = some failure) :
    b.takeFrames.rest.next = .refused failure := by
  induction b using takeFrames_induction with
  | incomplete b rest short =>
    rw [takeFrames_of_incomplete short] at refused
    cases refused
  | refused b found front =>
    rw [takeFrames_of_refused front] at refused ⊢
    obtain rfl := Option.some.inj refused
    exact front
  | frame b f rest taken ih =>
    rw [takeFrames_of_frame taken] at refused ⊢
    exact ih refused

/-- The only reason to refuse a header is the limit. -/
theorem oversized_of_refused {b : FrameBuffer} {failure : DecodeFailure}
    (refused : b.next = .refused failure) : ∃ size, failure = .oversized size b.limit := by
  rcases b.next_cases with ⟨h, -, same⟩ | ⟨-, -, same⟩ | ⟨h, found, -, -, kept, same⟩ |
    ⟨h, -, -, -, same⟩ <;> rw [same] at refused
  · exact absurd refused (takePayload_ne_refused _ h failure)
  · exact Front.noConfusion refused
  · obtain rfl := Front.refused.inj refused
    unfold Header.check at kept
    split at kept
    next => exact ⟨h.length, (Except.error.inj kept).symm⟩
    next => cases kept
  · exact absurd refused (takePayload_ne_refused _ h failure)

theorem limit_of_takePayload {b rest : FrameBuffer} {h : Header} {f : Frame}
    (taken : b.takePayload h = .frame f rest) : rest.limit = b.limit := by
  rcases b.takePayload_cases h with ⟨-, same⟩ | ⟨-, same⟩ <;> rw [same] at taken
  · exact Front.noConfusion taken
  · rw [← (Front.frame.inj taken).2]

theorem limit_of_frame {b rest : FrameBuffer} {f : Frame} (taken : b.next = .frame f rest) :
    rest.limit = b.limit := by
  rcases b.next_cases with ⟨h, -, same⟩ | ⟨-, -, same⟩ | ⟨h, failure, -, -, -, same⟩ |
    ⟨h, -, -, -, same⟩ <;> rw [same] at taken
  · exact limit_of_takePayload taken
  · exact Front.noConfusion taken
  · exact Front.noConfusion taken
  · exact (limit_of_takePayload taken).trans rfl

theorem oversized_of_takeFrames {b : FrameBuffer} {failure : DecodeFailure}
    (refused : b.takeFrames.failure? = some failure) :
    ∃ size, failure = .oversized size b.limit := by
  induction b using takeFrames_induction with
  | incomplete b rest short =>
    rw [takeFrames_of_incomplete short] at refused
    cases refused
  | refused b found front =>
    rw [takeFrames_of_refused front] at refused
    obtain rfl := Option.some.inj refused
    exact oversized_of_refused front
  | frame b f rest taken ih =>
    rw [takeFrames_of_frame taken] at refused
    rw [← limit_of_frame taken]
    exact ih refused

/-! ## No byte gets lost -/

/-- The bytes that a buffer holds, with the header that was taken off. -/
def held (b : FrameBuffer) : Nat :=
  (if b.header?.isSome then Header.size else 0) + b.pending.length

theorem held_of_header {b : FrameBuffer} {h : Header} (there : b.header? = some h) :
    b.held = Header.size + b.pending.length := by
  rw [held, there]
  rfl

theorem held_of_missing {b : FrameBuffer} (missing : b.header? = none) :
    b.held = b.pending.length := by
  rw [held, missing]
  exact Nat.zero_add _

/-- The bytes behind a header that is taken off. -/
theorem size_add_length_drop {b : FrameBuffer} {h : Header} (missing : b.header? = none)
    (read : Header.decode? b.pending = some h) :
    Header.size + (b.pending.drop Header.size).length = b.held := by
  have enough := Header.size_le_of_decode? read
  rw [held_of_missing missing, List.length_drop]
  omega

theorem held_takePayload {b rest : FrameBuffer} {h : Header} {f : Frame}
    (taken : b.takePayload h = .frame f rest) :
    f.toBytes.length + rest.held = Header.size + b.pending.length := by
  rcases b.takePayload_cases h with ⟨-, same⟩ | ⟨enough, same⟩ <;> rw [same] at taken
  · exact Front.noConfusion taken
  · obtain ⟨rfl, rfl⟩ := Front.frame.inj taken
    rw [Frame.toBytes, held_of_missing rfl, List.length_append, Header.length_encode,
      List.length_take, List.length_drop]
    omega

/-- A step takes as many bytes off as its frame has. -/
theorem held_of_frame {b rest : FrameBuffer} {f : Frame} (taken : b.next = .frame f rest) :
    f.toBytes.length + rest.held = b.held := by
  rcases b.next_cases with ⟨h, there, same⟩ | ⟨-, -, same⟩ | ⟨h, failure, -, -, -, same⟩ |
    ⟨h, missing, read, -, same⟩ <;> rw [same] at taken
  · rw [held_takePayload taken, held_of_header there]
  · exact Front.noConfusion taken
  · exact Front.noConfusion taken
  · rw [held_takePayload taken, size_add_length_drop missing read]

theorem held_of_incomplete {b rest : FrameBuffer} (short : b.next = .incomplete rest) :
    rest.held = b.held := by
  rcases b.next_cases with ⟨h, there, same⟩ | ⟨-, -, same⟩ | ⟨h, failure, -, -, -, same⟩ |
    ⟨h, missing, read, -, same⟩ <;> rw [same] at short
  · rw [header_of_takePayload short, held_of_header rfl, held_of_header there]
  · rw [Front.incomplete.inj short]
  · exact Front.noConfusion short
  · rw [header_of_takePayload short, held_of_header rfl, size_add_length_drop missing read]

/-- The bytes of the frames taken off and those still held are all there were. -/
theorem held_takeFrames (b : FrameBuffer) :
    (b.takeFrames.frames.flatMap Frame.toBytes).length + b.takeFrames.rest.held = b.held := by
  induction b using takeFrames_induction with
  | incomplete b rest short =>
    rw [takeFrames_of_incomplete short, ← held_of_incomplete short]
    exact Nat.zero_add _
  | refused b failure refused =>
    rw [takeFrames_of_refused refused]
    exact Nat.zero_add _
  | frame b f rest taken ih =>
    rw [takeFrames_of_frame taken, ← held_of_frame taken, ← ih, List.flatMap_cons,
      List.length_append, Nat.add_assoc]

/-- A refused header is all there. -/
theorem size_le_held_of_refused {b : FrameBuffer} {failure : DecodeFailure}
    (refused : b.next = .refused failure) : Header.size ≤ b.held := by
  rcases b.next_cases with ⟨h, -, same⟩ | ⟨-, -, same⟩ | ⟨h, found, missing, read, -, -⟩ |
    ⟨h, -, -, -, same⟩
  · exact absurd (same ▸ refused) (takePayload_ne_refused _ h failure)
  · exact Front.noConfusion (same ▸ refused)
  · rw [held_of_missing missing]
    exact Header.size_le_of_decode? read
  · exact absurd (same ▸ refused) (takePayload_ne_refused _ h failure)

/-- A buffer from which nothing can be taken off holds less than what has to come before the next
refusal: what is left of a frame and the header behind it. -/
theorem held_lt_of_settled {b : FrameBuffer} {piece : Bytes} {failure : DecodeFailure}
    (settled : b.Settled) (refused : (b.extend piece).takeFrames.failure? = some failure) :
    b.held <
      ((b.extend piece).takeFrames.frames.flatMap Frame.toBytes).length + Header.size := by
  have stuck := next_of_settled settled
  rcases b.next_cases with ⟨h, there, same⟩ | ⟨missing, short, -⟩ | ⟨h, found, -, -, -, same⟩ |
    ⟨h, missing, -, -, same⟩
  · have short : b.pending.length < h.length.toNat := by
      rcases b.takePayload_cases h with ⟨short, -⟩ | ⟨-, taken⟩
      · exact short
      · exact Front.noConfusion ((taken.symm.trans same.symm).trans stuck)
    -- The frame whose header was taken off has to be completed first.
    rcases (b.extend piece).takePayload_cases h with ⟨-, front⟩ | ⟨long, front⟩
    · rw [takeFrames_of_incomplete (next_of_header (b := b.extend piece) there ▸ front)] at refused
      cases refused
    · rw [takeFrames_of_frame (next_of_header (b := b.extend piece) there ▸ front),
        List.flatMap_cons, List.length_append, Frame.toBytes, List.length_append,
        List.length_take, Header.length_encode, held_of_header there]
      omega
  · -- There is not even a header yet.
    have few := (Header.decode?_eq_none_iff b.pending).mp short
    rw [held_of_missing missing]
    omega
  · exact Front.noConfusion (same.symm.trans stuck)
  · -- A header that is complete and allowed would have been taken off.
    have header := header_of_takePayload (same.symm.trans stuck)
    rw [header] at missing
    cases missing

/-! ## Pushing pieces one after the other -/

theorem push_eq (b : FrameBuffer) (piece : Bytes) :
    b.push piece =
      match (b.extend piece).takeFrames.failure? with
      | some failure => (.error failure, (b.extend piece).takeFrames.rest)
      | none => (.ok (b.extend piece).takeFrames.frames, (b.extend piece).takeFrames.rest) := rfl

theorem push_of_accepted {b : FrameBuffer} {piece : Bytes}
    (accepted : (b.extend piece).takeFrames.failure? = none) :
    b.push piece = (.ok (b.extend piece).takeFrames.frames, (b.extend piece).takeFrames.rest) := by
  rw [push_eq, accepted]

theorem push_of_refused {b : FrameBuffer} {piece : Bytes} {failure : DecodeFailure}
    (refused : (b.extend piece).takeFrames.failure? = some failure) :
    b.push piece = (.error failure, (b.extend piece).takeFrames.rest) := by
  rw [push_eq, refused]

/-- Pushes pieces one after the other. Gives the answers, in order, and the buffer at the end. -/
def pushAll (b : FrameBuffer) :
    List Bytes → List (Except DecodeFailure (List Frame)) × FrameBuffer
  | [] => ([], b)
  | piece :: pieces =>
    let (answer, after) := b.push piece
    let (answers, last) := pushAll after pieces
    (answer :: answers, last)

/-- If nothing in the joined pieces is refused, every push succeeds, and what they find is what is
in the joined pieces. -/
theorem pushAll_of_accepted {b : FrameBuffer} {pieces : List Bytes} (settled : b.Settled)
    (accepted : (b.extend pieces.flatten).takeFrames.failure? = none) :
    ∃ found : List (List Frame),
      b.pushAll pieces = (found.map .ok, (b.extend pieces.flatten).takeFrames.rest) ∧
      found.flatten = (b.extend pieces.flatten).takeFrames.frames := by
  induction pieces generalizing b with
  | nil =>
    rw [List.flatten_nil, extend_nil, settled]
    exact ⟨[], rfl, rfl⟩
  | cons piece pieces ih =>
    rw [List.flatten_cons, extend_append] at accepted ⊢
    cases first : (b.extend piece).takeFrames.failure? with
    | some failure =>
      -- A refusal in the first piece would be one in all of them.
      rw [takeFrames_extend_of_refused first, first] at accepted
      cases accepted
    | none =>
      rw [takeFrames_extend_of_accepted first] at accepted ⊢
      obtain ⟨found, pushed, joined⟩ := ih (settled_rest first) accepted
      refine ⟨(b.extend piece).takeFrames.frames :: found, ?_, ?_⟩
      · rw [pushAll, push_of_accepted first]
        simp only [pushed, List.map_cons]
      · rw [List.flatten_cons, joined]

/-- One of the pieces is the first with which a header is refused. -/
theorem exists_refused_piece {b : FrameBuffer} {pieces : List Bytes} {failure : DecodeFailure}
    (settled : b.Settled)
    (refused : (b.extend pieces.flatten).takeFrames.failure? = some failure) :
    ∃ before piece after, pieces = before ++ piece :: after ∧
      (b.extend before.flatten).takeFrames.failure? = none ∧
      (b.extend (before.flatten ++ piece)).takeFrames.failure? = some failure := by
  induction pieces generalizing b with
  | nil =>
    rw [List.flatten_nil, extend_nil, settled] at refused
    cases refused
  | cons piece pieces ih =>
    rw [List.flatten_cons, extend_append] at refused
    cases first : (b.extend piece).takeFrames.failure? with
    | some found =>
      rw [takeFrames_extend_of_refused first, first] at refused
      refine ⟨[], piece, pieces, rfl, ?_, ?_⟩
      · rw [List.flatten_nil, extend_nil, settled]
      · rw [List.flatten_nil, List.nil_append, first, refused]
    | none =>
      rw [takeFrames_extend_of_accepted first] at refused
      obtain ⟨before, last, after, rfl, accepted, kept⟩ := ih (settled_rest first) refused
      refine ⟨piece :: before, last, after, rfl, ?_, ?_⟩
      · rw [List.flatten_cons, extend_append, takeFrames_extend_of_accepted first]
        exact accepted
      · rw [List.flatten_cons, List.append_assoc, extend_append,
          takeFrames_extend_of_accepted first]
        exact kept

/-- The bytes from which nothing is refused end before the header that is refused later. -/
theorem held_lt_of_accepted {b : FrameBuffer} {piece : Bytes} {failure : DecodeFailure}
    (accepted : b.takeFrames.failure? = none)
    (refused : (b.extend piece).takeFrames.failure? = some failure) :
    b.held <
      ((b.extend piece).takeFrames.frames.flatMap Frame.toBytes).length + Header.size := by
  rw [takeFrames_extend_of_accepted accepted] at refused ⊢
  have behind := held_lt_of_settled (settled_rest accepted) refused
  rw [List.flatMap_append, List.length_append, ← held_takeFrames b]
  omega

/-- The bytes with which a header is refused hold all of it. -/
theorem le_held_of_refused {b : FrameBuffer} {failure : DecodeFailure}
    (refused : b.takeFrames.failure? = some failure) :
    (b.takeFrames.frames.flatMap Frame.toBytes).length + Header.size ≤ b.held := by
  rw [← held_takeFrames b]
  exact Nat.add_le_add_left (size_le_held_of_refused (next_rest_of_refused refused)) _

/-- If a header is refused in the joined pieces, the push that completes it fails. All pushes before
that one succeed and find the first of the frames in front of it. -/
theorem pushAll_of_refused {b : FrameBuffer} {pieces : List Bytes} {failure : DecodeFailure}
    (settled : b.Settled)
    (refused : (b.extend pieces.flatten).takeFrames.failure? = some failure) :
    ∃ (before : List Bytes) (piece : Bytes) (after : List Bytes) (found : List (List Frame)),
      pieces = before ++ piece :: after ∧
      (b.extend before.flatten).held <
        ((b.extend pieces.flatten).takeFrames.frames.flatMap Frame.toBytes).length +
          Header.size ∧
      ((b.extend pieces.flatten).takeFrames.frames.flatMap Frame.toBytes).length + Header.size ≤
        (b.extend (before.flatten ++ piece)).held ∧
      (b.pushAll before).1 = found.map .ok ∧
      found.flatten <+: (b.extend pieces.flatten).takeFrames.frames ∧
      ((b.pushAll before).2.push piece).1 = .error failure := by
  obtain ⟨before, piece, after, rfl, accepted, kept⟩ := exists_refused_piece settled refused
  obtain ⟨found, pushed, joined⟩ := pushAll_of_accepted settled accepted
  have split : (before ++ piece :: after).flatten = before.flatten ++ piece ++ after.flatten := by
    simp
  have frames : (b.extend (before ++ piece :: after).flatten).takeFrames.frames =
      (b.extend (before.flatten ++ piece)).takeFrames.frames := by
    rw [split, extend_append, takeFrames_extend_of_refused kept]
  rw [frames]
  refine ⟨before, piece, after, found, rfl, ?_, le_held_of_refused kept, by rw [pushed], ?_, ?_⟩
  · rw [extend_append] at kept ⊢
    exact held_lt_of_accepted accepted kept
  · rw [joined, extend_append, takeFrames_extend_of_accepted accepted]
    exact List.prefix_append _ _
  · rw [extend_append, takeFrames_extend_of_accepted accepted] at kept
    rw [pushed, push_of_refused kept]

end FrameBuffer

end HardwareSigner
