import HardwareSigner.Proofs.Frame.Pieces

/-!
# Frames found are frames written, byte for byte

A stream of frames is one block of bytes after the other. A block is two marker bytes, the code, the
length and the payload (`Frame.Block`); only the marker is not checked. `FrameBuffer.Holds` says
which bytes a buffer stands for when a header may have been taken off already, and one step at the
front takes exactly one block off those bytes (`holds_of_frame`), or none (`holds_of_incomplete`).

The frames that were found determine the bytes up to the markers:

> `blocks_of_pushAll`: what was pushed is one block for each frame found, and what is held behind.

Conversely, the blocks that frames are written as yield these frames again
(`takeFrames_of_written`). Together, for any cutting into pieces:

> `written_and_found`: no byte is lost, invented or duplicated between writing and finding.
-/

namespace HardwareSigner

namespace BigEndian

theorem decode_lt_bound (bytes : Bytes) : decode bytes < bound bytes.length := by
  rcases List.eq_nil_or_concat bytes with rfl | ⟨front, last, rfl⟩
  · exact Nat.zero_lt_one
  · have ih := decode_lt_bound front
    have digit := last.toNat_lt
    rw [List.concat_eq_append, decode_concat, List.length_append, List.length_singleton, bound]
    omega
termination_by bytes.length

/-- A number read from bytes is written as the same bytes. -/
theorem encode_decode (bytes : Bytes) : encode bytes.length (decode bytes) = bytes := by
  rcases List.eq_nil_or_concat bytes with rfl | ⟨front, last, rfl⟩
  · rfl
  · have ih := encode_decode front
    have digit := last.toNat_lt
    have higher : (decode front * 256 + last.toNat) / 256 = decode front := by omega
    have lowest : UInt8.ofNat (decode front * 256 + last.toNat) = last := by
      apply UInt8.toNat_inj.mp
      rw [UInt8.toNat_ofNat']
      omega
    rw [List.concat_eq_append, decode_concat, List.length_append, List.length_singleton, encode,
      higher, ih, lowest]
termination_by bytes.length

end BigEndian

/-! ## Blocks -/

/-- Eight bytes that say `h` behind any two bytes. -/
def Header.Block (h : Header) (bytes : Bytes) : Prop :=
  ∃ first second : UInt8, bytes =
    [first, second] ++ BigEndian.encode 2 h.code.toNat ++ BigEndian.encode 4 h.length.toNat

/-- The bytes of a frame behind any two bytes, with as long a payload as its header says and the
limit allows. -/
structure Frame.Block (limit : UInt32) (f : Frame) (bytes : Bytes) : Prop where
  counted : f.payload.length = f.header.length.toNat
  allowed : f.header.length ≤ limit
  spelt : ∃ header, f.header.Block header ∧ bytes = header ++ f.payload

/-- One block for each frame, in order. -/
inductive Frame.Blocks (limit : UInt32) : List Frame → Bytes → Prop
  | nil : Blocks limit [] []
  | cons {f : Frame} {frames : List Frame} {block bytes : Bytes} (first : f.Block limit block)
      (others : Blocks limit frames bytes) : Blocks limit (f :: frames) (block ++ bytes)

namespace Header

/-- The first eight bytes say the header that is read from them. -/
theorem block_of_decode? {bytes : Bytes} {h : Header} (read : decode? bytes = some h) :
    h.Block (bytes.take size) := by
  have enough := size_le_of_decode? read
  match bytes, enough with
  | m :: n :: a :: b :: c :: d :: e :: f :: rest, long =>
    rw [decode?, if_neg (Nat.not_lt.mpr long)] at read
    obtain rfl := Option.some.inj read
    -- Neither number overflows its word, so each is written as the bytes it was read from.
    have code : (UInt16.ofNat (BigEndian.decode [a, b])).toNat = BigEndian.decode [a, b] :=
      UInt16.toNat_ofNat_of_lt' (BigEndian.decode_lt_bound [a, b])
    have length : (UInt32.ofNat (BigEndian.decode [c, d, e, f])).toNat =
        BigEndian.decode [c, d, e, f] :=
      UInt32.toNat_ofNat_of_lt' (BigEndian.decode_lt_bound [c, d, e, f])
    refine ⟨m, n, ?_⟩
    show [m, n, a, b, c, d, e, f] = [m, n] ++
      BigEndian.encode 2 (UInt16.ofNat (BigEndian.decode [a, b])).toNat ++
      BigEndian.encode 4 (UInt32.ofNat (BigEndian.decode [c, d, e, f])).toNat
    have two : BigEndian.encode 2 (BigEndian.decode [a, b]) = [a, b] :=
      BigEndian.encode_decode [a, b]
    have four : BigEndian.encode 4 (BigEndian.decode [c, d, e, f]) = [c, d, e, f] :=
      BigEndian.encode_decode [c, d, e, f]
    rw [code, length, two, four]
    rfl

theorem check_of_le {h : Header} {limit : UInt32} (allowed : h.length ≤ limit) :
    h.check limit = .ok () := if_neg (UInt32.not_lt.mpr allowed)

theorem le_of_check {h : Header} {limit : UInt32} (allowed : h.check limit = .ok ()) :
    h.length ≤ limit := by
  unfold check at allowed
  split at allowed
  next => cases allowed
  next least => exact UInt32.not_lt.mp least

end Header

namespace FrameBuffer

/-! ## The bytes that a buffer stands for -/

/-- The bytes in a buffer, behind those of the header that was taken off. -/
inductive Holds (b : FrameBuffer) : Bytes → Prop
  | whole (missing : b.header? = none) : Holds b b.pending
  | headed {h : Header} {header : Bytes} (there : b.header? = some h) (spelt : h.Block header)
      (allowed : h.length ≤ b.limit) : Holds b (header ++ b.pending)

/-- Neither a header nor the payload behind one is complete. -/
def Short (b : FrameBuffer) : Prop :=
  match b.header? with
  | none => b.pending.length < Header.size
  | some h => h.length ≠ 0 ∧ b.pending.length < h.length.toNat

theorem short_of_few {b : FrameBuffer} {h : Header} (few : b.pending.length < h.length.toNat) :
    ({ b with header? := some h } : FrameBuffer).Short := by
  refine ⟨fun none => ?_, few⟩
  rw [none] at few
  exact Nat.not_lt_zero _ few

/-- A payload goes into the block whose header stands before it. -/
theorem holds_of_takePayload {b rest : FrameBuffer} {h : Header} {header : Bytes} {f : Frame}
    (spelt : h.Block header) (allowed : h.length ≤ b.limit)
    (taken : b.takePayload h = .frame f rest) :
    ∃ block left, header ++ b.pending = block ++ left ∧ f.Block b.limit block ∧
      rest.Holds left := by
  rcases b.takePayload_cases h with ⟨-, same⟩ | ⟨enough, same⟩ <;> rw [same] at taken
  · exact Front.noConfusion taken
  · obtain ⟨rfl, rfl⟩ := Front.frame.inj taken
    refine ⟨header ++ b.pending.take h.length.toNat, b.pending.drop h.length.toNat, ?_,
      ⟨List.length_take_of_le enough, allowed, header, spelt, rfl⟩, .whole rfl⟩
    rw [List.append_assoc, List.take_append_drop]

/-- A payload that is not complete waits behind its header. -/
theorem holds_of_short_payload {b rest : FrameBuffer} {h : Header} {header : Bytes}
    (spelt : h.Block header) (allowed : h.length ≤ b.limit)
    (short : b.takePayload h = .incomplete rest) :
    rest.Holds (header ++ b.pending) ∧ rest.Short := by
  rcases b.takePayload_cases h with ⟨few, same⟩ | ⟨-, same⟩ <;> rw [same] at short
  · obtain rfl := Front.incomplete.inj short
    exact ⟨.headed rfl spelt allowed, short_of_few few⟩
  · exact Front.noConfusion short

/-- A step at the front takes one block off. -/
theorem holds_of_frame {b rest : FrameBuffer} {f : Frame} {bytes : Bytes} (holds : b.Holds bytes)
    (taken : b.next = .frame f rest) :
    ∃ block left, bytes = block ++ left ∧ f.Block b.limit block ∧ rest.Holds left := by
  cases holds with
  | whole missing =>
    rcases b.next_cases with ⟨h, there, -⟩ | ⟨-, -, same⟩ | ⟨h, failure, -, -, -, same⟩ |
      ⟨h, -, read, allowed, same⟩
    · rw [missing] at there
      cases there
    · exact Front.noConfusion (same.symm.trans taken)
    · exact Front.noConfusion (same.symm.trans taken)
    · have split := holds_of_takePayload (b := { b with pending := b.pending.drop Header.size })
        (Header.block_of_decode? read) (Header.le_of_check allowed) (same.symm.trans taken)
      rwa [List.take_append_drop] at split
  | headed there spelt allowed =>
    exact holds_of_takePayload spelt allowed ((next_of_header there).symm.trans taken)

/-- The beginning of a frame stays in the buffer, whether its header is taken off or not. -/
theorem holds_of_incomplete {b rest : FrameBuffer} {bytes : Bytes} (holds : b.Holds bytes)
    (short : b.next = .incomplete rest) : rest.Holds bytes ∧ rest.Short := by
  cases holds with
  | whole missing =>
    rcases b.next_cases with ⟨h, there, -⟩ | ⟨-, few, same⟩ | ⟨h, failure, -, -, -, same⟩ |
      ⟨h, -, read, allowed, same⟩
    · rw [missing] at there
      cases there
    · obtain rfl := Front.incomplete.inj (same.symm.trans short)
      refine ⟨.whole missing, ?_⟩
      rw [Short, missing]
      exact (Header.decode?_eq_none_iff _).mp few
    · exact Front.noConfusion (same.symm.trans short)
    · have waits := holds_of_short_payload
        (b := { b with pending := b.pending.drop Header.size })
        (Header.block_of_decode? read) (Header.le_of_check allowed) (same.symm.trans short)
      rwa [List.take_append_drop] at waits
  | headed there spelt allowed =>
    exact holds_of_short_payload spelt allowed ((next_of_header there).symm.trans short)

/-- All the frames at the front are blocks of the bytes, and the rest stays in the buffer. -/
theorem blocks_of_takeFrames {b : FrameBuffer} {bytes : Bytes} (holds : b.Holds bytes)
    (accepted : b.takeFrames.failure? = none) :
    ∃ written held, bytes = written ++ held ∧
      Frame.Blocks b.limit b.takeFrames.frames written ∧
      b.takeFrames.rest.Holds held ∧ b.takeFrames.rest.Short := by
  induction b using takeFrames_induction generalizing bytes with
  | incomplete b rest short =>
    rw [takeFrames_of_incomplete short]
    obtain ⟨behind, few⟩ := holds_of_incomplete holds short
    exact ⟨[], bytes, rfl, .nil, behind, few⟩
  | refused b failure refused =>
    rw [takeFrames_of_refused refused] at accepted
    cases accepted
  | frame b f rest taken ih =>
    rw [takeFrames_of_frame taken] at accepted ⊢
    obtain ⟨block, left, rfl, first, behind⟩ := holds_of_frame holds taken
    obtain ⟨written, held, rfl, others, last, few⟩ := ih behind accepted
    rw [limit_of_frame taken] at others
    exact ⟨block ++ written, held, (List.append_assoc _ _ _).symm, .cons first others, last, few⟩

/-- If every push succeeds, nothing in the joined pieces is refused. -/
theorem accepted_of_pushAll {b rest : FrameBuffer} {pieces : List Bytes}
    {found : List (List Frame)} (settled : b.Settled)
    (pushed : b.pushAll pieces = (found.map .ok, rest)) :
    (b.extend pieces.flatten).takeFrames.failure? = none := by
  induction pieces generalizing b found with
  | nil =>
    rw [List.flatten_nil, extend_nil, settled]
  | cons piece pieces ih =>
    rw [List.flatten_cons, extend_append]
    rw [pushAll] at pushed
    cases first : (b.extend piece).takeFrames.failure? with
    | some failure =>
      rw [push_of_refused first] at pushed
      cases found <;> cases (Prod.mk.inj pushed).1
    | none =>
      rw [push_of_accepted first] at pushed
      rw [takeFrames_extend_of_accepted first]
      cases found with
      | nil => cases (Prod.mk.inj pushed).1
      | cons frames found =>
        have others := (List.cons.inj (Prod.mk.inj pushed).1).2
        exact ih (settled_rest first) (Prod.ext others (Prod.mk.inj pushed).2)

/-- What was pushed is one block for each frame found, and what is held behind them. -/
theorem blocks_of_pushAll {limit : UInt32} {rest : FrameBuffer} {pieces : List Bytes}
    {found : List (List Frame)}
    (pushed : (empty limit).pushAll pieces = (found.map .ok, rest)) :
    ∃ written held, pieces.flatten = written ++ held ∧
      Frame.Blocks limit found.flatten written ∧ rest.Holds held ∧ rest.Short := by
  have settled := settled_empty limit
  have accepted := accepted_of_pushAll settled pushed
  obtain ⟨frames, same, joined⟩ := pushAll_of_accepted settled accepted
  rw [pushed] at same
  obtain ⟨answers, last⟩ := Prod.mk.inj same
  have all : found = frames := (List.map_inj_right fun _ _ => Except.ok.inj).mp answers
  have fresh : ((empty limit).extend pieces.flatten).Holds pieces.flatten := .whole rfl
  rw [all, joined, last]
  exact blocks_of_takeFrames fresh accepted

/-! ## What was written is found -/

/-- A frame that is written at the front of a fresh buffer is the first one found. -/
theorem next_of_written {limit : UInt32} {f : Frame}
    (counted : f.payload.length = f.header.length.toNat) (allowed : f.header.length ≤ limit)
    (more : Bytes) :
    ((empty limit).extend (f.toBytes ++ more)).next = .frame f ((empty limit).extend more) := by
  have bytes : f.toBytes ++ more = f.header.encode ++ (f.payload ++ more) :=
    List.append_assoc _ _ _
  have enough : ¬(f.payload ++ more).length < f.header.length.toNat := by
    rw [List.length_append]
    omega
  have header : ((empty limit).extend (f.header.encode ++ (f.payload ++ more))).next =
      ({ empty limit with pending := f.payload ++ more } : FrameBuffer).takePayload f.header := by
    rw [next_of_allowed rfl (Header.decode_encode f.header _) (Header.check_of_le allowed)]
    show FrameBuffer.takePayload ⟨limit, none, List.drop Header.size (f.header.encode ++ _)⟩ _ = _
    rw [List.drop_left' (Header.length_encode f.header)]
    rfl
  rw [bytes, header, takePayload, if_neg enough, List.take_left' counted, List.drop_left' counted]
  rfl

/-- Frames that are written one after the other are found again, and nothing is left. -/
theorem takeFrames_of_written {limit : UInt32} {frames : List Frame}
    (counted : ∀ f ∈ frames,
      f.payload.length = f.header.length.toNat ∧ f.header.length ≤ limit) :
    ((empty limit).extend (frames.flatMap Frame.toBytes)).takeFrames =
      ⟨frames, none, empty limit⟩ := by
  induction frames with
  | nil => exact settled_empty limit
  | cons f frames ih =>
    rw [List.forall_mem_cons] at counted
    rw [List.flatMap_cons, takeFrames_of_frame (next_of_written counted.1.1 counted.1.2 _),
      ih counted.2]

end FrameBuffer

namespace Frame

/-- The frame that is written for a message. -/
def written (message : MessageType × Bytes) : Frame :=
  ⟨⟨message.1.code, UInt32.ofNat message.2.length⟩, message.2⟩

theorem counted_written {limit : UInt32} {message : MessageType × Bytes}
    (fits : message.2.length ≤ limit.toNat) :
    (written message).payload.length = (written message).header.length.toNat ∧
      (written message).header.length ≤ limit := by
  have counted : (UInt32.ofNat message.2.length).toNat = message.2.length :=
    UInt32.toNat_ofNat_of_lt' (Nat.lt_of_le_of_lt fits limit.toNat_lt)
  exact ⟨counted.symm, UInt32.le_iff_toNat_le.mpr (counted ▸ fits)⟩

theorem counted_of_mem {limit : UInt32} {messages : List (MessageType × Bytes)}
    (fits : ∀ message ∈ messages, message.2.length ≤ limit.toNat) :
    ∀ f ∈ messages.map written,
      f.payload.length = f.header.length.toNat ∧ f.header.length ≤ limit := by
  intro f among
  obtain ⟨message, there, rfl⟩ := List.mem_map.mp among
  exact counted_written (fits message there)

theorem ofPayload_written {limit : UInt32} {message : MessageType × Bytes}
    (fits : message.2.length ≤ limit.toNat) :
    ofPayload message.1 message.2 = .ok (written message) :=
  if_pos (Nat.lt_of_le_of_lt fits limit.toNat_lt)

/-- What is written for `messages` is found as it was, in whatever pieces it arrives. -/
structure FoundAsWritten (limit : UInt32) (messages : List (MessageType × Bytes)) : Prop where
  /-- Each message is written, as a frame or as bytes, with its length counted. -/
  encoded : ∀ message ∈ messages,
    ofPayload message.1 message.2 = .ok (written message) ∧
      encode message.1 message.2 = .ok (written message).toBytes ∧
      (written message).header.length.toNat = message.2.length
  found : ∀ pieces : List Bytes, pieces.flatten = (messages.map written).flatMap toBytes →
    ∃ found : List (List Frame),
      (FrameBuffer.empty limit).pushAll pieces = (found.map .ok, .empty limit) ∧
        found.flatten = messages.map written
  /-- The stream may end there. -/
  finished : (FrameBuffer.empty limit).finish.1 = .ok ()

theorem found_as_written {limit : UInt32} {messages : List (MessageType × Bytes)}
    (fits : ∀ message ∈ messages, message.2.length ≤ limit.toNat) :
    FoundAsWritten limit messages := by
  have yield : ((FrameBuffer.empty limit).extend
      ((messages.map written).flatMap toBytes)).takeFrames =
        ⟨messages.map written, none, .empty limit⟩ :=
    FrameBuffer.takeFrames_of_written (counted_of_mem fits)
  refine ⟨?_, ?_, rfl⟩
  · intro message among
    have framed := ofPayload_written (fits message among)
    exact ⟨framed, by rw [encode, framed]; rfl, (counted_written (fits message among)).1.symm⟩
  · intro pieces joined
    have accepted :
        ((FrameBuffer.empty limit).extend pieces.flatten).takeFrames.failure? = none := by
      rw [joined, yield]
    obtain ⟨found, pushed, same⟩ :=
      FrameBuffer.pushAll_of_accepted (FrameBuffer.settled_empty limit) accepted
    rw [joined, yield] at pushed same
    exact ⟨found, pushed, same⟩

/-- Writing and finding undo each other. A code of which no message type is known has its own type
(`MessageType.code_ofCode`), so the first part is about every code. -/
theorem written_and_found (limit : UInt32) :
    (∀ messages : List (MessageType × Bytes),
      (∀ message ∈ messages, message.2.length ≤ limit.toNat) → FoundAsWritten limit messages) ∧
    (∀ (pieces : List Bytes) (found : List (List Frame)) (rest : FrameBuffer),
      (FrameBuffer.empty limit).pushAll pieces = (found.map .ok, rest) →
        ∃ written held, pieces.flatten = written ++ held ∧ Blocks limit found.flatten written ∧
          rest.Holds held ∧ rest.Short) :=
  ⟨fun _ fits => found_as_written fits, fun _ _ _ pushed => FrameBuffer.blocks_of_pushAll pushed⟩

/-- Two messages, of which the second has no payload. Then a frame with one byte in two pieces,
behind which a header with another marker and half of its payload are held. -/
theorem written_and_found_in_three_pieces :
    FoundAsWritten 4 [(.success, [0x2a]), (.ping, [])] ∧
    ∃ written held,
      [[0x23, 0x23, 0, 2, 0, 0], [0, 1, 0x2a, 0x40], [0x41, 0, 7, 0, 0, 0, 2, 0x2b]].flatten =
        written ++ held ∧
      Blocks 4 [⟨⟨2, 1⟩, [0x2a]⟩] written ∧
      FrameBuffer.Holds ⟨4, some ⟨7, 2⟩, [0x2b]⟩ held ∧
      FrameBuffer.Short ⟨4, some ⟨7, 2⟩, [0x2b]⟩ :=
  ⟨(written_and_found 4).1 [(.success, [0x2a]), (.ping, [])] (by decide),
    (written_and_found 4).2
      [[0x23, 0x23, 0, 2, 0, 0], [0, 1, 0x2a, 0x40], [0x41, 0, 7, 0, 0, 0, 2, 0x2b]]
      [[], [⟨⟨2, 1⟩, [0x2a]⟩], []] ⟨4, some ⟨7, 2⟩, [0x2b]⟩ (by cbv)⟩

end Frame

end HardwareSigner
