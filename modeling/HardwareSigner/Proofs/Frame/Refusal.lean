import Mathlib
import HardwareSigner.Proofs.Frame.Pieces

/-!
# A refused header stays until the buffer is reset

A header that announces more than is allowed is not taken off. From then on it is the first thing
in the buffer (`FrameBuffer.Spoilt`), and what arrives is put behind it, where nothing looks at it:
it may well be a frame, and is not found. Only a reset helps, and the end of the stream is one.

> `FrameBuffer.Spoilt.push`: what a push comes to in a spoilt buffer, and that it stays spoilt.
> `FrameBuffer.refused_until_reset`: so it is in every buffer with any past, and after a reset a
> buffer has no past.
-/

namespace HardwareSigner

namespace FrameBuffer

/-! ## The past of a buffer -/

/-- What a buffer may be asked for. -/
inductive Request
  | push (piece : Bytes)
  /-- The stream has ended. -/
  | finish
  | clear

/-- What a buffer answers. -/
inductive Reply
  | pushed (outcome : Except DecodeFailure (List Frame))
  | finished (outcome : Except DecodeFailure Unit)
  | cleared

def Request.resets : Request → Bool
  | .push _ => false
  | .finish | .clear => true

def perform (b : FrameBuffer) : Request → Reply × FrameBuffer
  | .push piece => (.pushed (b.push piece).1, (b.push piece).2)
  | .finish => (.finished b.finish.1, b.finish.2)
  | .clear => (.cleared, b.clear)

/-- Carries out one request after the other. Gives the answers, in order, and the buffer at the
end. -/
def performAll (b : FrameBuffer) : List Request → List Reply × FrameBuffer
  | [] => ([], b)
  | request :: requests =>
    let (reply, after) := b.perform request
    let (replies, last) := performAll after requests
    (reply :: replies, last)

theorem performAll_append (b : FrameBuffer) (before after : List Request) :
    (b.performAll (before ++ after)).2 = ((b.performAll before).2.performAll after).2 := by
  induction before generalizing b with
  | nil => rfl
  | cons request before ih => exact ih (b.perform request).2

theorem performAll_pushes (b : FrameBuffer) (pieces : List Bytes) :
    (b.performAll (pieces.map .push)).2 = (b.pushAll pieces).2 := by
  induction pieces generalizing b with
  | nil => rfl
  | cons piece pieces ih => exact ih (b.push piece).2

/-! ## The limit is for ever -/

theorem limit_of_incomplete {b rest : FrameBuffer} (short : b.next = .incomplete rest) :
    rest.limit = b.limit := by
  rcases b.next_cases with ⟨h, -, same⟩ | ⟨-, -, same⟩ | ⟨h, failure, -, -, -, same⟩ |
    ⟨h, -, -, -, same⟩ <;> rw [same] at short
  · rw [header_of_takePayload short]
  · rw [Front.incomplete.inj short]
  · exact Front.noConfusion short
  · rw [header_of_takePayload short]

theorem limit_takeFrames (b : FrameBuffer) : b.takeFrames.rest.limit = b.limit := by
  induction b using takeFrames_induction with
  | incomplete b rest short =>
    rw [takeFrames_of_incomplete short]
    exact limit_of_incomplete short
  | refused b failure refused => rw [takeFrames_of_refused refused]
  | frame b f rest taken ih =>
    rw [takeFrames_of_frame taken, ← limit_of_frame taken]
    exact ih

theorem limit_push (b : FrameBuffer) (piece : Bytes) : (b.push piece).2.limit = b.limit := by
  have same := limit_takeFrames (b.extend piece)
  rw [push_eq]
  split <;> exact same

theorem limit_performAll (b : FrameBuffer) (requests : List Request) :
    (b.performAll requests).2.limit = b.limit := by
  induction requests generalizing b with
  | nil => rfl
  | cons request requests ih =>
    refine (ih (b.perform request).2).trans ?_
    cases request with
    | push piece => exact limit_push b piece
    | finish => rfl
    | clear => rfl

/-- After a reset there is nothing in a buffer. -/
theorem perform_of_resets (b : FrameBuffer) {request : Request} (resets : request.resets = true) :
    (b.perform request).2 = empty b.limit := by
  cases request with
  | push piece => cases resets
  | finish => rfl
  | clear => rfl

/-! ## Spoilt buffers -/

/-- The first thing in the buffer is a header that announces `size` bytes, which is too much. -/
structure Spoilt (size : UInt32) (b : FrameBuffer) : Prop where
  untaken : b.header? = none
  announced : ∃ h, Header.decode? b.pending = some h ∧ h.length = size
  above : b.limit < size

namespace Spoilt

variable {size : UInt32} {b : FrameBuffer}

theorem next (spoilt : b.Spoilt size) : b.next = .refused (.oversized size b.limit) := by
  obtain ⟨h, read, rfl⟩ := spoilt.announced
  exact next_of_refused spoilt.untaken read (if_pos spoilt.above)

/-- What arrives is put behind the header. -/
theorem extend (spoilt : b.Spoilt size) (piece : Bytes) : (b.extend piece).Spoilt size where
  untaken := spoilt.untaken
  announced := by
    obtain ⟨h, read, same⟩ := spoilt.announced
    exact ⟨h, Header.decode?_append read piece, same⟩
  above := spoilt.above

/-- A push finds the same header again, and nothing else. -/
theorem push (spoilt : b.Spoilt size) (piece : Bytes) :
    b.push piece = (.error (.oversized size b.limit), b.extend piece) := by
  have yield := takeFrames_of_refused (spoilt.extend piece).next
  rw [push_of_refused (congrArg Yield.failure? yield), yield]
  rfl

theorem pushAll (spoilt : b.Spoilt size) (pieces : List Bytes) :
    b.pushAll pieces =
      (List.replicate pieces.length (.error (.oversized size b.limit)),
        b.extend pieces.flatten) := by
  induction pieces generalizing b with
  | nil =>
    rw [List.flatten_nil, extend_nil]
    rfl
  | cons piece pieces ih =>
    rw [FrameBuffer.pushAll, spoilt.push]
    simp only [ih (spoilt.extend piece)]
    rw [List.flatten_cons, extend_append]
    rfl

theorem size_le (spoilt : b.Spoilt size) : Header.size ≤ b.size := by
  obtain ⟨h, read, -⟩ := spoilt.announced
  exact Header.size_le_of_decode? read

/-- At the end of the stream it is as if the header had been cut off. -/
theorem finish (spoilt : b.Spoilt size) :
    b.finish.1 = .error (.shortRead Header.size b.size) := by
  have some : b.pending ≠ [] := by
    intro none
    have enough := spoilt.size_le
    rw [FrameBuffer.size, none] at enough
    exact absurd enough (by decide)
  unfold FrameBuffer.finish
  simp only [spoilt.untaken]
  rw [if_neg (by rw [List.isEmpty_iff]; exact some)]
  rfl

end Spoilt

/-- What is refused is left in front. -/
theorem spoilt_of_refused {b : FrameBuffer} {failure : DecodeFailure}
    (refused : b.next = .refused failure) :
    ∃ size, failure = .oversized size b.limit ∧ b.Spoilt size := by
  rcases b.next_cases with ⟨h, -, same⟩ | ⟨-, -, same⟩ | ⟨h, found, missing, read, kept, same⟩ |
    ⟨h, -, -, -, same⟩
  · exact absurd (same ▸ refused) (takePayload_ne_refused _ h failure)
  · exact Front.noConfusion (same ▸ refused)
  · obtain rfl := Front.refused.inj (same.symm.trans refused)
    unfold Header.check at kept
    split at kept
    next above => exact ⟨h.length, (Except.error.inj kept).symm, missing, ⟨h, read, rfl⟩, above⟩
    next => cases kept
  · exact absurd (same ▸ refused) (takePayload_ne_refused _ h failure)

/-- A push that fails leaves a spoilt buffer, whatever it has found in front of the header. -/
theorem spoilt_of_push {b : FrameBuffer} {piece : Bytes} {failure : DecodeFailure}
    (failed : (b.push piece).1 = .error failure) :
    ∃ size, failure = .oversized size b.limit ∧ (b.push piece).2.Spoilt size := by
  cases refused : (b.extend piece).takeFrames.failure? with
  | none =>
    rw [push_of_accepted refused] at failed
    cases failed
  | some found =>
    rw [push_of_refused refused] at failed ⊢
    obtain rfl := Except.error.inj failed
    obtain ⟨size, same, spoilt⟩ := spoilt_of_refused (next_rest_of_refused refused)
    rw [limit_takeFrames] at same
    exact ⟨size, same, spoilt⟩

/-! ## Until the reset -/

/-- The buffer refuses whatever is pushed. It says the same each time, takes nothing off and keeps
all that has arrived, up to the end of the stream. -/
structure Refuses (size max : UInt32) (b : FrameBuffer) : Prop where
  pushes : ∀ pieces : List Bytes, b.pushAll pieces =
    (List.replicate pieces.length (.error (.oversized size max)),
      { b with pending := b.pending ++ pieces.flatten })
  finish : b.finish.1 = .error (.shortRead 8 b.pending.length)
  least : 8 ≤ b.pending.length

theorem Spoilt.refuses {size : UInt32} {b : FrameBuffer} (spoilt : b.Spoilt size) :
    b.Refuses size b.limit := ⟨spoilt.pushAll, spoilt.finish, spoilt.size_le⟩

/-- **The law of refusal.** Once a push has met a header that is too long, all pushes up to the next
reset do, so that nothing behind it is ever found; and a reset, be it also the end of the stream,
makes a buffer with any past the same as a fresh one. -/
theorem refused_until_reset (limit : UInt32) (past : List Request) :
    (∀ (before : List Request) (piece : Bytes) (since : List Bytes) (size max : UInt32),
      past = before ++ .push piece :: since.map .push →
      (((empty limit).performAll before).2.push piece).1 = .error (.oversized size max) →
        max = limit ∧ limit < size ∧ ((empty limit).performAll past).2.Refuses size max) ∧
    (∀ reset : Request, reset.resets = true → ∀ later : List Request,
      (((empty limit).performAll past).2.perform reset).2.performAll later =
        (empty limit).performAll later) := by
  have known : ∀ requests, ((empty limit).performAll requests).2.limit = limit :=
    fun requests => limit_performAll (empty limit) requests
  constructor
  · rintro before piece since size max rfl failed
    obtain ⟨found, same, spoilt⟩ := spoilt_of_push failed
    obtain ⟨rfl, rfl⟩ := DecodeFailure.oversized.inj same
    have above := spoilt.above
    rw [limit_push, known] at above
    refine ⟨known before, above, ?_⟩
    have reached : ((empty limit).performAll (before ++ .push piece :: since.map .push)).2 =
        (((empty limit).performAll before).2.push piece).2.extend since.flatten := by
      rw [performAll_append]
      show ((((empty limit).performAll before).2.push piece).2.performAll (since.map .push)).2 = _
      rw [performAll_pushes, spoilt.pushAll]
    have still := (spoilt.extend since.flatten).refuses
    rw [reached, ← limit_push ((empty limit).performAll before).2 piece]
    exact still
  · intro reset resets later
    rw [perform_of_resets _ resets, known]

/-- A frame, a header that announces five bytes where four are allowed, and then two more frames of
which nothing is ever seen. -/
theorem refused_until_reset_although_frames_follow :
    let frame : Bytes := [0x23, 0x23, 0, 2, 0, 0, 0, 1, 0x2a]
    let header : Bytes := [0x23, 0x23, 0, 2, 0, 0, 0, 5]
    let past : List Request := [.push (frame ++ header), .push frame, .push frame]
    let b := ((empty 4).performAll past).2
    ((empty 4).push (frame ++ header)).1 = .error (.oversized 5 4) ∧
      b.Refuses 5 4 ∧ b.pending = header ++ frame ++ frame ∧
      ((b.perform .finish).2.push frame).1 = .ok [⟨⟨2, 1⟩, [0x2a]⟩] := by
  intro frame header past b
  have failed : ((empty 4).push (frame ++ header)).1 = .error (.oversized 5 4) := by cbv
  have law := refused_until_reset 4 past
  have fresh := congrArg Prod.fst (law.2 .finish rfl [.push frame])
  have kept : b.pending = header ++ frame ++ frame := by
    dsimp only [b, past, header, frame]
    cbv
  refine ⟨failed, (law.1 [] (frame ++ header) [frame, frame] 5 4 rfl failed).2.2, kept, ?_⟩
  have found : ((empty 4).push frame).1 = .ok [⟨⟨2, 1⟩, [0x2a]⟩] := by cbv
  exact (Reply.pushed.inj (List.cons.inj fresh).1).trans found

end FrameBuffer

end HardwareSigner
