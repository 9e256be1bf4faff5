import HardwareSigner.Frame.Reader
import HardwareSigner.Proofs.Frame.Pieces

/-!
# Reading frames and pushing pieces come to the same

There are two ways from bytes to frames. A buffer is filled with pieces and takes off what is
complete; a reader asks a source for a header and then for its payload. This file shows that they
agree on every run of bytes, well formed or not.

A source is `Fair` if it hands out at least one byte at each read while it has any, and does not
fail. Then filling does not depend on how many bytes it hands out at a time (`fill_of_fair`), and
one frame read is one step at the front of a fresh buffer that holds the same bytes
(`read_of_fair`). `Frame.readAll` reads frame by frame until the source ends or an error occurs:

> `readAll_of_fair`: the frames and the outcome are those of all the bytes in one fresh buffer.

With what `Pieces` says about pushes this is the agreement of the two:

> `reading_agrees_with_pushing`: the same frames, and the same outcome for the same reason.
-/

namespace HardwareSigner

theorem Header.decode?_take {bytes : Bytes} {h : Header} (read : decode? bytes = some h) :
    decode? (bytes.take size) = some h := by
  cases first : decode? (bytes.take size) with
  | none =>
    have few := (decode?_eq_none_iff _).mp first
    rw [List.length_take, Nat.min_eq_left (size_le_of_decode? read)] at few
    exact absurd few (Nat.lt_irrefl size)
  | some found =>
    -- The eight bytes make a header, and with the bytes behind them it is the same header.
    have whole := decode?_append first (bytes.drop size)
    rw [List.take_append_drop, read] at whole
    exact whole.symm

namespace Source

/-- Hands out bytes as long as it has any, and never fails. -/
structure Fair (s : Source) : Prop where
  faultless : s.fault? = none
  positive : ∀ n, 0 < s.allowance n

/-! ## Filling -/

theorem rest_of_read {s after : Source} {want : Nat} {bytes : Bytes}
    (h : s.read want = (.ok bytes, after)) : s.rest = bytes ++ after.rest := by
  unfold read at h
  simp only at h
  split at h
  next empty =>
    split at h
    next => cases h
    next => cases h; rfl
  next =>
    cases h
    exact (List.take_append_drop _ _).symm

/-- What has been read and what is left is what there was. -/
theorem rest_of_fill {s after : Source} {want : Nat} {bytes : Bytes}
    (h : s.fill want = (.ok bytes, after)) : s.rest = bytes ++ after.rest := by
  induction want using Nat.strongRecOn generalizing s after bytes with
  | ind want ih =>
    rw [fill] at h
    split at h
    next => cases h; rfl
    next more =>
      split at h
      next => cases h
      next found =>
        cases h
        exact rest_of_read found
      next b first between found =>
        split at h
        next => cases h
        next second last filled =>
          cases h
          rw [rest_of_read found, ih _ (by omega) filled, List.append_assoc]

/-- A read of a fair source that has bytes gives some of them. -/
theorem Fair.read {s : Source} (fair : s.Fair) {want : Nat} (some : s.rest ≠ [])
    (more : 0 < want) :
    ∃ b bytes after, s.read want = (.ok (b :: bytes), after) ∧ after.Fair := by
  obtain ⟨b, rest, split⟩ := List.exists_cons_of_ne_nil some
  obtain ⟨count, counted⟩ : ∃ count, min want (s.allowance s.reads) = count + 1 := by
    have positive := fair.positive s.reads
    exact Nat.exists_eq_succ_of_ne_zero (by omega)
  refine ⟨b, rest.take count,
    { s with reads := s.reads + 1, rest := rest.drop count }, ?_, fair.faultless, fair.positive⟩
  simp [Source.read, split, counted]

theorem Fair.read_nil {s : Source} (fair : s.Fair) (none : s.rest = []) (want : Nat) :
    ∃ after, s.read want = (.ok [], after) ∧ after.Fair := by
  refine ⟨{ s with reads := s.reads + 1 }, ?_, fair.faultless, fair.positive⟩
  rw [Source.read, none, fair.faultless]
  rfl

/-- However a fair source hands out its bytes, filling takes as many as are wanted. -/
theorem fill_of_fair {s : Source} (fair : s.Fair) (want : Nat) :
    ∃ after, s.fill want = (.ok (s.rest.take want), after) ∧ after.rest = s.rest.drop want ∧
      after.Fair := by
  induction want using Nat.strongRecOn generalizing s with
  | ind want ih =>
    rw [fill]
    split
    next none =>
      subst none
      exact ⟨s, rfl, rfl, fair⟩
    next some =>
      by_cases ended : s.rest = []
      · -- The source has nothing left: what there is has been taken.
        obtain ⟨after, found, stays⟩ := fair.read_nil ended want
        have left := rest_of_read found
        rw [found]
        rw [ended] at left ⊢
        exact ⟨after, by rw [List.take_nil], left.symm.trans List.drop_nil.symm, stays⟩
      · -- One read gives some of the bytes, the reads after it the rest of them.
        obtain ⟨b, bytes, between, found, stays⟩ := fair.read ended (Nat.pos_of_ne_zero some)
        have within : (b :: bytes).length ≤ want := length_le_of_read found
        obtain ⟨after, filled, left, fairly⟩ := ih (want - (bytes.length + 1))
          (by rw [List.length_cons] at within; omega) stays
        rw [found]
        simp only [filled]
        refine ⟨after, ?_, ?_, fairly⟩
        · rw [rest_of_read found, List.take_append (i := want), List.take_of_length_le within]
          rfl
        · rw [left, rest_of_read found, List.drop_append (i := want),
            List.drop_eq_nil_of_le within]
          rfl

end Source

namespace Frame

/-! ## One frame -/

theorem length_lt_of_read {s after : Source} {limit : UInt32} {f : Frame}
    (h : Frame.read s limit = (.ok (some f), after)) : after.rest.length < s.rest.length := by
  unfold Frame.read at h
  split at h
  next => cases h
  next => cases h
  next bytes between some filled =>
    have header := congrArg List.length (Source.rest_of_fill filled)
    have positive : 0 < bytes.length := List.length_pos_iff.mpr fun none => by
      subst none
      exact some rfl
    split at h
    next => cases h
    next =>
      split at h
      next => cases h
      next =>
        split at h
        next => cases h
        next payload last found =>
          have body := congrArg List.length (Source.rest_of_fill found)
          split at h
          next => cases h
          next =>
            cases h
            rw [List.length_append] at header body
            omega

/-- A fresh buffer with all the bytes of a source. -/
def gathered (s : Source) (limit : UInt32) : FrameBuffer := (FrameBuffer.empty limit).extend s.rest

/-- What the beginning of a frame means at the end of a source. -/
def ending (b : FrameBuffer) : Except Failure (Option Frame) :=
  match b.finish.1 with
  | .ok () => .ok none
  | .error failure => .error (.decode failure)

/-- What reading makes of a header, once it has one. -/
theorem read_of_header {s between : Source} {limit : UInt32} {bytes : Bytes} {h : Header}
    (filled : s.fill Header.size = (.ok bytes, between)) (read : Header.decode? bytes = some h) :
    Frame.read s limit =
      match h.check limit with
      | .error failure => (.error (.decode failure), between)
      | .ok () =>
        match between.fill h.length.toNat with
        | (.error failure, last) => (.error failure, last)
        | (.ok payload, last) =>
          if payload.length < h.length.toNat then
            (.error (.decode (.shortRead h.length.toNat payload.length)), last)
          else (.ok (some ⟨h, payload⟩), last) := by
  cases bytes with
  | nil => cases read
  | cons b bytes =>
    rw [Frame.read, filled]
    dsimp only
    exact read ▸ rfl

/-- What reading makes of fewer bytes than a header has. -/
theorem read_of_short {s between : Source} {limit : UInt32} {bytes : Bytes}
    (filled : s.fill Header.size = (.ok bytes, between)) (short : Header.decode? bytes = none) :
    Frame.read s limit = (ending ((FrameBuffer.empty limit).extend bytes), between) := by
  rw [Frame.read, filled]
  cases bytes with
  | nil => rfl
  | cons b bytes =>
    simp only [short]
    rfl

/-- One frame read from a fair source is one step at the front of a buffer with the same bytes. -/
theorem read_of_fair {s : Source} (fair : s.Fair) (limit : UInt32) :
    ∃ after, after.Fair ∧
      match (gathered s limit).next with
      | .frame f rest => Frame.read s limit = (.ok (some f), after) ∧ rest = gathered after limit
      | .refused failure => Frame.read s limit = (.error (.decode failure), after)
      | .incomplete rest => Frame.read s limit = (ending rest, after) := by
  obtain ⟨between, filled, left, stays⟩ := Source.fill_of_fair fair Header.size
  rcases (gathered s limit).next_cases with ⟨h, there, -⟩ | ⟨-, short, same⟩ |
    ⟨h, failure, -, read, kept, same⟩ | ⟨h, -, read, allowed, same⟩
  · cases there
  · -- There are too few bytes for a header.
    have few : s.rest.length < Header.size := (Header.decode?_eq_none_iff _).mp short
    rw [List.take_of_length_le (Nat.le_of_lt few)] at filled
    refine ⟨between, stays, ?_⟩
    rw [same]
    exact read_of_short filled short
  · refine ⟨between, stays, ?_⟩
    rw [same]
    show Frame.read s limit = _
    rw [read_of_header filled (Header.decode?_take read)]
    simp only [show h.check limit = .error failure from kept]
  · -- The header is allowed, and the rest is a matter of the payload.
    obtain ⟨last, found, behind, fairly⟩ := Source.fill_of_fair stays h.length.toNat
    refine ⟨last, fairly, ?_⟩
    have step : Frame.read s limit = _ := read_of_header filled (Header.decode?_take read)
    simp only [show h.check limit = .ok () from allowed, found, left, List.length_take] at step
    rw [same, step]
    rcases FrameBuffer.takePayload_cases
      { gathered s limit with pending := (gathered s limit).pending.drop Header.size } h with
      ⟨short, front⟩ | ⟨long, front⟩
    · have few : (s.rest.drop Header.size).length < h.length.toNat := short
      rw [front]
      simp only [Nat.min_eq_right (Nat.le_of_lt few), if_pos few]
      rfl
    · have enough : h.length.toNat ≤ (s.rest.drop Header.size).length := long
      rw [front]
      simp only [Nat.min_eq_left enough, if_neg (Nat.lt_irrefl _)]
      refine ⟨rfl, ?_⟩
      rw [gathered.eq_def last, behind, left]
      rfl

/-! ## Frame by frame -/

/-- Reads frame by frame until the source ends or something is wrong: the frames, and how it came
to an end. -/
def readAll (s : Source) (limit : UInt32) : (List Frame × Except Failure Unit) × Source :=
  match _found : Frame.read s limit with
  | (.error failure, after) => (([], .error failure), after)
  | (.ok none, after) => (([], .ok ()), after)
  | (.ok (some frame), after) =>
    let ((frames, outcome), last) := readAll after limit
    ((frame :: frames, outcome), last)
termination_by s.rest.length
decreasing_by exact length_lt_of_read _found

theorem readAll_of_frame {s after : Source} {limit : UInt32} {f : Frame}
    (found : Frame.read s limit = (.ok (some f), after)) :
    (readAll s limit).1 = (f :: (readAll after limit).1.1, (readAll after limit).1.2) := by
  rw [readAll]
  split
  next other => rw [found] at other; cases other
  next other => rw [found] at other; cases other
  next other => rw [found] at other; cases other; rfl

theorem readAll_of_error {s after : Source} {limit : UInt32} {failure : Failure}
    (found : Frame.read s limit = (.error failure, after)) :
    (readAll s limit).1 = ([], .error failure) := by
  rw [readAll]
  split
  next other => rw [found] at other; cases other; rfl
  next other => rw [found] at other; cases other
  next other => rw [found] at other; cases other

theorem readAll_of_none {s after : Source} {limit : UInt32}
    (found : Frame.read s limit = (.ok none, after)) : (readAll s limit).1 = ([], .ok ()) := by
  rw [readAll]
  split
  next other => rw [found] at other; cases other
  next => rfl
  next other => rw [found] at other; cases other

/-- How reading comes to an end where a buffer has no further frame. -/
def outcome (y : FrameBuffer.Yield) : Except Failure Unit :=
  match y.failure? with
  | some failure => .error (.decode failure)
  | none => y.rest.finish.1.mapError .decode

theorem readAll_of_ending {s after : Source} {limit : UInt32} {b : FrameBuffer}
    (found : Frame.read s limit = (ending b, after)) :
    (readAll s limit).1 = ([], outcome ⟨[], none, b⟩) := by
  cases ended : b.finish.1 with
  | ok =>
    rw [ending, ended] at found
    rw [readAll_of_none found, outcome, ended]
    rfl
  | error failure =>
    rw [ending, ended] at found
    rw [readAll_of_error found, outcome, ended]
    rfl

/-- Reading a fair source frame by frame finds what a fresh buffer with all its bytes yields. -/
theorem readAll_of_fair {s : Source} (fair : s.Fair) (limit : UInt32) :
    (readAll s limit).1 =
      ((gathered s limit).takeFrames.frames, outcome (gathered s limit).takeFrames) := by
  obtain ⟨after, stays, step⟩ := read_of_fair fair limit
  cases front : (gathered s limit).next with
  | incomplete rest =>
    rw [front] at step
    rw [readAll_of_ending step, FrameBuffer.takeFrames_of_incomplete front]
  | refused failure =>
    rw [front] at step
    rw [readAll_of_error step, FrameBuffer.takeFrames_of_refused front, outcome]
  | frame f rest =>
    rw [front] at step
    obtain ⟨found, rfl⟩ := step
    have shorter := length_lt_of_read found
    rw [readAll_of_frame found, readAll_of_fair stays limit, FrameBuffer.takeFrames_of_frame front]
    rfl
termination_by s.rest.length

/-! ## The agreement -/

/-- Reading `s` frame by frame and pushing `pieces` into a fresh buffer come to the same. -/
structure AgreesWithPushing (limit : UInt32) (pieces : List Bytes) (s : Source) : Prop where
  /-- How the source hands out its bytes makes no difference to the frames or to the outcome. -/
  any_schedule : ∀ other : Source, other.Fair → other.rest = s.rest →
    (readAll other limit).1 = (readAll s limit).1
  /-- There are only three ways in which reading can end. -/
  outcomes : (readAll s limit).1.2 = .ok () ∨
    (∃ expected actual, (readAll s limit).1.2 = .error (.decode (.shortRead expected actual))) ∨
    (∃ size, (readAll s limit).1.2 = .error (.decode (.oversized size limit)))
  /-- If no header is refused, every push succeeds, all pushes together find the same frames, and
  the end of the stream means the same. -/
  unrefused : (∀ size max, (readAll s limit).1.2 ≠ .error (.decode (.oversized size max))) →
    ∃ found : List (List Frame),
      ((FrameBuffer.empty limit).pushAll pieces).1 = found.map .ok ∧
      found.flatten = (readAll s limit).1.1 ∧
      ((FrameBuffer.empty limit).pushAll pieces).2.finish.1.mapError .decode =
        (readAll s limit).1.2
  /-- If a header is refused, the push that completes it fails for the same reason. All pushes
  before that one succeed and find the first of the frames. -/
  refused : ∀ size max, (readAll s limit).1.2 = .error (.decode (.oversized size max)) →
    ∃ (before : List Bytes) (piece : Bytes) (after : List Bytes) (found : List (List Frame)),
      pieces = before ++ piece :: after ∧
      before.flatten.length <
        ((readAll s limit).1.1.flatMap toBytes).length + Header.size ∧
      ((readAll s limit).1.1.flatMap toBytes).length + Header.size ≤
        (before.flatten ++ piece).length ∧
      ((FrameBuffer.empty limit).pushAll before).1 = found.map .ok ∧
      found.flatten <+: (readAll s limit).1.1 ∧
      (((FrameBuffer.empty limit).pushAll before).2.push piece).1 = .error (.oversized size max)

theorem outcome_of_accepted {y : FrameBuffer.Yield} (accepted : y.failure? = none) :
    outcome y = y.rest.finish.1.mapError .decode := by
  rw [outcome, accepted]

theorem outcome_of_refused {y : FrameBuffer.Yield} {failure : DecodeFailure}
    (refused : y.failure? = some failure) : outcome y = .error (.decode failure) := by
  rw [outcome, refused]

/-- At the end of a stream a buffer holds nothing or too little. -/
theorem finish_cases (b : FrameBuffer) :
    b.finish.1 = .ok () ∨ ∃ expected actual, b.finish.1 = .error (.shortRead expected actual) := by
  unfold FrameBuffer.finish
  split
  next h _ => exact Or.inr ⟨_, _, rfl⟩
  next =>
    split
    next => exact Or.inl rfl
    next => exact Or.inr ⟨_, _, rfl⟩

theorem refused_of_outcome {y : FrameBuffer.Yield} {size max : UInt32}
    (ended : outcome y = .error (.decode (.oversized size max))) :
    y.failure? = some (.oversized size max) := by
  cases failure : y.failure? with
  | none =>
    rw [outcome_of_accepted failure] at ended
    rcases finish_cases y.rest with same | ⟨expected, actual, same⟩ <;> rw [same] at ended <;>
      cases ended
  | some found =>
    rw [outcome_of_refused failure] at ended
    cases ended
    rfl

theorem reading_agrees_with_pushing {limit : UInt32} {pieces : List Bytes} {s : Source}
    (fair : s.Fair) (same : s.rest = pieces.flatten) : AgreesWithPushing limit pieces s := by
  have settled := FrameBuffer.settled_empty limit
  have read := readAll_of_fair fair limit
  have whole : gathered s limit = (FrameBuffer.empty limit).extend pieces.flatten := by
    rw [gathered, same]
  have bytes (data : Bytes) : ((FrameBuffer.empty limit).extend data).held = data.length :=
    FrameBuffer.held_of_missing rfl
  refine ⟨?_, ?_, ?_, ?_⟩
  · -- Both sources come to what a buffer with all the bytes yields.
    intro other fairly rest
    rw [readAll_of_fair fairly, read, gathered, rest, gathered]
  · rw [read]
    cases failure : (gathered s limit).takeFrames.failure? with
    | none =>
      rw [outcome_of_accepted failure]
      rcases finish_cases (gathered s limit).takeFrames.rest with ended | ⟨expected, actual, ended⟩
      · exact Or.inl (by rw [ended]; rfl)
      · exact Or.inr (Or.inl ⟨expected, actual, by rw [ended]; rfl⟩)
    | some found =>
      obtain ⟨size, rfl⟩ := FrameBuffer.oversized_of_takeFrames failure
      exact Or.inr (Or.inr ⟨size, outcome_of_refused failure⟩)
  · intro unrefused
    -- The only thing that a buffer refuses is a header that is too long.
    have accepted : (gathered s limit).takeFrames.failure? = none := by
      cases failure : (gathered s limit).takeFrames.failure? with
      | none => rfl
      | some found =>
        obtain ⟨size, rfl⟩ := FrameBuffer.oversized_of_takeFrames failure
        exact absurd (by rw [read, outcome_of_refused failure]) (unrefused size _)
    rw [read, outcome_of_accepted accepted, whole]
    obtain ⟨found, pushed, joined⟩ :=
      FrameBuffer.pushAll_of_accepted settled (whole ▸ accepted)
    exact ⟨found, by rw [pushed], joined, by rw [pushed]⟩
  · intro size max ended
    rw [read] at ended ⊢
    have refused := refused_of_outcome ended
    rw [whole] at refused ⊢
    obtain ⟨before, piece, after, found, split, short, long, pushed, first, failed⟩ :=
      FrameBuffer.pushAll_of_refused settled refused
    rw [bytes] at short long
    exact ⟨before, piece, after, found, split, short, long, pushed, first, failed⟩

/-- A frame with one byte and a header that announces five, read byte by byte and pushed in three
pieces, of which the last begins inside the second header. Only four bytes are allowed. -/
theorem reading_agrees_on_refused_header :
    let first : Bytes := [0x23, 0x23, 0, 2, 0, 0]
    let second : Bytes := [0, 1, 0x61, 0x23, 0x23, 0]
    let third : Bytes := [2, 0, 0, 0, 5, 0x62]
    let s : Source := ⟨first ++ second ++ third, fun _ => 1, 0, none⟩
    s.Fair ∧ s.rest = [first, second, third].flatten ∧
      AgreesWithPushing 4 [first, second, third] s ∧
      (readAll s 4).1 = ([⟨⟨2, 1⟩, [0x61]⟩], .error (.decode (.oversized 5 4))) ∧
      ((FrameBuffer.empty 4).pushAll [first, second, third]).1 =
        [.ok [], .ok [⟨⟨2, 1⟩, [0x61]⟩], .error (.oversized 5 4)] := by
  intro first second third s
  have fair : s.Fair := ⟨rfl, fun _ => Nat.zero_lt_one⟩
  refine ⟨fair, rfl, reading_agrees_with_pushing fair rfl, ?_, ?_⟩
  · decide +kernel
  · decide +kernel

end Frame

end HardwareSigner
