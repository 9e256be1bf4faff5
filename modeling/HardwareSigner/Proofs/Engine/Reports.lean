import HardwareSigner.Proofs.Engine.Links
import HardwareSigner.Proofs.Engine.Transcript
import HardwareSigner.Proofs.Frame.Blocks
import HardwareSigner.Proofs.Report.Joining

/-!
# Reports of a device carry frames in spite of hiccups

Between a device and the listeners bytes are cut three times: into reports, into the messages that a
read that times out ends, and into frames. None of these cuts has to fall together with another.
What an engine has heard of a device and what is still to be read there are together what has come,
byte for byte:

> `Engine.consumed_run`: this is so in every run, if all reads are sound.
> `Engine.told_of_reports`: so the listeners are told the messages whose frames the device carries.
-/

namespace HardwareSigner

/-! ## What a link still has to read -/

/-- The reads that some arrivals add at a device. -/
def Arrival.reads (arrivals : List Arrival) : List Report.Read :=
  arrivals.flatMap fun arrival =>
    match arrival with
    | .reports reads => reads
    | _ => []

theorem Device.reads_writeAll (d : Device) (reports : List Bytes) :
    (d.writeAll reports).2.reads = d.reads := by
  induction reports generalizing d with
  | nil => rfl
  | cons report reports ih =>
    have wrote : (d.write report).2.reads = d.reads := rfl
    unfold writeAll
    split
    next failure after same =>
      rw [same] at wrote
      exact wrote
    next count after same =>
      rw [same] at wrote
      split
      · exact (ih after).trans wrote
      · exact wrote

theorem HidLink.reads_openLink (l : HidLink) : l.openLink.2.device.reads = l.device.reads := by
  have line : (Bridge.enable true l.device).2.reads = l.device.reads := rfl
  unfold openLink
  split
  · rfl
  · split
    next failure device same =>
      rw [same] at line
      exact line
    next device same =>
      rw [same] at line
      have queues : (Bridge.purge .both device).2.reads = device.reads := rfl
      split
      next failure last also =>
        rw [also] at queues
        exact queues.trans line
      next last also =>
        rw [also] at queues
        exact queues.trans line

namespace ScriptedLink

/-- The link leads to a device on which `unread` is still to be read. -/
structure Attached (l : ScriptedLink) (unread : List Report.Read) : Prop where
  device : ∃ hid, l.hid? = some hid ∧ hid.device.reads = unread
  lasting : l.ended = false

/-- The reads that the answer to a write adds at a device. -/
def answers (l : ScriptedLink) (block : Bytes) (failure? : Option String) : List Report.Read :=
  match (l.write block failure?).1 with
  | .ok () => Arrival.reads (l.replies.headD [])
  | .error _ => []

namespace Attached

variable {l : ScriptedLink} {unread : List Report.Read}

theorem feed (attached : l.Attached unread) (arrivals : List Arrival) :
    (l.feed arrivals).Attached (unread ++ Arrival.reads arrivals) := by
  obtain ⟨⟨hid, there, rfl⟩, lasting⟩ := attached
  refine ⟨⟨hid.feed (Arrival.reads arrivals), ?_, rfl⟩, lasting⟩
  show l.hid?.map _ = _
  rw [there]
  rfl

theorem planOpen (attached : l.Attached unread) : l.planOpen.2.Attached unread :=
  ⟨attached.device, attached.lasting⟩

theorem planWrite (attached : l.Attached unread) : l.planWrite.2.Attached unread :=
  ⟨attached.device, attached.lasting⟩

theorem openLink (attached : l.Attached unread) (failure? : Option String) :
    (l.openLink failure?).2.Attached unread := by
  obtain ⟨⟨hid, there, rfl⟩, lasting⟩ := attached
  unfold ScriptedLink.openLink
  split
  · exact ⟨⟨hid, there, rfl⟩, lasting⟩
  · exact ⟨⟨hid, there, rfl⟩, lasting⟩
  next found also =>
    cases there.symm.trans also
    exact ⟨⟨_, rfl, hid.reads_openLink⟩, lasting⟩

theorem write (attached : l.Attached unread) (block : Bytes) (failure? : Option String) :
    (l.write block failure?).2.Attached (unread ++ l.answers block failure?) := by
  obtain ⟨⟨hid, there, rfl⟩, lasting⟩ := attached
  unfold answers ScriptedLink.write
  cases failure? with
  | some text => exact ⟨⟨hid, there, (List.append_nil _).symm⟩, lasting⟩
  | none =>
    rw [there]
    have kept : (hid.send block).2.device.reads = hid.device.reads :=
      hid.device.reads_writeAll (Report.chunk block)
    simp only
    split
    next failure after same =>
      rw [same] at kept
      exact ⟨⟨after, rfl, kept.trans (List.append_nil _).symm⟩, lasting⟩
    next after same =>
      rw [same] at kept
      have sent : ({ l with
          hid? := some after, written := l.written ++ [block], replies := l.replies.tail } :
          ScriptedLink).Attached hid.device.reads := ⟨⟨after, rfl, kept⟩, lasting⟩
      exact sent.feed (l.replies.headD [])

theorem close (attached : l.Attached unread) : l.close.2.Attached unread := by
  obtain ⟨⟨hid, there, rfl⟩, lasting⟩ := attached
  unfold ScriptedLink.close
  rw [there]
  exact ⟨⟨_, rfl, rfl⟩, lasting⟩

/-- A read joins what the device has to read up to the next timeout. -/
theorem receive? (attached : l.Attached unread) {outcome : Except Failure Received}
    {after : ScriptedLink} (receives : l.receive? = some (outcome, after)) :
    outcome = (Report.reassemble unread).outcome.map Received.ofReassembly ∧
      after.Attached (Report.reassemble unread).rest := by
  obtain ⟨⟨hid, there, rfl⟩, lasting⟩ := attached
  unfold ScriptedLink.receive? at receives
  rw [there] at receives
  cases inbox : l.inbox with
  | nil =>
    simp only [inbox, lasting] at receives
    cases receives
  | cons arrival rest =>
    simp only [inbox] at receives
    cases receives
    exact ⟨rfl, ⟨_, rfl, rfl⟩, lasting⟩

end Attached

end ScriptedLink

namespace Engine

variable {M : Type}

/-! ## What has been heard and what is left -/

/-- Of `reads` some have been heard, with all their bytes, and the rest is left. -/
structure Consumes (reads : List Report.Read) (heard : List (Except Failure Received))
    (left : List Report.Read) : Prop where
  pieces : ∀ outcome ∈ heard, Intake.IsPiece outcome
  bytes : (Intake.pieces heard).flatten ++ Report.carried left = Report.carried reads
  sound : ∀ read ∈ left, read.Sound

namespace Consumes

variable {reads left last more : List Report.Read}
  {heard later : List (Except Failure Received)}

theorem refl (sound : ∀ read ∈ reads, read.Sound) : Consumes reads [] reads where
  pieces _ among := by cases among
  bytes := rfl
  sound := sound

theorem trans (first : Consumes reads heard left) (second : Consumes left later last) :
    Consumes reads (heard ++ later) last where
  pieces outcome among :=
    (List.mem_append.mp among).elim (first.pieces outcome) (second.pieces outcome)
  bytes := by
    rw [Intake.pieces, List.flatMap_append, List.flatten_append, List.append_assoc]
    show _ ++ ((Intake.pieces later).flatten ++ _) = _
    rw [second.bytes]
    exact first.bytes
  sound := second.sound

theorem feed (consumes : Consumes reads heard left) (sound : ∀ read ∈ more, read.Sound) :
    Consumes (reads ++ more) heard (left ++ more) where
  pieces := consumes.pieces
  bytes := by
    rw [Report.carried_append, Report.carried_append, ← List.append_assoc, consumes.bytes]
  sound read among :=
    (List.mem_append.mp among).elim (consumes.sound read) (sound read)

/-- One message is joined. -/
theorem reassemble (sound : ∀ read ∈ reads, read.Sound) :
    Consumes reads [(Report.reassemble reads).outcome.map Received.ofReassembly]
      (Report.reassemble reads).rest := by
  obtain ⟨reassembly, taken, outcome, split, bytes⟩ := Report.reassemble_of_sound sound
  have whole : (Intake.pieces [.ok (Received.ofReassembly reassembly)]).flatten =
      Report.carried taken := by
    rw [← bytes]
    cases reassembly with
    | complete payload => exact List.append_nil payload
    | idle => rfl
  rw [outcome]
  refine ⟨?_, ?_, fun read among => sound read (split ▸ List.mem_append_right taken among)⟩
  · intro heard among
    cases List.mem_singleton.mp among
    cases reassembly with
    | complete payload => exact Or.inr ⟨payload, rfl⟩
    | idle => exact Or.inl rfl
  · show (Intake.pieces [.ok (Received.ofReassembly reassembly)]).flatten ++ _ = _
    rw [whole, ← Report.carried_append, ← split]

end Consumes

/-- The reads that an action adds at the device. -/
def arrives (w : Site M) (deed : Deed M) : List Report.Read :=
  match deed, actor w deed with
  | .outside (.feed arrivals), _ => Arrival.reads arrivals
  | _, some (_, .inl (.writing block _ failure?)) => w.state.link.answers block failure?
  | _, _ => []

section

variable {w : Site M} {unread : List Report.Read}

theorem hears_of_actor {deed : Deed M} {task : TaskId} {stage : Stage M}
    (acts : actor w deed = some (task, stage)) : hears w deed = heardBy w.state stage := by
  obtain ⟨rfl, ready, there⟩ := run_of_actor acts
  unfold hears
  simp only [ready, if_true, there, Option.map_some, Option.getD_some]

theorem hears_of_nobody {deed : Deed M} (idle : actor w deed = none) : hears w deed = [] := by
  cases deed with
  | run task =>
    cases ready : w.ready machine task with
    | false => exact if_neg (Bool.eq_false_iff.mp ready)
    | true =>
      cases there : stages w task with
      | none =>
        unfold hears
        simp only [ready, if_true, there, Option.map_none, Option.getD_none]
      | some stage => cases (actor_of_run ready there).symm.trans idle
  | _ => rfl

/-- What the reader does to the link is to read from it. -/
theorem attached_read (attached : w.state.link.Attached unread)
    (sound : ∀ read ∈ unread, read.Sound) (reading : Reading M) :
    ∃ left, Consumes unread (heardBy w.state (.inr reading)) left ∧
      (reading.linkAfter w.state).Attached left := by
  have rests : Consumes unread [] unread := .refl sound
  cases reading with
  | receiving intake =>
    cases quiet : w.state.aborted || w.state.registry.shutdown with
    | true =>
      have deaf : heardBy w.state (.inr (.receiving intake)) = [] := if_pos quiet
      have same : (Reading.receiving intake).linkAfter w.state = w.state.link := if_pos quiet
      rw [deaf, same]
      exact ⟨unread, rests, attached⟩
    | false =>
      have hears : heardBy w.state (.inr (.receiving intake)) =
          (w.state.link.receive?.map Prod.fst).toList := if_neg (Bool.eq_false_iff.mp quiet)
      have reads : (Reading.receiving intake).linkAfter w.state =
          (w.state.link.receive?.map Prod.snd).getD w.state.link :=
        if_neg (Bool.eq_false_iff.mp quiet)
      rw [hears, reads]
      cases receives : w.state.link.receive? with
      | none => exact ⟨unread, rests, attached⟩
      | some received =>
        obtain ⟨outcome, after⟩ := received
        obtain ⟨rfl, left⟩ := attached.receive? receives
        exact ⟨_, .reassemble sound, left⟩
  | _ => exact ⟨unread, rests, attached⟩

/-- A call leaves what is to be read as it is, but the device may answer what is written. -/
theorem attached_call (attached : w.state.link.Attached unread) (phase : EngineCall.Phase M)
    {deed : Deed M} {task : TaskId} (acts : actor w deed = some (task, .inl phase)) :
    (phase.linkAfter w.state).Attached (unread ++ arrives w deed) := by
  obtain ⟨rfl, -, -⟩ := run_of_actor acts
  have closes :
      (if w.state.writer then w.state.link.close.2 else w.state.link).Attached unread := by
    split
    · exact attached.close
    · exact attached
  unfold arrives
  rw [acts]
  cases phase with
  | writing block latest failure? => exact attached.write block failure?
  | connecting => rw [List.append_nil]; exact attached.planOpen
  | opening latest failure? => rw [List.append_nil]; exact attached.openLink failure?
  | sending block =>
    rw [List.append_nil]
    show (if w.state.writer then w.state.link.planWrite.2 else w.state.link).Attached unread
    split
    · exact attached.planWrite
    · exact attached
  | retracting => rw [List.append_nil]; exact closes
  | detaching => rw [List.append_nil]; exact closes
  | _ => rw [List.append_nil]; exact attached

/-- What an action lets the reader hear it takes from the device, and what arrives is added. -/
theorem attached_apply (numbered : w.Numbered) (attached : w.state.link.Attached unread)
    (sound : ∀ read ∈ unread, read.Sound) (deed : Deed M) :
    ∃ left, Consumes unread (hears w deed) left ∧
      (w.apply machine deed).state.link.Attached (left ++ arrives w deed) := by
  have rests : Consumes unread [] unread := .refl sound
  rw [link_apply numbered]
  cases acts : actor w deed with
  | none =>
    rw [hears_of_nobody acts]
    have same : w.state.link.Attached (unread ++ []) := (List.append_nil unread).symm ▸ attached
    refine ⟨unread, rests, ?_⟩
    cases deed with
    | run task =>
      simp only [linkAfter, arrives, acts]
      exact same
    | outside act =>
      cases act with
      | feed arrivals => exact attached.feed arrivals
      | _ => exact same
    | _ => exact same
  | some found =>
    obtain ⟨task, stage⟩ := found
    rw [hears_of_actor acts]
    obtain ⟨rfl, -, -⟩ := run_of_actor acts
    rcases stage with phase | reading
    · have link : linkAfter w (.run task) = phase.linkAfter w.state := by
        simp only [linkAfter, acts]
      rw [link]
      exact ⟨unread, rests, attached_call attached phase acts⟩
    · have link : linkAfter w (.run task) = reading.linkAfter w.state := by
        simp only [linkAfter, acts]
      have nothing : arrives w (.run task) = [] := by
        simp only [arrives, acts]
      rw [link, nothing]
      obtain ⟨left, consumes, after⟩ := attached_read attached sound reading
      exact ⟨left, consumes, (List.append_nil left).symm ▸ after⟩

end

/-- In every run what has been heard of the device and what is left there is what has come. -/
theorem consumed_run {w : Site M} {told : List (TaskId × Event M)} {tried : List (Event M)}
    {unread : List Report.Read} {deeds : List (Deed M)} (kept : Kept w told tried)
    (attached : w.state.link.Attached unread) (obeys : w.Obeys machine Lawful deeds)
    (sound : ∀ read ∈ unread ++ w.history machine arrives deeds, read.Sound) :
    ∃ left, Consumes (unread ++ w.history machine arrives deeds) (w.history machine hears deeds)
        left ∧ (w.applyAll machine deeds).state.link.Attached left := by
  have all : (∀ read ∈ unread ++ w.history machine arrives deeds, read.Sound) →
      ∃ left, Consumes (unread ++ w.history machine arrives deeds) (w.history machine hears deeds)
        left ∧ (w.applyAll machine deeds).state.link.Attached left := by
    refine World.keeps_run (fun sound => ?_) (fun before deed earlier lawful consumed sound => ?_)
      obeys
    · rw [World.history, List.append_nil] at sound ⊢
      exact ⟨unread, .refl sound, attached⟩
    · rw [World.history_snoc, ← List.append_assoc] at sound
      rw [World.history_snoc, World.history_snoc, World.applyAll_snoc, ← List.append_assoc]
      obtain ⟨left, consumes, there⟩ :=
        consumed fun read among => sound read (List.mem_append_left _ among)
      obtain ⟨last, now, after⟩ := attached_apply (kept_run kept earlier).numbered there
        consumes.sound deed
      have fresh : ∀ read ∈ arrives (w.applyAll machine before) deed, read.Sound :=
        fun read among => sound read (List.mem_append_right _ among)
      exact ⟨_, (consumes.trans now).feed fresh, after⟩
  exact all sound

end Engine

/-! ## What is told of the beginning of some frames -/

namespace FrameBuffer

/-- The beginning of written frames yields the first of them, and all if it is all. -/
theorem takeFrames_of_begun {limit : UInt32} {frames : List Frame} {bytes more : Bytes}
    (counted : ∀ f ∈ frames,
      f.payload.length = f.header.length.toNat ∧ f.header.length ≤ limit)
    (begun : bytes ++ more = frames.flatMap Frame.toBytes) :
    ((empty limit).extend bytes).takeFrames.failure? = none ∧
      ((empty limit).extend bytes).takeFrames.frames <+: frames ∧
      (more = [] → ((empty limit).extend bytes).takeFrames.frames = frames) := by
  have whole := takeFrames_of_written counted
  rw [← begun, extend_append] at whole
  cases found : ((empty limit).extend bytes).takeFrames.failure? with
  | some failure =>
    -- A header that is refused would be refused among all the frames, too.
    rw [takeFrames_extend_of_refused found] at whole
    exact absurd (congrArg Yield.failure? whole) (by rw [found]; exact Option.some_ne_none failure)
  | none =>
    refine ⟨rfl, ?_, fun all => ?_⟩
    · rw [takeFrames_extend_of_accepted found] at whole
      exact ⟨_, congrArg Yield.frames whole⟩
    · rw [all, extend_nil] at whole
      exact congrArg Yield.frames whole

end FrameBuffer

/-- The event that a frame is to those who do not look into its payload. -/
def RawMessage.ofFrame (f : Frame) : Event RawMessage := .message f.type ⟨f.type, f.payload⟩

namespace Intake

/-- Nothing is lost where nothing is refused. -/
theorem not_loses_of_accepted {M : Type} {codec : Codec M} {waiting : FrameBuffer}
    {pieces : List Bytes} (accepted : (waiting.extend pieces.flatten).takeFrames.failure? = none) :
    ¬ Loses codec waiting pieces := by
  intro loses
  induction loses with
  | @here waiting piece later refused found =>
    obtain ⟨failure, refused⟩ := Option.isSome_iff_exists.mp refused
    rw [List.flatten_cons, FrameBuffer.extend_append,
      FrameBuffer.takeFrames_extend_of_refused refused, refused] at accepted
    cases accepted
  | @later waiting piece later first goesOn loses ih =>
    rw [List.flatten_cons, FrameBuffer.extend_append,
      FrameBuffer.takeFrames_extend_of_accepted first] at accepted
    exact ih accepted

/-- Every frame is a raw message. -/
theorem events_raw (frames : List Frame) :
    events RawMessage.codec.toCodec frames = (frames.map RawMessage.ofFrame, .goOn) := by
  induction frames with
  | nil => rfl
  | cons f frames ih =>
    have decoded : RawMessage.codec.toCodec.decode f = .ok ⟨f.type, f.payload⟩ := rfl
    rw [events, decoded]
    simp only [ih]
    rfl

/-- What pieces come to that begin some written frames: the first of these, and all of them if the
pieces are complete. -/
theorem transcript_of_begun {limit : UInt32} {frames : List Frame}
    (counted : ∀ f ∈ frames,
      f.payload.length = f.header.length.toNat ∧ f.header.length ≤ limit)
    {heard : List (Except Failure Received)} (cut : ∀ outcome ∈ heard, IsPiece outcome)
    {more : Bytes} (begun : (pieces heard).flatten ++ more = frames.flatMap Frame.toBytes) :
    (ofLimit limit).transcript RawMessage.codec.toCodec heard <+: frames.map RawMessage.ofFrame ∧
      (more = [] → (ofLimit limit).transcript RawMessage.codec.toCodec heard =
        frames.map RawMessage.ofFrame) := by
  obtain ⟨accepted, first, all⟩ := FrameBuffer.takeFrames_of_begun counted begun
  have told : (ofLimit limit).transcript RawMessage.codec.toCodec heard =
      ((FrameBuffer.empty limit).extend (pieces heard).flatten).takeFrames.frames.map
        RawMessage.ofFrame := by
    have cutting := transcript_of_cutting RawMessage.codec.toCodec
      (FrameBuffer.settled_empty limit) cut []
    rw [List.append_nil] at cutting
    refine (cutting.whole (not_loses_of_accepted accepted)).trans ?_
    unfold due
    rw [events_raw, accepted]
    exact List.append_nil _
  rw [told]
  exact ⟨first.map _, fun complete => by rw [all complete]⟩

end Intake

namespace Engine

/-- What listeners are told of a device whose reports carry the frames of `messages`. -/
structure ToldAsCarried (messages : List (MessageType × Bytes)) (w : Site RawMessage)
    (deeds : List (Deed RawMessage)) : Prop where
  /-- The messages are told in order, each once, and nothing but messages is told of the device. -/
  begins : (w.history machine takes deeds).map Prod.snd <+:
    .system .connected :: messages.map (RawMessage.ofFrame ∘ Frame.written)
  clean : .system .endOfStream ∉ (w.history machine takes deeds).map Prod.snd ∧
    .system .failure ∉ (w.history machine takes deeds).map Prod.snd
  /-- A reader that waits when nothing is left at the device has told all of them. -/
  whole : (w.applyAll machine deeds).state.link.Attached [] →
    (∃ task reading, stages (w.applyAll machine deeds) task = some (.inr reading) ∧
      reading.waits = true) →
    (w.history machine takes deeds).map Prod.snd =
      .system .connected :: messages.map (RawMessage.ofFrame ∘ Frame.written)

/-- However the frames of some messages are spread over sound reports of a device, and wherever its
reads time out between them, listeners are told these messages. -/
theorem told_of_reports (settings : EngineSettings) {link : ScriptedLink}
    {unread : List Report.Read} (attached : link.Attached unread)
    {deeds : List (Deed RawMessage)}
    (obeys : (World.ofState (create RawMessage.codec settings link)).Obeys machine Lawful deeds)
    {messages : List (MessageType × Bytes)}
    (fits : ∀ message ∈ messages, message.2.length ≤ settings.maxPayload.toNat)
    (sound : ∀ read ∈ unread ++
      (World.ofState (create RawMessage.codec settings link)).history machine arrives deeds,
      read.Sound)
    (carries : Report.carried (unread ++
        (World.ofState (create RawMessage.codec settings link)).history machine arrives deeds) =
      (messages.map Frame.written).flatMap Frame.toBytes) :
    ToldAsCarried messages (World.ofState (create RawMessage.codec settings link)) deeds := by
  have kept := kept_create RawMessage.codec settings link
  obtain ⟨left, consumes, there⟩ := consumed_run kept attached obeys sound
  have faithful := faithful_run kept (faithful_create RawMessage.codec settings link) obeys
  rw [List.nil_append, List.nil_append] at faithful
  obtain ⟨first, all⟩ := Intake.transcript_of_begun (Frame.counted_of_mem fits) consumes.pieces
    (consumes.bytes.trans carries)
  rw [List.map_map] at first all
  have begins := faithful.begins.trans ((List.prefix_cons_inj _).mpr first)
  have messages_only : ∀ event : SystemEvent, event ≠ .connected → .system event ∉
      .system .connected :: messages.map (RawMessage.ofFrame ∘ Frame.written) := by
    intro event other among
    rcases List.mem_cons.mp among with same | later
    · exact other (Event.system.inj same)
    · obtain ⟨message, -, same⟩ := List.mem_map.mp later
      cases same
  refine ⟨begins, ⟨fun among => ?_, fun among => ?_⟩, fun nothing waiting => ?_⟩
  · exact messages_only .endOfStream (by decide) (begins.subset among)
  · exact messages_only .failure (by decide) (begins.subset among)
  · obtain ⟨task, reading, at_work, waits⟩ := waiting
    have empty : left = [] := by
      obtain ⟨hid, device, same⟩ := there.device
      obtain ⟨other, also, none⟩ := nothing.device
      cases device.symm.trans also
      exact same.symm.trans none
    rw [faithful.told_of_waits at_work waits, all (by rw [empty]; rfl)]

/-- A link to a device that has nothing to read yet. -/
def deviceLink : ScriptedLink :=
  { hid? := some {
      bus := { devices := [{ path := "", vendor := 0x10c4, product := 0xea80 }] }
      settings := {}
      device := {} } }

/-- Two frames. Reading times out inside the first header, once more after a report without valid
bytes, and the end of the first frame comes in one report with the second. -/
def hiccups : List Report.Read :=
  [.arrived [5, 0x23, 0x23, 0, 2, 0], .arrived [], .arrived [0], .arrived [],
    .arrived [12, 0, 0, 1, 0x2a, 0x23, 0x23, 0, 1, 0, 0, 0, 0]]

/-- The connection is opened, and the device is read three times. -/
def hiccuping : List (Deed RawMessage) :=
  [.start (.call (.begin .connect)), .run 0, .run 0, .run 0, .run 0, .run 0, .run 0, .run 0, .run 0,
    .outside (.feed [.reports hiccups, .reports [], .reports []]), .run 1, .run 1, .run 1, .run 1,
    .run 1, .run 1, .run 1, .run 1, .run 1, .run 1]

theorem told_of_reports_with_hiccups :
    let start : Site RawMessage := World.ofState (create RawMessage.codec {} deviceLink)
    let messages : List (MessageType × Bytes) := [(.success, [0x2a]), (.ping, [])]
    deviceLink.Attached [] ∧ start.Obeys machine Lawful hiccuping ∧
      (∀ message ∈ messages, message.2.length ≤ ({} : EngineSettings).maxPayload.toNat) ∧
      (∀ read ∈ [] ++ start.history machine arrives hiccuping, read.Sound) ∧
      Report.carried ([] ++ start.history machine arrives hiccuping) =
        (messages.map Frame.written).flatMap Frame.toBytes ∧
      ToldAsCarried messages start hiccuping ∧
      (start.history machine takes hiccuping).map Prod.snd =
        [.system .connected, .message .success ⟨.success, [0x2a]⟩, .message .ping ⟨.ping, []⟩] := by
  intro start messages
  have attached : deviceLink.Attached [] := ⟨⟨_, rfl, rfl⟩, rfl⟩
  have obeys : start.Obeys machine Lawful hiccuping :=
    ⟨trivial, trivial, trivial, trivial, trivial, trivial, trivial, trivial, trivial, trivial,
      trivial, trivial, trivial, trivial, trivial, trivial, trivial, trivial, trivial, trivial,
      trivial⟩
  have fits : ∀ message ∈ messages, message.2.length ≤ ({} : EngineSettings).maxPayload.toNat := by
    decide
  have arrived : [] ++ start.history machine arrives hiccuping = hiccups := by decide +kernel
  have sound : ∀ read ∈ [] ++ start.history machine arrives hiccuping, read.Sound := by
    rw [arrived]
    decide
  have carries : Report.carried ([] ++ start.history machine arrives hiccuping) =
      (messages.map Frame.written).flatMap Frame.toBytes := by
    rw [arrived]
    decide
  exact ⟨attached, obeys, fits, sound, carries,
    told_of_reports {} attached obeys fits sound carries, by decide +kernel⟩

end Engine

end HardwareSigner
