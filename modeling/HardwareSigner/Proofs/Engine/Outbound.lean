import HardwareSigner.Proofs.Engine.Fates
import HardwareSigner.Proofs.Engine.Reports
import HardwareSigner.Proofs.Engine.Strokes
import HardwareSigner.Proofs.Frame.Blocks
import HardwareSigner.Proofs.Frame.Reading

/-!
# What senders send

However the calls to an engine are interleaved, as long as none is given up, whole frames go out
over its link, one after the other, and only as long as the link is open. Those who send and are
refused have no part in this.

> `Engine.handing_run`: what is handed over, by whom, when, and in which order.
> `Engine.answering_run`: what the senders are answered.
> `Engine.arriving_run`: what arrives at the other end, and what can be read there.

`Engine.outbound_frames` puts the three together.
-/

namespace HardwareSigner

/-! ## Reading back -/

/-- Every type is found under its code, unless it is said to be unknown though its code is
registered. -/
theorem MessageType.ofCode_code {t : MessageType}
    (proper : t.isUnknown = true → t.code ∉ registered.map code) : ofCode t.code = t := by
  cases t with
  | unknown code =>
    have absent : registered.find? (fun other => other.code = code) = none := by
      rw [List.find?_eq_none]
      intro other there same
      exact proper rfl (List.mem_map.mpr ⟨other, there, of_decide_eq_true same⟩)
    show (registered.find? fun other => other.code = code).getD (.unknown code) = _
    rw [absent]
    rfl
  | _ => exact ofCode_code_of_registered _ (by decide)

namespace Frame

variable {message : MessageType × Bytes} {messages : List (MessageType × Bytes)}

theorem toBytes_of_encode {block : Bytes} (whole : encode message.1 message.2 = .ok block) :
    (written message).toBytes = block := by
  unfold encode ofPayload at whole
  split at whole
  · exact Except.ok.inj whole
  · cases whole

theorem flatten_of_encode {entries : List (TaskId × Bytes)}
    (whole : List.Forall₂ (fun entry message => encode message.1 message.2 = .ok entry.2) entries
      messages) :
    (entries.map Prod.snd).flatten = (messages.map written).flatMap toBytes := by
  induction whole with
  | nil => rfl
  | cons first rest ih =>
    rw [List.map_cons, List.flatten_cons, List.map_cons, List.flatMap_cons, ih,
      toBytes_of_encode first]

/-- Whoever reads frame by frame where frames have been written reads these frames. -/
theorem readAll_of_written {limit : UInt32} {source : Source} (fair : source.Fair)
    (fits : ∀ message ∈ messages, message.2.length ≤ limit.toNat)
    (bytes : source.rest = (messages.map written).flatMap toBytes) :
    (readAll source limit).1 = (messages.map written, .ok ()) := by
  rw [readAll_of_fair fair, gathered, bytes,
    FrameBuffer.takeFrames_of_written (counted_of_mem fits)]
  rfl

/-- What is read of a message: its payload, and its type, unless this is said to be unknown though
its code is registered. -/
theorem map_type_written
    (proper : ∀ message ∈ messages, message.1.isUnknown = true →
      message.1.code ∉ MessageType.registered.map MessageType.code) :
    (messages.map written).map (fun f => (f.type, f.payload)) = messages := by
  rw [List.map_map]
  refine (List.map_congr_left fun message there => ?_).trans (List.map_id _)
  exact congrArg (fun type => (type, message.2)) (MessageType.ofCode_code (proper message there))

end Frame

theorem exists_forall₂ {α β : Type} {related : α → β → Prop} {items : List α}
    (each : ∀ item ∈ items, ∃ other, related item other) :
    ∃ others, List.Forall₂ related items others := by
  induction items with
  | nil => exact ⟨[], .nil⟩
  | cons item items ih =>
    obtain ⟨other, first⟩ := each item (List.mem_cons_self ..)
    obtain ⟨others, rest⟩ := ih fun item there => each item (List.mem_cons_of_mem _ there)
    exact ⟨other :: others, .cons first rest⟩

namespace Engine

variable {M : Type}

/-- The call of a task is to send a message. -/
def Sends (codec : RequestCodec M) (start : Site M) (deeds : List (Deed M)) (caller : TaskId)
    (message : MessageType × Bytes) : Prop :=
  ∃ before call, Begins start deeds caller call before ∧
    call.outgoing? codec.toCodec = some (.ok message)

/-- What is handed over in a run. -/
structure Handing (codec : RequestCodec M) (start : Site M) (deeds : List (Deed M)) : Prop where
  /-- Whoever asks to write has just begun to send a message, and has found the engine connected.
  What it asks to write is the frame of this message. -/
  framed : ∀ caller block, (caller, .asks block) ∈ ledger start deeds →
    ∃ before call made, Begins start deeds caller call before ∧
      (start.applyAll machine before).state.state = .connected ∧
      call.outgoing? codec.toCodec = some made ∧ EngineCall.framed made = .ok block
  /-- All such calls ask, -/
  passed : ∀ before caller call made block, Begins start deeds caller call before →
    (start.applyAll machine before).state.state = .connected →
    call.outgoing? codec.toCodec = some made → EngineCall.framed made = .ok block →
      (caller, .asks block) ∈ ledger start deeds
  /-- and once. -/
  once : (((ledger start deeds).blocks Dealing.asked?).map Prod.fst).Nodup
  /-- Whoever then acquires the lock hands its block over. -/
  acquired : (ledger start deeds).blocks Dealing.handed? = start.history machine acquires deeds
  /-- The lock goes to those who have asked, in this order. -/
  order : (ledger start deeds).blocks Dealing.handed? <+: (ledger start deeds).blocks Dealing.asked?
  /-- A block is handed over only when all the others have come to an end. -/
  single : (ledger start deeds).blocks Dealing.ended? <+:
      (ledger start deeds).blocks Dealing.handed? ∧
    ((ledger start deeds).blocks Dealing.handed?).length ≤
      ((ledger start deeds).blocks Dealing.ended?).length + 1
  /-- When all who have asked have returned, all their blocks have been handed over and have come to
  an end. -/
  complete : (∀ caller block, (caller, .asks block) ∈ ledger start deeds →
      ∃ answer, (caller, answer) ∈ start.history machine returned deeds) →
    (ledger start deeds).blocks Dealing.handed? = (ledger start deeds).blocks Dealing.asked? ∧
      (ledger start deeds).blocks Dealing.ended? = (ledger start deeds).blocks Dealing.asked?
  /-- If a block goes out bit by bit in the course of its write, no other block comes in between. -/
  unmixed : ∀ strokes, Spread start deeds strokes →
    strokes = ((ledger start deeds).blocks Dealing.handed?).flatMap fun entry =>
      strokes.filter fun stroke => stroke.writer = entry.1
  /-- So if these are the reports of each block, they go out block by block. -/
  reports : ∀ strokes, Spread start deeds strokes →
    (∀ entry ∈ (ledger start deeds).blocks Dealing.handed?,
      (strokes.filter fun stroke => stroke.writer = entry.1).map Stroke.report =
        Report.chunk entry.2) →
      strokes.map Stroke.report =
        ((ledger start deeds).blocks Dealing.handed?).flatMap fun entry => Report.chunk entry.2
  /-- Whenever a block is handed over, and when its write ends, the engine has been connected and
  the link has not been closed. -/
  unclosed : ∀ before deed after, deeds = before ++ deed :: after → ∀ caller dealing,
    (caller, dealing) ∈ dealings (start.applyAll machine before) deed →
    (∀ block, dealing ≠ .asks block) → Open start before

/-- What those who send are answered in a run. -/
structure Answering (codec : RequestCodec M) (start : Site M) (deeds : List (Deed M)) : Prop where
  fate : ∀ before caller call made answer, Begins start deeds caller call before →
    call.outgoing? codec.toCodec = some made →
    (caller, answer) ∈ start.history machine returned deeds →
      Fate (ledger start deeds) caller made answer
  /-- Whoever is answered with a failure that is not one of the link, such as that there is no
  connection or that the payload is too long, has handed nothing over. -/
  unhanded : ∀ caller failure,
    (caller, .done (.error failure)) ∈ start.history machine returned deeds → ¬failure.OfWriting →
      ∀ block, (caller, .hands block) ∉ ledger start deeds
  /-- Nor has whoever has a message that cannot be serialized, or for which there is no frame,
  whatever it is answered. -/
  unmade : ∀ before caller call made failure, Begins start deeds caller call before →
    call.outgoing? codec.toCodec = some made → EngineCall.framed made = .error failure →
      ∀ dealing, (caller, dealing) ∉ ledger start deeds
  /-- Those who succeed are those whose blocks have been sent. -/
  succeeded : ∀ before caller call made, Begins start deeds caller call before →
    call.outgoing? codec.toCodec = some made →
      ((caller, .done (.ok ())) ∈ start.history machine returned deeds ↔
        ∃ block, (caller, block) ∈ (ledger start deeds).blocks Dealing.sent?)

/-- What can be read where the blocks of a run arrive: the messages of those who have succeeded. -/
structure Recovered (codec : RequestCodec M) (start : Site M) (deeds : List (Deed M))
    (messages : List (MessageType × Bytes)) : Prop where
  sent : List.Forall₂ (fun entry message => Sends codec start deeds entry.1 message ∧
      Frame.encode message.1 message.2 = .ok entry.2)
    ((ledger start deeds).blocks Dealing.sent?) messages
  read : ∀ (limit : UInt32) (source : Source), source.Fair →
    (∀ message ∈ messages, message.2.length ≤ limit.toNat) →
    source.rest = (((ledger start deeds).blocks Dealing.sent?).map Prod.snd).flatten →
      (Frame.readAll source limit).1 = (messages.map Frame.written, .ok ())
  types : (∀ message ∈ messages, message.1.isUnknown = true →
      message.1.code ∉ MessageType.registered.map MessageType.code) →
    (messages.map Frame.written).map (fun f => (f.type, f.payload)) = messages

/-- What arrives at the other end of the link in a run. -/
structure Arriving (codec : RequestCodec M) (start : Site M) (deeds : List (Deed M)) : Prop where
  /-- What has been written are the blocks that have been sent, -/
  written : (start.applyAll machine deeds).state.link.written =
    start.state.link.written ++ ((ledger start deeds).blocks Dealing.sent?).map Prod.snd
  /-- in the order in which they have been handed over. -/
  order : ((ledger start deeds).blocks Dealing.sent?).Sublist
    ((ledger start deeds).blocks Dealing.handed?)
  /-- A device that takes all reports gets those of one block after those of the other, and their
  valid bytes are the blocks. -/
  reports : ∀ hid, start.state.link.hid? = some hid → Device.TakesAll hid.device.writes →
    ∃ after reports, (start.applyAll machine deeds).state.link.hid? = some after ∧
      after.device.written = hid.device.written ++ reports ∧
      reports = (((ledger start deeds).blocks Dealing.sent?).map Prod.snd).flatMap Report.chunk ∧
      Report.carried (reports.map .arrived) =
        (((ledger start deeds).blocks Dealing.sent?).map Prod.snd).flatten
  recovered : ∃ messages, Recovered codec start deeds messages

/-- What becomes of all that is to be sent in a run. -/
structure Outbound (codec : RequestCodec M) (start : Site M) (deeds : List (Deed M)) : Prop where
  handing : Handing codec start deeds
  answering : Answering codec start deeds
  arriving : Arriving codec start deeds

section

variable {codec : RequestCodec M} {settings : EngineSettings} {link : ScriptedLink}
  {start : Site M} {deeds : List (Deed M)}

theorem handing_run (fresh : start = World.ofState (create codec settings link))
    (obeys : start.Obeys machine Patient deeds) : Handing codec start deeds := by
  have numbered := numbered_of_fresh fresh
  have lawful := obeys.mono fun _ _ patient => patient.1
  have inLine := inLine_run fresh obeys
  refine {
    framed := fun caller block asks => begins_of_asks fresh obeys asks
    passed := fun before caller call made block begins connected sends whole =>
      asks_of_begins fresh obeys begins sends connected whole
    once := asked_once numbered obeys
    acquired := handed_run fresh obeys
    order := ⟨_, inLine.asked.symm⟩
    single := ⟨⟨_, inLine.handed.symm⟩, ?_⟩
    complete := ?_
    unmixed := fun strokes spread => unmixed fresh obeys spread
    reports := fun strokes spread whole => reports_of_spread fresh obeys spread whole
    unclosed := ?_ }
  · -- One block can be under way.
    rcases inLine.handed_cases with same | ⟨task, block, -, same⟩
    · rw [same]
      exact Nat.le_succ _
    · rw [same, List.length_append]
      exact Nat.le_refl _
  · intro all
    have settled := inLine.settled fun task block asked => by
      obtain ⟨answer, returns⟩ := all task block (Ledger.mem_asked.mp asked)
      exact seen_of_none ((gone_of_history numbered lawful).2 task answer returns).2
    refine ⟨List.IsPrefix.eq_of_length_le ⟨_, inLine.asked.symm⟩ ?_, settled⟩
    rw [← settled]
    exact (List.IsPrefix.sublist ⟨_, inLine.handed.symm⟩).length_le
  · intro before deed after split caller dealing deals handing
    exact open_of_dealings fresh (World.obeys_append.mp (split ▸ obeys)).1 deals handing

theorem answering_run (fresh : start = World.ofState (create codec settings link))
    (obeys : start.Obeys machine Patient deeds) : Answering codec start deeds := by
  refine {
    fate := fun before caller call made answer begins sends returns =>
      fate_of_returned fresh obeys begins sends returns
    unhanded := ?_
    unmade := ?_
    succeeded := ?_ }
  · intro caller failure returns other block hands
    obtain ⟨asked, asks⟩ := asks_of_dealing fresh obeys hands
    obtain ⟨outcome, same, -, -, writing⟩ := ended_of_returned fresh obeys asks returns
    exact other (writing failure (EngineCall.Answer.done.inj same).symm)
  · intro before caller call made failure begins sends failed dealing among
    obtain ⟨block, asks⟩ := asks_of_dealing fresh obeys among
    cases (framed_of_asks fresh obeys begins sends asks).symm.trans failed
  · intro before caller call made begins sends
    constructor
    · intro returns
      cases fate_of_returned fresh obeys begins sends returns with
      | handed whole hands ends link => exact ⟨_, Ledger.mem_sent.mpr ends⟩
    · intro found
      obtain ⟨block, sent⟩ := found
      obtain ⟨before, deed, after, split, now⟩ := World.mem_history.mp (Ledger.mem_sent.mp sent)
      exact World.mem_history.mpr ⟨before, deed, after, split, (returned_of_ends now).1⟩

/-- What has been sent is the frame of the message that its sender was to send. -/
theorem message_of_sent (fresh : start = World.ofState (create codec settings link))
    (obeys : start.Obeys machine Patient deeds) (entry : TaskId × Bytes)
    (sent : entry ∈ (ledger start deeds).blocks Dealing.sent?) :
    ∃ message, Sends codec start deeds entry.1 message ∧
      Frame.encode message.1 message.2 = .ok entry.2 := by
  have inLine := inLine_run fresh obeys
  have asked := inLine.asked_of_handed
    (inLine.handed_of_ended ((ledger start deeds).sent_sublist_ended.subset sent))
  obtain ⟨before, call, made, begins, -, sends, whole⟩ :=
    begins_of_asks fresh obeys (Ledger.mem_asked.mp asked)
  cases made with
  | error failure => cases whole
  | ok message => exact ⟨message, ⟨before, call, begins, sends⟩, whole⟩

theorem recovered_run (fresh : start = World.ofState (create codec settings link))
    (obeys : start.Obeys machine Patient deeds) :
    ∃ messages, Recovered codec start deeds messages := by
  obtain ⟨messages, sent⟩ := exists_forall₂ (message_of_sent fresh obeys)
  have bytes := Frame.flatten_of_encode (sent.imp fun _ _ related => related.2)
  exact ⟨messages, sent, fun limit source fair fits same =>
    Frame.readAll_of_written fair fits (same.trans bytes), Frame.map_type_written⟩

theorem arriving_run (fresh : start = World.ofState (create codec settings link))
    (obeys : start.Obeys machine Patient deeds) : Arriving codec start deeds := by
  have delivers := delivers_run (numbered_of_fresh fresh) obeys
  have inLine := inLine_run fresh obeys
  refine {
    written := delivers.written
    order := (ledger start deeds).sent_sublist_ended.trans
      (List.IsPrefix.sublist ⟨_, inLine.handed.symm⟩)
    reports := ?_
    recovered := recovered_run fresh obeys }
  intro hid there takes
  have device : start.state.link.output.device? = some hid.device.output := by
    show start.state.link.hid?.map _ = _
    rw [there]
    rfl
  obtain ⟨later, arrived, -⟩ := delivers.reports _ _ device takes
  obtain ⟨after, also, same⟩ := Option.map_eq_some_iff.mp arrived
  refine ⟨after, _, also, congrArg Prod.fst same, rfl, ?_⟩
  rw [List.map_flatMap]
  exact (Report.carried_chunks _).2

/-- In every run of an engine in which no call is given up, whole frames go out, one after the
other, and only as long as the link is open. -/
theorem outbound_frames (codec : RequestCodec M) (settings : EngineSettings) (link : ScriptedLink)
    {deeds : List (Deed M)}
    (obeys : (World.ofState (create codec settings link)).Obeys machine Patient deeds) :
    Outbound codec (World.ofState (create codec settings link)) deeds where
  handing := handing_run rfl obeys
  answering := answering_run rfl obeys
  arriving := arriving_run rfl obeys

end

/-- Somebody calls the engine, or goes on. -/
def Calling : Deed M → Bool
  | .start (.call (.begin _)) | .run _ => true
  | _ => false

theorem obeys_of_calling {w : Site M} {deeds : List (Deed M)} (calling : deeds.all Calling = true) :
    w.Obeys machine Patient deeds := by
  induction deeds generalizing w with
  | nil => trivial
  | cons deed deeds ih =>
    rw [List.all_cons, Bool.and_eq_true] at calling
    refine ⟨?_, ih calling.2⟩
    unfold Calling at calling
    split at calling
    · exact ⟨trivial, fun _ _ same => nomatch same⟩
    · exact ⟨trivial, fun _ _ same => nomatch same⟩
    · cases calling.1

/-- Somebody wants to send before the engine is connected. Later two others do, the second of them
first, and both wait while the engine is closed. Then it is too late for one more. -/
def crowded : List (Deed RawMessage) :=
  [.start (.call (.begin (.sendRaw .ping []))), .run 0,
    .start (.call (.begin .connect)), .run 1, .run 1, .run 1, .run 1, .run 1, .run 1, .run 1,
    .run 1,
    .start (.call (.begin (.send ⟨.success, List.replicate 60 7⟩))),
    .start (.call (.begin (.sendRaw .ping [0x2a]))), .run 4, .run 3, .run 4,
    .start (.call (.begin .close)), .run 5, .run 3,
    .start (.call (.begin (.sendRaw .ping []))), .run 6,
    .run 4, .run 3, .run 3, .run 2, .run 5, .run 5, .run 5, .run 5, .run 5, .run 5, .run 5]

theorem outbound_frames_when_crowded :
    let start : Site RawMessage := World.ofState (create RawMessage.codec {} deviceLink)
    let short := (Frame.written (.ping, [0x2a])).toBytes
    let long := (Frame.written (.success, List.replicate 60 7)).toBytes
    start.Obeys machine Patient crowded ∧ Outbound RawMessage.codec start crowded ∧
      (ledger start crowded).blocks Dealing.sent? = [(4, short), (3, long)] ∧
      start.history machine returned crowded =
        [(0, .done (.error .notConnected)), (1, .done (.ok ())), (6, .done (.error .notConnected)),
          (4, .done (.ok ())), (3, .done (.ok ())), (5, .done (.ok ()))] ∧
      (start.applyAll machine crowded).state.link.closes = 1 ∧
      (start.applyAll machine crowded).state.link.hid?.map (fun hid => hid.device.written) =
        some (Report.chunk short ++ Report.chunk long) ∧
      Spread start crowded ((Report.chunk short).map (Stroke.mk 17 4) ++
        (Report.chunk long).map (Stroke.mk 23 3)) := by
  intro start short long
  have obeys : start.Obeys machine Patient crowded := obeys_of_calling rfl
  refine ⟨obeys, outbound_frames RawMessage.codec {} deviceLink obeys, by decide +kernel,
    by decide +kernel, by decide +kernel, by decide +kernel, by decide +kernel, ?_⟩
  have writes : errands (stages (start.applyAll machine (crowded.take 17))) 4 =
        some (.writes short) ∧
      errands (stages (start.applyAll machine (crowded.take 23))) 3 = some (.writes long) := by
    decide +kernel
  intro stroke there
  rcases List.mem_append.mp there with first | second
  · obtain ⟨report, -, rfl⟩ := List.mem_map.mp first
    exact ⟨short, writes.1⟩
  · obtain ⟨report, -, rfl⟩ := List.mem_map.mp second
    exact ⟨long, writes.2⟩

end Engine

end HardwareSigner
