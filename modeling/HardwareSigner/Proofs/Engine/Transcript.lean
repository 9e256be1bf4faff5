import HardwareSigner.Codec.Raw
import HardwareSigner.Proofs.Engine.Telling

/-!
# The reader tells what it has read

What dispatches have told of a connection is a beginning of what the outcomes of all reads come to,
`Intake.transcript`, after the news that the connection is open. While the reader waits it is all
of it, and so it is once the failure has been told.

> `Engine.faithful_run`: this is so in every run.
> `Engine.told_of_cutting`: so the listeners are told what is due for the bytes that have come,
> however they have been cut, unless a push has lost messages.
-/

namespace HardwareSigner

/-- Whether the reader has told all that it has read. -/
def Reading.waits {M : Type} : Reading M → Bool
  | .receiving _ => true
  | .pausing _ _ => true
  | _ => false

namespace Engine

open Registry (Bounded)

variable {M : Type}

/-! ## Every run -/

/-- The dispatches have told a beginning of what the outcomes of all reads come to, and the reader
knows how far. Before there is a reader nothing has been read. -/
structure Faithful (codec : RequestCodec M) (settings : EngineSettings) (stages : Work (Stage M))
    (e : Engine M) (told : List (Event M)) (heard : List (Except Failure Received)) : Prop where
  base : e.base = (codec, settings)
  begins : told <+: .system .connected ::
    (Intake.ofLimit settings.maxPayload).transcript codec.toCodec heard
  deaf : ∀ task phase, stages task = some (.inl phase) →
    Stage.drives (.inl phase : Stage M) = true → heard = []
  idle : e.state = .disconnected → heard = []
  reader : ∀ task reading, stages task = some (.inr reading) →
    Tells told ((Intake.ofLimit settings.maxPayload).follow codec.toCodec heard) reading

section

variable {codec : RequestCodec M} {settings : EngineSettings} {w : Site M}
  {told tried : List (Event M)} {heard : List (Except Failure Received)}

/-- While there is a reader, nobody else tells anything. -/
theorem Roles.toldBy_eq_nil {stages : Work (Stage M)} {e : Engine M}
    (roles : Roles stages e told tried) {task other : TaskId} {stage : Stage M}
    {reading : Reading M} (there : stages task = some stage)
    (reads : stages other = some (.inr reading)) (different : task ≠ other) :
    toldBy stage.operation? = [] := by
  cases works : stage.operation? with
  | none => rfl
  | some phase =>
    show phase.takes = []
    rw [List.eq_nil_iff_forall_not_mem]
    intro event takes
    have drives := roles.drives_of_offers there works (Operation.Phase.offers_of_takes takes)
    exact different (roles.driver task other _ _ there reads drives rfl)

/-- A call tells nothing but that the connection is open. -/
theorem Roles.toldBy_call {stages : Work (Stage M)} {e : Engine M}
    (roles : Roles stages e told tried) {task : TaskId} {phase : EngineCall.Phase M}
    (there : stages task = some (.inl phase)) :
    toldBy (Stage.operation? (.inl phase) : Option (Operation.Phase M)) = [] ∨
      told ++ toldBy (Stage.operation? (.inl phase)) <+: [.system .connected] := by
  cases drives : Stage.drives (.inl phase : Stage M) with
  | false =>
    left
    cases works : (Stage.operation? (.inl phase) : Option (Operation.Phase M)) with
    | none => rfl
    | some found =>
      show found.takes = []
      rw [List.eq_nil_iff_forall_not_mem]
      intro event takes
      rw [roles.drives_of_offers there works (Operation.Phase.offers_of_takes takes)] at drives
      cases drives
  | true =>
    cases phase with
    | announcing found =>
      right
      have saying : Saying (.system .connected) [] found told := roles.fits task _ there
      have all : told ++ found.awaits = [.system .connected] := saying.all
      rw [← all]
      exact (List.prefix_append_right_inj told).mpr (takes_prefix_awaits found)
    | connecting => exact Or.inl rfl
    | opening latest failure? => exact Or.inl rfl
    | installing => exact Or.inl rfl
    | _ => cases drives

/-- A reader that starts has nothing to tell: that the connection is open has been told. -/
theorem tells_announced {intake : Intake} (opened : Opened told)
    (begins : told <+: .system .connected :: intake.transcript codec.toCodec []) :
    Tells told (intake.follow codec.toCodec []) (.receiving intake) := by
  obtain ⟨body, rfl, -⟩ := opened
  have none : body = [] := List.prefix_nil.mp (List.cons_prefix_cons.mp begins).2
  rw [none]
  exact ⟨rfl, rfl⟩

theorem faithful_call (faithful : Faithful codec settings (stages w) w.state told heard)
    (roles : Roles (stages w) w.state told tried)
    (bounded : Bounded (operations (stages w)) w.state.registry) {task : TaskId}
    {phase : EngineCall.Phase M} (there : stages w task = some (.inl phase))
    (fresh : stages w w.next = none) :
    Faithful codec settings
      (Work.set
        (Work.set (stages w) task ((phase.step task w.clock w.state).next.getLeft?.map .inl))
        w.next ((phase.step task w.clock w.state).reader?.map .inr))
      (phase.step task w.clock w.state).engine (told ++ toldBy (Stage.operation? (.inl phase)))
      heard := by
  have effect := Effect.calls task phase there fresh
  have begins : told ++ toldBy (Stage.operation? (.inl phase)) <+: .system .connected ::
      (Intake.ofLimit settings.maxPayload).transcript codec.toCodec heard := by
    rcases roles.toldBy_call there with none | one
    · rw [none, List.append_nil]
      exact faithful.begins
    · exact one.trans (List.prefix_append [Event.system .connected] _)
  refine ⟨effect.base.trans faithful.base, begins, fun other next at_work drives => ?_,
    fun disconnected => ?_, fun other reading at_work => ?_⟩
  · cases effect.comes at_work with
    | stays stage before => exact faithful.deaf other next before drives
    | begins call new => cases drives
    | calls phase next before goesOn =>
      rcases drove_of_drives (phase.steps _ _ _) goesOn drives with drove | disconnected
      · exact faithful.deaf other phase before drove
      · exact faithful.idle disconnected
  · rcases drove_of_disconnected (phase.steps _ _ _) disconnected with drove | before
    · exact faithful.deaf task phase there drove
    · exact faithful.idle before
  · have roles' := roles_call roles bounded there (phase.steps task w.clock w.state) fresh
    rcases Work.set_cases _ _ _ at_work with ⟨rfl, now⟩ | ⟨-, earlier⟩
    · -- The reader starts when the connection has been announced, and nothing has been read.
      obtain ⟨found, starts, same⟩ := Option.map_eq_some_iff.mp now
      cases same
      obtain ⟨announced, rfl, rfl⟩ := (phase.steps task w.clock w.state).of_reader starts
      have limit : w.state.settings = settings := congrArg Prod.snd faithful.base
      have unread : heard = [] := faithful.deaf task _ there rfl
      rw [limit, unread]
      exact tells_announced (roles'.fits w.next _ at_work) (unread ▸ begins)
    · rcases Work.set_cases _ _ _ earlier with ⟨-, now⟩ | ⟨different, before⟩
      · obtain ⟨found, -, same⟩ := Option.map_eq_some_iff.mp now
        cases same
      · rw [roles.toldBy_eq_nil there before (Ne.symm different), List.append_nil]
        exact faithful.reader other reading before

theorem faithful_read (faithful : Faithful codec settings (stages w) w.state told heard)
    (roles : Roles (stages w) w.state told tried)
    (bounded : Bounded (operations (stages w)) w.state.registry) {task : TaskId}
    {reading : Reading M} (there : stages w task = some (.inr reading))
    (unaborted : w.state.aborted = false) :
    Faithful codec settings
      (Work.set (stages w) task ((reading.step task w.clock w.state).1.map .inr))
      (reading.step task w.clock w.state).2 (told ++ toldBy (Stage.operation? (.inr reading)))
      (heard ++ heardBy w.state (.inr reading)) := by
  have effect := Effect.reads task reading there unaborted
  have tells := faithful.reader task reading there
  have base : w.state.codec = codec := congrArg Prod.fst faithful.base
  have alone : ∀ {other stage}, stages w other = some stage → stage.drives = true → other = task :=
    fun found drives => roles.driver _ task _ _ found there drives rfl
  refine ⟨effect.base.trans faithful.base, tells_prefix tells w.state, ?_,
    fun disconnected => ?_, ?_⟩
  · intro other phase at_work drives
    rcases Work.set_cases _ _ _ at_work with ⟨-, now⟩ | ⟨different, before⟩
    · obtain ⟨next, -, same⟩ := Option.map_eq_some_iff.mp now
      cases same
    · exact absurd (alone before drives) different
  · have same := (base_read (reading.steps unaborted task w.clock)).2
    exact absurd (same.symm.trans disconnected) (roles.not_disconnected there rfl)
  · intro other next at_work
    rcases Work.set_cases _ _ _ at_work with ⟨-, now⟩ | ⟨different, before⟩
    · obtain ⟨later, goesOn, same⟩ := Option.map_eq_some_iff.mp now
      cases same
      rw [← base] at tells ⊢
      exact tells_next roles bounded there unaborted tells
        (goesOn ▸ reading.steps unaborted task w.clock)
    · exact absurd (alone before rfl) different

theorem faithful_effect (faithful : Faithful codec settings (stages w) w.state told heard)
    (roles : Roles (stages w) w.state told tried)
    (bounded : Bounded (operations (stages w)) w.state.registry) {took : List (TaskId × Event M)}
    {more : List (Event M)} {heard' : List (Except Failure Received)} {stages' : Work (Stage M)}
    {e' : Engine M} (effect : Effect w took more heard' stages' e') :
    Faithful codec settings stages' e' (told ++ took.map Prod.snd) (heard ++ heard') := by
  cases effect with
  | same =>
    rw [List.map_nil, List.append_nil, List.append_nil]
    exact faithful
  | begins call fresh =>
    rw [List.map_nil, List.append_nil, List.append_nil]
    refine ⟨faithful.base, faithful.begins, fun other phase at_work drives => ?_, faithful.idle,
      fun other reading at_work => ?_⟩
    · rcases Work.set_cases _ _ _ at_work with ⟨-, now⟩ | ⟨-, before⟩
      · cases now
        cases drives
      · exact faithful.deaf other phase before drives
    · rcases Work.set_cases _ _ _ at_work with ⟨-, now⟩ | ⟨-, before⟩
      · cases now
      · exact faithful.reader other reading before
  | calls task phase there fresh =>
    rw [map_tookBy, List.append_nil]
    exact faithful_call faithful roles bounded there fresh
  | reads task reading there unaborted =>
    rw [map_tookBy]
    exact faithful_read faithful roles bounded there unaborted
  | leaves task stage there =>
    rw [List.map_nil, List.append_nil, List.append_nil]
    refine ⟨(base_release task stage w.state).trans faithful.base, faithful.begins,
      fun other phase at_work drives => ?_, fun disconnected => ?_, fun other reading at_work => ?_⟩
    · rcases Work.set_cases _ _ _ at_work with ⟨-, now⟩ | ⟨-, before⟩
      · cases now
      · exact faithful.deaf other phase before drives
    · rw [Stage.state_release] at disconnected
      exact faithful.idle disconnected
    · rcases Work.set_cases _ _ _ at_work with ⟨-, now⟩ | ⟨-, before⟩
      · cases now
      · exact faithful.reader other reading before
  | acts act lawful =>
    rw [List.map_nil, List.append_nil, List.append_nil]
    have base : (w.state.act act).base = w.state.base := by cases act <;> rfl
    have state : (w.state.act act).state = w.state.state := by cases act <;> rfl
    exact ⟨base.trans faithful.base, faithful.begins, faithful.deaf,
      fun disconnected => faithful.idle (state.symm.trans disconnected), faithful.reader⟩

theorem Faithful.apply (faithful : Faithful codec settings (stages w) w.state told heard)
    {kept : List (TaskId × Event M)} (same : told = kept.map Prod.snd) (keeps : Kept w kept tried)
    {deed : Deed M} (lawful : Lawful w deed) :
    Faithful codec settings (stages (w.apply machine deed)) (w.apply machine deed).state
      (told ++ (takes w deed).map Prod.snd) (heard ++ hears w deed) :=
  faithful_effect faithful (same ▸ keeps.roles) keeps.bounded (effect keeps.numbered lawful)

end

theorem faithful_create (codec : RequestCodec M) (settings : EngineSettings) (link : ScriptedLink) :
    Faithful codec settings (stages (World.ofState (create codec settings link)))
      (create codec settings link) [] [] where
  base := rfl
  begins := List.nil_prefix
  deaf _ _ there := by cases there
  idle _ := rfl
  reader _ _ there := by cases there

section

variable {codec : RequestCodec M} {settings : EngineSettings} {w : Site M} {deeds : List (Deed M)}
  {told : List (TaskId × Event M)} {tried : List (Event M)} {heard : List (Except Failure Received)}

theorem faithful_run (kept : Kept w told tried)
    (faithful : Faithful codec settings (stages w) w.state (told.map Prod.snd) heard)
    (obeys : w.Obeys machine Lawful deeds) :
    Faithful codec settings (stages (w.applyAll machine deeds)) (w.applyAll machine deeds).state
      ((told ++ w.history machine takes deeds).map Prod.snd)
      (heard ++ w.history machine hears deeds) := by
  refine World.keeps_run ?_ ?_ obeys
  · rw [World.history, World.history, List.append_nil, List.append_nil]
    exact faithful
  · intro before deed earlier lawful faithful
    rw [World.applyAll_snoc, World.history_snoc, World.history_snoc, ← List.append_assoc,
      ← List.append_assoc, List.map_append]
    exact faithful.apply rfl (kept_run kept earlier) lawful

end

/-! ## When all has been told -/

section

variable {codec : RequestCodec M} {settings : EngineSettings} {stages : Work (Stage M)}
  {e : Engine M} {told : List (Event M)} {heard : List (Except Failure Received)}

theorem Faithful.told_of_waits (faithful : Faithful codec settings stages e told heard)
    {task : TaskId} {reading : Reading M} (there : stages task = some (.inr reading))
    (waits : reading.waits = true) :
    told = .system .connected ::
      (Intake.ofLimit settings.maxPayload).transcript codec.toCodec heard := by
  have tells := faithful.reader task reading there
  have all : ∀ {intake : Intake}, told = .system .connected ::
        ((Intake.ofLimit settings.maxPayload).follow codec.toCodec heard).1 ∧
      ((Intake.ofLimit settings.maxPayload).follow codec.toCodec heard).2 = some intake →
      told = .system .connected ::
        (Intake.ofLimit settings.maxPayload).transcript codec.toCodec heard := by
    rintro intake ⟨all, on⟩
    rw [Intake.transcript_eq, on, all]
    exact congrArg _ (List.append_nil _).symm
  cases reading with
  | receiving intake => exact all tells
  | pausing latest intake => exact all tells
  | dispatching phase rest course intake => cases waits
  | failing phase => cases waits

/-- After the failure nothing that comes is told. -/
theorem Faithful.told_of_failure (faithful : Faithful codec settings stages e told heard)
    (failed : .system .failure ∈ told) (more : List (Except Failure Received)) :
    told = .system .connected ::
      (Intake.ofLimit settings.maxPayload).transcript codec.toCodec (heard ++ more) := by
  -- What is read while reading goes on is traffic, so the failure comes behind all of it.
  have untold : .system .failure ∉ .system .connected ::
      ((Intake.ofLimit settings.maxPayload).follow codec.toCodec heard).1 := by
    intro there
    rcases List.mem_cons.mp there with same | later
    · cases same
    · have traffic := follow_isTraffic _ _ _ _ later
      cases traffic
  have begins := faithful.begins
  rw [Intake.transcript_eq] at begins
  cases on : ((Intake.ofLimit settings.maxPayload).follow codec.toCodec heard).2 with
  | some intake =>
    rw [on] at begins
    have some : told <+: .system .connected ::
        (((Intake.ofLimit settings.maxPayload).follow codec.toCodec heard).1 ++ []) := begins
    rw [List.append_nil] at some
    exact absurd (some.subset failed) untold
  | none =>
    rw [on] at begins
    rw [Intake.transcript_eq, Intake.follow_append_of_none on, on]
    have last : told <+: (.system .connected ::
        ((Intake.ofLimit settings.maxPayload).follow codec.toCodec heard).1) ++
          [.system .failure] := begins
    rcases List.prefix_concat_iff.mp last with all | some
    · exact all
    · exact absurd (some.subset failed) untold

end

/-- All of a stream has been told: the reader has read it and waits for more, or the failure has
been told, after which there is nothing more to tell. -/
def Exhausts (stream : List (Except Failure Received)) (w : Site M) (deeds : List (Deed M)) :
    Prop :=
  (w.history machine hears deeds = stream ∧ ∃ task reading,
      stages (w.applyAll machine deeds) task = some (.inr reading) ∧ reading.waits = true) ∨
    (w.history machine hears deeds <+: stream ∧
      .system .failure ∈ (w.history machine takes deeds).map Prod.snd)

/-- What the listeners are told of a stream that starts with bytes. However these have been cut, it
is what is due for them, unless a push loses messages. -/
theorem told_of_cutting (codec : RequestCodec M) (settings : EngineSettings) (link : ScriptedLink)
    {deeds : List (Deed M)}
    (obeys : (World.ofState (create codec settings link)).Obeys machine Lawful deeds)
    {cutting : List (Except Failure Received)} (cut : ∀ outcome ∈ cutting, Intake.IsPiece outcome)
    (more : List (Except Failure Received))
    (exhausts : Exhausts (cutting ++ more) (World.ofState (create codec settings link)) deeds) :
    ∃ told,
      ((World.ofState (create codec settings link)).history machine takes deeds).map Prod.snd =
        .system .connected :: told ∧
      Intake.ToldOrLost codec.toCodec (.empty settings.maxPayload) (Intake.pieces cutting) told
        (Intake.due codec.toCodec
          ((FrameBuffer.empty settings.maxPayload).extend (Intake.pieces cutting).flatten)
          more) := by
  have faithful := faithful_run (kept_create codec settings link)
    (faithful_create codec settings link) obeys
  rw [List.nil_append, List.nil_append] at faithful
  refine ⟨_, ?_, Intake.transcript_of_cutting codec.toCodec (FrameBuffer.settled_empty _) cut more⟩
  rcases exhausts with ⟨heard, task, reading, there, waits⟩ | ⟨⟨rest, heard⟩, failed⟩
  · rw [← heard]
    exact faithful.told_of_waits there waits
  · rw [← heard]
    exact faithful.told_of_failure failed rest

/-- A whole frame, and then a header that announces more than four bytes. -/
def spoilt : Bytes := [0x23, 0x23, 0, 2, 0, 0, 0, 1, 0x2a, 0x23, 0x23, 0, 2, 0, 0, 0, 5]

/-- The connection is opened, and all that is spoilt comes at once. -/
def spoiling : List (Deed RawMessage) :=
  [.start (.call (.begin .connect)), .run 0, .run 0, .run 0, .run 0, .run 0, .run 0, .run 0, .run 0,
    .outside (.feed [.outcome (.ok (.data spoilt))]), .run 1, .run 1, .run 1]

/-- The message in the frame is due, and it is not told. -/
theorem told_of_spoilt_piece :
    let start : Site RawMessage := World.ofState (create RawMessage.codec { maxPayload := 4 } {})
    let waiting := FrameBuffer.empty 4
    let cutting : List (Except Failure Received) := [.ok (.data spoilt)]
    start.Obeys machine Lawful spoiling ∧ (∀ outcome ∈ cutting, Intake.IsPiece outcome) ∧
      Exhausts (cutting ++ []) start spoiling ∧
      (∃ told, (start.history machine takes spoiling).map Prod.snd = .system .connected :: told ∧
        Intake.ToldOrLost RawMessage.codec.toCodec waiting (Intake.pieces cutting) told
          (Intake.due RawMessage.codec.toCodec
            (waiting.extend (Intake.pieces cutting).flatten) [])) ∧
      (start.history machine takes spoiling).map Prod.snd = [.system .connected, .system .failure] ∧
      Intake.due RawMessage.codec.toCodec (waiting.extend (Intake.pieces cutting).flatten) [] =
        [.message .success ⟨.success, [0x2a]⟩, .system .failure] := by
  intro start waiting cutting
  have obeys : start.Obeys machine Lawful spoiling :=
    ⟨trivial, trivial, trivial, trivial, trivial, trivial, trivial, trivial, trivial, trivial,
      trivial, trivial, trivial, trivial⟩
  have cut : ∀ outcome ∈ cutting, Intake.IsPiece outcome := by
    intro outcome there
    exact Or.inr ⟨spoilt, List.mem_singleton.mp there⟩
  have exhausts : Exhausts (cutting ++ []) start spoiling :=
    Or.inr ⟨by decide +kernel, by decide +kernel⟩
  exact ⟨obeys, cut, exhausts,
    told_of_cutting RawMessage.codec { maxPayload := 4 } {} obeys cut [] exhausts,
    by decide +kernel, by decide +kernel⟩

end Engine

end HardwareSigner
