import HardwareSigner.Proofs.Engine.Outcomes
import HardwareSigner.Proofs.Engine.Transcript
import HardwareSigner.Proofs.Listener.Steps

/-!
# What reading a script comes to

`Intake.Account` says how much of a script is read and what is told of it. Either no outcome is
fatal, and all of the script is read and told, or the script is read up to its first fatal outcome,
and the failure is told last. Polls in which nothing comes play no part.

> `Engine.attended_run`: a reader that is left alone reads nothing after a fatal outcome, and does
> not stop before it has told all that it has read.
> `Engine.told_of_processed`: so in a run without a shutdown that has processed a script, the
> listeners have been told what `Intake.Account` says.
-/

namespace HardwareSigner

namespace Intake

variable {M : Type}

/-- What reading a script comes to: the outcomes that are read, and the events that are told. -/
inductive Account (codec : Codec M) (limit : UInt32) (script : List (Except Failure Received)) :
    List (Except Failure Received) → List (Event M) → Prop
  | lasts {events : List (Event M)} (harmless : Harmless codec limit script)
    (comes : Comes codec limit script events) (unfailed : .system .failure ∉ events) :
    Account codec limit script script events
  | fails {before after : List (Except Failure Received)} {outcome : Except Failure Received}
    {events words : List (Event M)} (split : script = before ++ outcome :: after)
    (harmless : Harmless codec limit before) (comes : Comes codec limit before events)
    (ends : Ends codec limit before outcome words)
    (unfailed : .system .failure ∉ events ++ words) :
    Account codec limit script (before ++ [outcome]) (events ++ words ++ [.system .failure])

section

variable {codec : Codec M} {limit : UInt32} {intake : Intake}

/-- Polls in which nothing comes are as good as none. -/
theorem transcript_heeded (codec : Codec M) (intake : Intake)
    (outcomes : List (Except Failure Received)) :
    intake.transcript codec (outcomes.filter heeded) = intake.transcript codec outcomes := by
  induction outcomes generalizing intake with
  | nil => rfl
  | cons outcome outcomes ih =>
    cases heeds : heeded outcome with
    | false =>
      obtain rfl : outcome = .ok .idle := by
        rcases outcome with failure | bytes | _ | _ <;> first | rfl | cases heeds
      exact ih intake
    | true =>
      rw [List.filter_cons_of_pos heeds, transcript, transcript]
      split
      next => rfl
      next found course after _ _ => rw [ih after]

theorem transcript_append_of_none {before : List (Except Failure Received)}
    (finished : (intake.follow codec before).2 = none) (after : List (Except Failure Received)) :
    intake.transcript codec (before ++ after) = intake.transcript codec before := by
  rw [transcript_eq, transcript_eq, follow_append_of_none finished]

theorem transcript_of_some {before : List (Except Failure Received)} {last : Intake}
    (on : (intake.follow codec before).2 = some last) :
    intake.transcript codec before = (intake.follow codec before).1 := by
  rw [transcript_eq, on]
  exact List.append_nil _

theorem transcript_of_none {before : List (Except Failure Received)}
    (finished : (intake.follow codec before).2 = none) :
    intake.transcript codec before = (intake.follow codec before).1 ++ [.system .failure] := by
  rw [transcript_eq, finished]
  rfl

theorem unfailed_follow (codec : Codec M) (intake : Intake)
    (outcomes : List (Except Failure Received)) :
    .system .failure ∉ (intake.follow codec outcomes).1 := by
  intro there
  have traffic := Engine.follow_isTraffic codec intake outcomes _ there
  cases traffic

/-- The account of a script after which reading goes on. -/
theorem account_of_some {script : List (Except Failure Received)} {last : Intake}
    (on : ((ofLimit limit).follow codec script).2 = some last) :
    Account codec limit script script ((ofLimit limit).transcript codec script) := by
  have sums := follow_cases codec limit script
  have unfailed := unfailed_follow codec (ofLimit limit) script
  rw [transcript_of_some on]
  rw [on] at sums
  generalize ((ofLimit limit).follow codec script).1 = events at sums unfailed ⊢
  cases sums with
  | whole harmless comes stands => exact .lasts harmless comes unfailed

/-- The account of a script of which one outcome ends reading. -/
theorem account_of_none {before : List (Except Failure Received)}
    {outcome : Except Failure Received} (on : ((ofLimit limit).follow codec before).2 ≠ none)
    (finished : ((ofLimit limit).follow codec (before ++ [outcome])).2 = none)
    (after : List (Except Failure Received)) :
    Account codec limit (before ++ outcome :: after) (before ++ [outcome])
      ((ofLimit limit).transcript codec (before ++ [outcome])) := by
  obtain ⟨last, goesOn⟩ := Option.ne_none_iff_exists'.mp on
  have sums := follow_cases codec limit before
  have unfailed := unfailed_follow codec (ofLimit limit) (before ++ [outcome])
  rw [transcript_of_none finished]
  rw [Engine.follow_snoc goesOn] at finished unfailed ⊢
  rw [goesOn] at sums
  generalize ((ofLimit limit).follow codec before).1 = events at sums unfailed ⊢
  cases sums with
  | whole harmless comes stands =>
    cases stands.take_cases codec outcome with
    | ends fails ends => exact .fails rfl harmless comes ends unfailed
    | goesOn fine =>
      rw [if_neg fine] at finished
      cases finished

end

end Intake

namespace Engine

open Intake (Account heeded)

variable {M : Type}

/-! ## A reader that is left alone -/

/-- Nobody gives the reader up. -/
def Spares (w : Site M) : Deed M → Prop
  | .abandon task => ∀ reading, stages w task ≠ some (.inr reading)
  | _ => True

/-- Nobody has told the engine to shut down, and nobody gives its reader up. -/
structure Undisturbed (w : Site M) (deed : Deed M) : Prop where
  lawful : Lawful w deed
  unshut : w.state.registry.shutdown = false
  spares : Spares w deed

/-- Nobody is reading. -/
def Unread (stages : Work (Stage M)) : Prop := ∀ task reading, stages task ≠ some (.inr reading)

theorem exists_phase_of_reader {w : Site M} {task : TaskId} {reading : Reading M}
    (there : stages w task = some (.inr reading)) : w.phase? task = some (.read reading) := by
  cases at_work : w.phase? task with
  | none =>
    rw [stages_of_none at_work] at there
    cases there
  | some found =>
    rw [stages_of_some at_work] at there
    cases found <;> cases there
    rfl

/-- A reader that is left alone leaves in a step of its own. -/
theorem run_of_unread {w : Site M} {deed : Deed M} (numbered : w.Numbered)
    (undisturbed : Undisturbed w deed) {task : TaskId} {reading : Reading M}
    (there : stages w task = some (.inr reading))
    (gone : Unread (stages (w.apply machine deed))) :
    deed = .run task ∧ machine.ready task w.clock (.read reading) w.state = true := by
  have at_work := exists_phase_of_reader there
  have kept : deed ≠ .abandon task := by
    rintro rfl
    exact undisturbed.spares reading there
  have run : deed = .run task := Classical.byContradiction fun other => gone task reading
    (stages_of_some (World.phase?_apply_of_other numbered at_work other kept))
  subst run
  refine ⟨rfl, ?_⟩
  cases ready : machine.ready task w.clock (.read reading) w.state with
  | true => rfl
  | false =>
    have same : w.apply machine (.run task) = w := World.run_of_unready at_work ready
    rw [same] at gone
    exact absurd there (gone task reading)

/-- Unless the engine shuts down, the reader takes its last step when the failure has been told. -/
theorem failing_of_last {task : TaskId} {e e' : Engine M} {reading : Reading M}
    (unshut : e.registry.shutdown = false) (steps : reading.Steps task e none e') :
    ∃ phase answer registry, reading = .failing phase ∧
      phase.step task e.registry = (.inr answer, registry) := by
  have on : ∀ {registry : Registry M}, registry.shutdown = e.registry.shutdown →
      registry.shutdown ≠ true := fun same shut => by
    rw [same, unshut] at shut
    cases shut
  cases steps with
  | stopsReceiving intake shut => exact absurd shut (on rfl)
  | stopsPausing latest intake shut => exact absurd shut (on rfl)
  | hears intake _ receives onward =>
    generalize (intake.take e.codec.toCodec _).1.1 = events at onward
    generalize (intake.take e.codec.toCodec _).1.2 = course at onward
    cases onward with
    | stops shut => exact absurd shut (on rfl)
  | @proceeds phase answer registry rest course intake next? e' turn onward =>
    have same : registry.shutdown = e.registry.shutdown := by
      have steps := phase.steps task e.registry
      rw [turn] at steps
      exact steps.shutdown
    cases onward with
    | stops shut => exact absurd shut (on same)
  | stopsFailing turn => exact ⟨_, _, _, rfl, turn⟩

/-! ## Every run without a shutdown -/

/-- Nothing is read after a fatal outcome. When nobody is reading any more, all that has been read
has been told, and that reading has failed. -/
structure Attended (codec : RequestCodec M) (settings : EngineSettings) (stages : Work (Stage M))
    (told : List (Event M)) (heard : List (Except Failure Received)) : Prop where
  heeds : ∀ before last, heard = before ++ [last] →
    ((Intake.ofLimit settings.maxPayload).follow codec.toCodec before).2 ≠ none
  concludes : Unread stages → heard ≠ [] →
    told = .system .connected ::
        (Intake.ofLimit settings.maxPayload).transcript codec.toCodec heard ∧
      ((Intake.ofLimit settings.maxPayload).follow codec.toCodec heard).2 = none

section

variable {codec : RequestCodec M} {settings : EngineSettings} {w : Site M}
  {told tried : List (Event M)} {heard : List (Except Failure Received)}

/-- At most one outcome is read in a step. -/
theorem heardBy_cases (e : Engine M) (intake : Intake) :
    heardBy e (.inr (.receiving intake)) = [] ∨
      ∃ outcome, heardBy e (.inr (.receiving intake)) = [outcome] := by
  unfold heardBy
  cases e.aborted || e.registry.shutdown with
  | true => exact Or.inl rfl
  | false =>
    cases e.link.receive? with
    | none => exact Or.inl rfl
    | some found => exact Or.inr ⟨found.1, rfl⟩

/-- What an action reads, it reads after outcomes of which none is fatal. -/
theorem goesOn_of_hears (faithful : Faithful codec settings (stages w) w.state told heard)
    {took : List (TaskId × Event M)} {more : List (Event M)}
    {heard' : List (Except Failure Received)} {stages' : Work (Stage M)} {e' : Engine M}
    (effect : Effect w took more heard' stages' e') :
    heard' = [] ∨ ∃ outcome, heard' = [outcome] ∧
      ((Intake.ofLimit settings.maxPayload).follow codec.toCodec heard).2 ≠ none := by
  cases effect with
  | reads task reading there unaborted =>
    cases reading with
    | receiving intake =>
      have tells := faithful.reader task _ there
      refine (heardBy_cases w.state intake).imp_right fun ⟨outcome, one⟩ => ⟨outcome, one, ?_⟩
      rw [tells.2]
      exact Option.some_ne_none _
    | _ => exact Or.inl rfl
  | _ => exact Or.inl rfl

/-- While nobody is reading, nothing is read, and nothing more is told of what has been. -/
theorem quiet_of_unread (roles : Roles (stages w) w.state told tried) (unread : Unread (stages w))
    {took : List (TaskId × Event M)} {more : List (Event M)}
    {heard' : List (Except Failure Received)} {stages' : Work (Stage M)} {e' : Engine M}
    (effect : Effect w took more heard' stages' e') :
    heard' = [] ∧ ∀ rest, told = .system .connected :: rest → took.map Prod.snd = [] := by
  cases effect with
  | calls task phase there fresh =>
    refine ⟨rfl, fun rest connected => ?_⟩
    rw [map_tookBy]
    rcases roles.toldBy_call there with none | one
    · exact none
    · rw [connected, List.cons_append, List.cons_prefix_cons, List.prefix_nil] at one
      exact (List.append_eq_nil_iff.mp one.2).2
  | reads task reading there unaborted => exact absurd there (unread task reading)
  | _ => exact ⟨rfl, fun _ _ => rfl⟩

/-- When the reader has left, all has been told. -/
theorem concludes_of_last (faithful : Faithful codec settings (stages w) w.state told heard)
    (roles : Roles (stages w) w.state told tried) (unshut : w.state.registry.shutdown = false)
    {task : TaskId} {reading : Reading M} (there : stages w task = some (.inr reading))
    (ready : machine.ready task w.clock (.read reading) w.state = true)
    (gone : Unread (stages (w.apply machine (.run task)))) :
    told ++ (takes w (.run task)).map Prod.snd = .system .connected ::
        (Intake.ofLimit settings.maxPayload).transcript codec.toCodec
          (heard ++ hears w (.run task)) ∧
      ((Intake.ofLimit settings.maxPayload).follow codec.toCodec
        (heard ++ hears w (.run task))).2 = none := by
  have at_work := exists_phase_of_reader there
  have unaborted : w.state.aborted = false := by
    cases aborted : w.state.aborted with
    | false => rfl
    | true =>
      rw [roles.shut (Or.inr aborted)] at unshut
      cases unshut
  have last : (reading.step task w.clock w.state).1 = none := by
    cases goesOn : (reading.step task w.clock w.state).1 with
    | none => rfl
    | some next =>
      have moved := (stages_stepRead at_work ready).1
      rw [goesOn] at moved
      exact absurd (congrFun moved task |>.trans (Work.set_self ..)) (gone task next)
  have steps := reading.steps unaborted task w.clock
  rw [last] at steps
  obtain ⟨phase, answer, registry, rfl, turn⟩ := failing_of_last unshut steps
  obtain ⟨all, finished⟩ := faithful.reader task _ there
  obtain ⟨before, -, saying⟩ := roles.fits task _ there
  obtain ⟨untold, same⟩ := saying.finished turn
  have can : w.ready machine task = true := by
    rw [World.ready, at_work]
    exact ready
  have tells : (takes w (.run task)).map Prod.snd = [] := by
    show (tookBy task (stepping w (.run task))).map Prod.snd = []
    rw [map_tookBy, stepping, if_pos can, there]
    show toldBy (if w.state.aborted then none else some phase) = []
    rw [unaborted]
    exact untold
  have deaf : hears w (.run task) = [] := by
    rw [hears, if_pos can, there]
    rfl
  rw [tells, deaf, List.append_nil, List.append_nil]
  refine ⟨?_, finished⟩
  rw [Intake.transcript_of_none finished]
  rw [saying.all, ← same] at all
  exact all

theorem Attended.apply (attended : Attended codec settings (stages w) told heard)
    (faithful : Faithful codec settings (stages w) w.state told heard)
    {kept : List (TaskId × Event M)} (same : told = kept.map Prod.snd) (keeps : Kept w kept tried)
    {deed : Deed M} (undisturbed : Undisturbed w deed) :
    Attended codec settings (stages (w.apply machine deed))
      (told ++ (takes w deed).map Prod.snd) (heard ++ hears w deed) where
  heeds before last split := by
    rcases goesOn_of_hears faithful (effect keeps.numbered undisturbed.lawful) with
      nothing | ⟨outcome, one, on⟩
    · rw [nothing, List.append_nil] at split
      exact attended.heeds before last split
    · rw [one] at split
      obtain ⟨rfl, -⟩ := List.append_inj' split rfl
      exact on
  concludes gone read := by
    have roles : Roles (stages w) w.state told tried := same ▸ keeps.roles
    by_cases reads : ∃ task reading, stages w task = some (.inr reading)
    · obtain ⟨task, reading, there⟩ := reads
      obtain ⟨rfl, ready⟩ := run_of_unread keeps.numbered undisturbed there gone
      exact concludes_of_last faithful roles undisturbed.unshut there ready gone
    · have unread : Unread (stages w) := fun task reading there => reads ⟨task, reading, there⟩
      obtain ⟨nothing, silent⟩ :=
        quiet_of_unread roles unread (effect keeps.numbered undisturbed.lawful)
      rw [nothing, List.append_nil] at read ⊢
      obtain ⟨all, finished⟩ := attended.concludes unread read
      rw [silent _ all, List.append_nil]
      exact ⟨all, finished⟩

end

section

variable {codec : RequestCodec M} {settings : EngineSettings} {link : ScriptedLink}
  {deeds : List (Deed M)}

theorem attended_run
    (obeys : (World.ofState (create codec settings link)).Obeys machine Undisturbed deeds) :
    Attended codec settings
      (stages ((World.ofState (create codec settings link)).applyAll machine deeds))
      (((World.ofState (create codec settings link)).history machine takes deeds).map Prod.snd)
      ((World.ofState (create codec settings link)).history machine hears deeds) := by
  refine World.keeps_run ⟨fun before last split => ?_, fun _ some => absurd rfl some⟩ ?_ obeys
  · exact absurd split (List.append_ne_nil_of_right_ne_nil _ (List.cons_ne_nil _ _)).symm
  · intro before deed earlier undisturbed attended
    have lawful := earlier.mono fun _ _ undisturbed => undisturbed.lawful
    have kept := kept_run (kept_create codec settings link) lawful
    have faithful := faithful_run (kept_create codec settings link)
      (faithful_create codec settings link) lawful
    rw [World.applyAll_snoc, World.history_snoc, World.history_snoc, List.map_append]
    exact attended.apply faithful rfl kept undisturbed

end

/-! ## A script that has been processed -/

/-- A script has been processed without a shutdown: the reader has read and told all of it and waits
for more, or it has read some of it and stopped. -/
structure Processed (script : List (Except Failure Received)) (start : Site M)
    (deeds : List (Deed M)) : Prop where
  obeys : start.Obeys machine Undisturbed deeds
  done : (start.history machine hears deeds = script ∧ ∃ task reading,
      stages (start.applyAll machine deeds) task = some (.inr reading) ∧ reading.waits = true) ∨
    (start.history machine hears deeds <+: script ∧ start.history machine hears deeds ≠ [] ∧
      Unread (stages (start.applyAll machine deeds)))

section

variable {codec : RequestCodec M} {settings : EngineSettings} {link : ScriptedLink}
  {deeds : List (Deed M)} {script : List (Except Failure Received)}

theorem on_of_waits {told : List (Event M)} {read : List (Event M) × Option Intake}
    {reading : Reading M} (tells : Tells told read reading) (waits : reading.waits = true) :
    ∃ intake, read.2 = some intake := by
  cases reading with
  | receiving intake => exact ⟨intake, tells.2⟩
  | pausing latest intake => exact ⟨intake, tells.2⟩
  | _ => cases waits

/-- What has been told of a script is what it comes to. -/
theorem Processed.told
    (processed : Processed script (World.ofState (create codec settings link)) deeds) :
    ((World.ofState (create codec settings link)).history machine takes deeds).map Prod.snd =
        .system .connected ::
          (Intake.ofLimit settings.maxPayload).transcript codec.toCodec script ∧
      Account codec.toCodec settings.maxPayload script
        ((World.ofState (create codec settings link)).history machine hears deeds)
        ((Intake.ofLimit settings.maxPayload).transcript codec.toCodec script) := by
  have attended := attended_run processed.obeys
  have faithful := faithful_run (kept_create codec settings link)
    (faithful_create codec settings link)
    (processed.obeys.mono fun _ _ undisturbed => undisturbed.lawful)
  rw [List.nil_append, List.nil_append] at faithful
  have done := processed.done
  generalize (World.ofState (create codec settings link)).history machine hears deeds = heard
    at done attended faithful ⊢
  rcases done with ⟨rfl, task, reading, there, waits⟩ | ⟨⟨rest, rfl⟩, read, unread⟩
  · refine ⟨faithful.told_of_waits there waits, ?_⟩
    obtain ⟨intake, on⟩ := on_of_waits (faithful.reader task reading there) waits
    exact Intake.account_of_some on
  · obtain ⟨all, finished⟩ := attended.concludes unread read
    rw [Intake.transcript_append_of_none finished]
    refine ⟨all, ?_⟩
    obtain none | ⟨before, last, rfl⟩ := List.eq_nil_or_concat' heard
    · exact absurd none read
    · rw [List.append_assoc]
      exact Intake.account_of_none (attended.heeds before last rfl) finished rest

/-- What the listeners are told of a script that has been processed, in whatever run. It makes no
difference how often nothing came in time. -/
theorem told_of_processed
    (processed : Processed script (World.ofState (create codec settings link)) deeds) :
    (∃ events,
      ((World.ofState (create codec settings link)).history machine takes deeds).map Prod.snd =
        .system .connected :: events ∧
      Account codec.toCodec settings.maxPayload script
        ((World.ofState (create codec settings link)).history machine hears deeds) events) ∧
    ∀ {link' : ScriptedLink} {deeds' : List (Deed M)} {script' : List (Except Failure Received)},
      Processed script' (World.ofState (create codec settings link')) deeds' →
      script'.filter heeded = script.filter heeded →
      ((World.ofState (create codec settings link')).history machine takes deeds').map Prod.snd =
        ((World.ofState (create codec settings link)).history machine takes deeds).map
          Prod.snd := by
  refine ⟨⟨_, processed.told.1, processed.told.2⟩, fun processed' alike => ?_⟩
  rw [processed.told.1, processed'.told.1, ← Intake.transcript_heeded, alike,
    Intake.transcript_heeded]

end

/-- A frame comes and the stream ends twice, the second time inside a header. -/
def broken : List (Except Failure Received) :=
  [.ok (.data [0x23, 0x23, 0, 2, 0, 0, 0, 1, 0x2a]), .ok .endOfStream, .ok .idle, .ok .endOfStream,
    .ok (.data [0x23]), .ok .endOfStream, .ok .idle]

/-- The connection is opened and all that is `broken` comes. After an end of the stream the reader
tries again when it has paused. -/
def breaking : List (Deed RawMessage) :=
  .start (.call (.begin .connect)) :: List.replicate 8 (.run 0) ++
    .outside (.feed (broken.map .outcome)) :: List.replicate 8 (.run 1) ++
    .wait 100 :: List.replicate 3 (.run 1) ++ .wait 100 :: List.replicate 6 (.run 1)

/-- The end of the stream is told once although it has come twice before the header, and the last
outcome is not read. -/
theorem told_of_broken :
    let start : Site RawMessage := World.ofState (create RawMessage.codec { maxPayload := 4 } {})
    let told := (start.history machine takes breaking).map Prod.snd
    Processed broken start breaking ∧
      (∃ events, told = .system .connected :: events ∧
        Account RawMessage.codec.toCodec 4 broken (start.history machine hears breaking) events) ∧
      told = [.system .connected, .message .success ⟨.success, [0x2a]⟩, .system .endOfStream,
        .system .failure] ∧
      start.history machine hears breaking = broken.dropLast := by
  intro start told
  have lawful : start.Obeys machine Lawful breaking := by
    repeat first | exact trivial | refine ⟨trivial, ?_⟩
  have unshut : start.Obeys machine (fun w _ => w.state.registry.shutdown = false) breaking := by
    decide +kernel
  have spares : start.Obeys machine Spares breaking := by
    repeat first | exact trivial | refine ⟨trivial, ?_⟩
  have read : start.history machine hears breaking = broken.dropLast := by decide +kernel
  have nobody : (start.applyAll machine breaking).tasks.isEmpty = true := by decide +kernel
  have processed : Processed broken start breaking := {
    obeys := (lawful.and (unshut.and spares)).mono
      fun _ _ ⟨lawful, unshut, spares⟩ => ⟨lawful, unshut, spares⟩
    done := by
      refine Or.inr ⟨?_, ?_, fun task reading there => ?_⟩
      · rw [read]
        exact List.dropLast_prefix broken
      · rw [read]
        decide
      · have at_work := exists_phase_of_reader there
        rw [World.phase?, List.isEmpty_iff.mp nobody] at at_work
        cases at_work }
  exact ⟨processed, (told_of_processed processed).1, by decide +kernel, read⟩

end Engine

end HardwareSigner
