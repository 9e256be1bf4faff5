import HardwareSigner.Proofs.Engine.Dealings
import HardwareSigner.Proofs.Engine.Emptying
import HardwareSigner.Proofs.Engine.Unopened
import HardwareSigner.Proofs.Listener.Holding

/-!
# What is always so of an engine

Tasks may be given up at any time, and still nothing of theirs is left behind: in the lines for the
two halves of the link and for the registry stand exactly those who are at work there, and whoever
waits in a mailbox dispatches an event.

> `Engine.upkeep_run`: so it is at every point of every run.
-/

namespace HardwareSigner

namespace EngineCall.Phase

variable {M : Type}

/-- Whether a call waits to open the link, or is opening it. -/
def opening? : Phase M → Option Errand
  | .connecting | .opening _ _ => some .handles
  | _ => none

/-- Whether a call is on its way to put the writing half in. -/
def prepares : Phase M → Bool
  | .connecting | .opening _ _ | .installing => true
  | _ => false

section

variable {task : TaskId} {clock : Nat} {e : Engine M} {phase : Phase M} {step : Step M}
  {errands : Work Errand}

/-- A call has gone on to stand in the line for the writing half, or has left it. -/
theorem Steps.standing (steps : phase.Steps task clock e step)
    (standing : Desk.Standing errands e.writerLock) (there : errands task = phase.errand?) :
    Desk.Standing (errands.set task (step.next.getLeft?.bind errand?)) step.engine.writerLock := by
  have rests : ∀ {errand? : Option Errand}, errands task = errand? →
      Desk.Standing (errands.set task errand?) e.writerLock := by
    intro errand? same
    rw [Work.set_same same]
    exact standing
  have closed : e.closeWriter.2.writerLock = e.writerLock :=
    congrArg Desk.lock (desk_closeWriter e)
  cases steps with
  | sends block other => exact standing.comes there _
  | detaches unclosed => exact standing.comes there _
  | opens latest failure? link => exact standing.comes there _
  | joined latest => exact standing.comes there _
  | installs connecting => exact standing.goes task
  | withdraws unconnecting =>
    have again := (standing.goes task).comes (Work.set_self _ _ _) .handles
    rwa [Work.set_set] at again
  | retracts =>
    show Desk.Standing _ (e.closeWriter.2.writerLock.release task)
    rw [closed]
    exact standing.goes task
  | parts outcome =>
    show Desk.Standing _ (e.closeWriter.2.writerLock.release task)
    rw [closed]
    exact standing.goes task
  | denies block => exact standing.goes task
  | writes block latest failure? link => exact standing.changes (by rw [there]; rfl) _
  | writesOut block latest failure? outcome link => exact standing.goes task
  | registers operation =>
    cases turn : (operation.step task e.registry).1 with
    | inl later => exact rests there
    | inr answer => exact rests there
  | _ => exact rests there

/-- A call has gone on to stand in the line for the other half, or has left it. -/
theorem standing_opening (standing : Desk.Standing errands e.openLock)
    (there : errands task = phase.opening?) :
    Desk.Standing (errands.set task ((phase.step task clock e).next.getLeft?.bind opening?))
      (phase.step task clock e).engine.openLock := by
  by_cases opens : ∃ latest failure?, phase = .opening latest failure?
  · obtain ⟨latest, failure?, rfl⟩ := opens
    show Desk.Standing (errands.set task ((opened task failure? e).next.getLeft?.bind opening?))
      (opened task failure? e).engine.openLock
    unfold opened
    simp only
    split
    · exact standing.goes task
    · split <;> exact standing.goes task
  · have rests : ∀ {opening? : Option Errand}, errands task = opening? →
        Desk.Standing (errands.set task opening?) e.openLock := by
      intro opening? same
      rw [Work.set_same same]
      exact standing
    have closed : e.closeWriter.2.openLock = e.openLock := by
      unfold Engine.closeWriter
      split <;> rfl
    have steps := phase.steps task clock e
    generalize phase.step task clock e = step at steps
    cases steps with
    | tries disconnected => exact standing.comes there _
    | opens latest failure? link => exact absurd ⟨latest, failure?, rfl⟩ opens
    | fails latest failure? failure link lock => exact absurd ⟨latest, failure?, rfl⟩ opens
    | registers operation =>
      cases turn : (operation.step task e.registry).1 with
      | inl later => exact rests there
      | inr answer => exact rests there
    | retracts =>
      show Desk.Standing _ e.closeWriter.2.openLock
      rw [closed]
      exact rests there
    | parts outcome =>
      show Desk.Standing _ e.closeWriter.2.openLock
      rw [closed]
      exact rests there
    | _ => exact rests there

/-- A call that is given up leaves both lines. -/
theorem standing_release (standing : Desk.Standing errands e.writerLock)
    (there : errands task = phase.errand?) :
    Desk.Standing (errands.set task none) (phase.release task e).writerLock := by
  cases phase with
  | installing | retracting | sending | writing | detaching => exact standing.goes task
  | _ =>
    have elsewhere : errands task = none := there
    rw [Work.set_same elsewhere]
    exact standing

theorem opening_release (standing : Desk.Standing errands e.openLock)
    (there : errands task = phase.opening?) :
    Desk.Standing (errands.set task none) (phase.release task e).openLock := by
  cases phase with
  | connecting | opening => exact standing.goes task
  | _ =>
    have elsewhere : errands task = none := there
    rw [Work.set_same elsewhere]
    exact standing

/-- A call leaves the reader alone, or starts it. -/
theorem Steps.reader (steps : phase.Steps task clock e step) :
    step.engine.reader = e.reader ∧ step.reader? = none ∨ step.engine.reader = .running := by
  have closed : e.closeWriter.2.reader = e.reader := by
    unfold Engine.closeWriter
    split <;> rfl
  cases steps with
  | connects turn unshut => exact Or.inr rfl
  | retracts => exact Or.inl ⟨closed, rfl⟩
  | parts outcome => exact Or.inl ⟨closed, rfl⟩
  | _ => exact Or.inl ⟨rfl, rfl⟩

/-- A call that comes to prepare the connection has found it unmade, or has prepared it before. -/
theorem Steps.prepares {next : Phase M} (steps : phase.Steps task clock e step)
    (goesOn : step.next = .inl next) (prepares : next.prepares = true) :
    step.engine.state = .connecting ∨ phase.prepares = true ∧ step.engine.state = e.state := by
  have gets : step.next.getLeft?.any Phase.prepares = true := by
    rw [goesOn]
    exact prepares
  cases steps with
  | tries disconnected => exact Or.inl rfl
  | plans | opens => exact Or.inr ⟨rfl, rfl⟩
  | registers operation =>
    cases turn : (operation.step task e.registry).1 with
    | inl later => rw [turn] at gets; cases gets
    | inr answer => rw [turn] at gets; cases gets
  | _ => cases gets

/-- Nobody else takes back that somebody makes the connection, except to close the engine. -/
theorem Steps.still_connecting (steps : phase.Steps task clock e step)
    (connecting : e.state = .connecting) (aside : Stage.drives (.inl phase : Stage M) = false) :
    step.engine.state = .connecting ∨ step.engine.state = .closed := by
  cases steps with
  | tries disconnected => exact Or.inl rfl
  | detaches | joins => exact Or.inr rfl
  | fails | installs => cases aside
  | retracts => exact Or.inl ((Engine.state_closeWriter e).trans connecting)
  | parts => exact Or.inl ((Engine.state_closeWriter e).trans connecting)
  | _ => exact Or.inl connecting

end

/-- A call that shuts the engine down closes it. -/
theorem Steps.shuts {task : TaskId} {clock : Nat} {e : Engine M} {phase : Phase M} {step : Step M}
    (steps : phase.Steps task clock e step) (shut : step.engine.registry.shutdown = true) :
    e.registry.shutdown = true ∨ step.engine.state = .closed := by
  have works : ∀ {phase : Operation.Phase M} {next : Operation.Phase M ⊕ Operation.Answer}
      {registry : Registry M}, phase.step task e.registry = (next, registry) →
      registry.shutdown = true → e.registry.shutdown = true := by
    intro phase next registry turn shut
    have same := (phase.steps task e.registry).shutdown
    rw [turn] at same
    exact same.symm.trans shut
  cases steps with
  | detaches | joins => exact Or.inr rfl
  | registers phase => exact Or.inl (works rfl shut)
  | announces turn | refuses turn | connects turn | tells outcome turn | unlinks outcome turn
  | clears outcome turn | closes outcome turn => exact Or.inl (works turn shut)
  | retracts | parts =>
    have same := congrArg Registry.shutdown (Engine.registry_closeWriter e)
    exact Or.inl (same.symm.trans shut)
  | _ => exact Or.inl shut

end EngineCall.Phase

namespace Reading

variable {M : Type}

/-- A reader that goes on is running as before. -/
theorem reader_of_onward {intake : Intake} {e e' : Engine M} {events : List (Event M)}
    {course : Course} {next : Reading M}
    (onward : Onward intake e events course (some next) e') : e'.reader = e.reader := by
  cases onward <;> rfl

theorem reader_of_step {task : TaskId} {clock : Nat} {reading next : Reading M} {e : Engine M}
    (goesOn : (reading.step task clock e).1 = some next) :
    (reading.step task clock e).2.reader = e.reader := by
  cases aborted : e.aborted with
  | true =>
    have stops : reading.step task clock e = stop (reading.release task e) := if_pos aborted
    rw [stops] at goesOn
    cases goesOn
  | false =>
    have steps := reading.steps aborted task clock
    rw [goesOn] at steps
    generalize (reading.step task clock e).2 = e' at steps
    cases steps with
    | hears intake unshut receives onward => exact (reader_of_onward onward).trans rfl
    | proceeds turn onward => exact (reader_of_onward onward).trans rfl
    | _ => rfl

/-- The reader does not shut the engine down. -/
theorem shutdown_of_step (task : TaskId) (clock : Nat) (reading : Reading M) (e : Engine M) :
    (reading.step task clock e).2.registry.shutdown = e.registry.shutdown := by
  rw [registry_step]
  cases Stage.operation? (.inr reading) with
  | none => rfl
  | some phase =>
    simp only [Option.map_some, Option.getD_some]
    split
    · exact (Operation.Phase.keeps_release phase task e.registry).shutdown
    · exact (phase.steps task e.registry).shutdown

end Reading

namespace Engine

open Registry (Lined Parked)

variable {M : Type}

/-! ## An engine that is not discarded -/

/-- Whether the engine is shut down from outside. -/
def Act.discards : Act → Bool
  | .discard | .listeners .shutdown => true
  | _ => false

/-- What may be done to an engine that somebody still uses: nobody discards it. -/
def InUse (w : Site M) (deed : Deed M) : Prop :=
  Lawful w deed ∧ ∀ act, deed = .outside act → act.discards = false

/-- As long as an engine is in use only closing shuts it down. -/
def ShutByClosing (e : Engine M) : Prop := e.registry.shutdown = true → e.state = .closed

section

variable {w : Site M} {deed : Deed M}

theorem shutByClosing_apply (shutBy : ShutByClosing w.state) (numbered : w.Numbered)
    (inUse : InUse w deed) : ShutByClosing (w.apply machine deed).state := by
  intro shut
  have still : w.state.registry.shutdown = true → (w.apply machine deed).state.state = .closed :=
    fun shut => closed_effect (effect numbered inUse.1) (shutBy shut)
  have spared : ∀ act : Registry.Act, act ≠ .shutdown →
      (w.state.registry.act act).shutdown = w.state.registry.shutdown := by
    intro act other
    obtain ⟨mailboxes, shut, same, shuts⟩ := w.state.registry.act_eq act
    rw [same]
    exact shuts.resolve_left other
  cases deed with
  | start found => exact still shut
  | wait ms => exact still shut
  | outside act =>
    have kept := inUse.2 act rfl
    cases act with
    | listeners act =>
      refine still (Eq.trans (spared act ?_).symm shut)
      rintro rfl
      cases kept
    | feed arrivals => exact still shut
    | discard => cases kept
    | vanish => exact still shut
  | abandon task =>
    cases at_work : w.phase? task with
    | none =>
      have same : w.apply machine (.abandon task) = w := World.abandon_of_none at_work
      rw [same] at shut ⊢
      exact shutBy shut
    | some found =>
      refine still (Eq.trans ?_ shut)
      have left : w.apply machine (.abandon task) = _ := World.abandon_of_phase at_work
      rw [left]
      cases found with
      | call phase => exact (shutdown_release task (.inl phase) w.state).symm
      | exchange phase box ms => exact (shutdown_release task (.inl phase) w.state).symm
      | read reading => exact (shutdown_release task (.inr reading) w.state).symm
      | receive waiting => rfl
      | rest latest => rfl
  | run task =>
    cases acts : actor w (.run task) with
    | none =>
      rcases (apply_of_nobody acts).2 with same | ⟨box, same⟩
      · refine still (Eq.trans ?_ shut)
        rw [same]
      · rw [same] at shut
        exact still ((spared (.take box) nofun).symm.trans shut)
    | some found =>
      obtain ⟨other, phase | reading⟩ := found
      · rw [(apply_of_call numbered acts).2] at shut
        rcases (phase.steps other w.clock w.state).shuts shut with before | closed
        · exact still before
        · rw [(apply_of_call numbered acts).2]
          exact closed
      · rw [(apply_of_reader acts).2, Reading.shutdown_of_step] at shut
        exact still shut

end

/-! ## What is always so -/

/-- What a task has to do with the half that opens the link. -/
def opening? : Stage M → Option Errand
  | .inl phase => phase.opening?
  | .inr _ => none

/-- The line for it is left to the calls. -/
theorem callsOnly_openLock : CallsOnly (fun e : Engine M => e.openLock) where
  registry _ _ := rfl
  reader _ _ := rfl
  aborted _ _ := rfl
  receives _ _ _ _ := rfl
  feeds _ _ := rfl

/-- Whoever prepares the connection has it made, unless the engine has been closed. -/
def Preparing (stages : Work (Stage M)) (e : Engine M) : Prop :=
  ∀ task phase, stages task = some (.inl phase) → phase.prepares = true →
    e.state = .connecting ∨ e.state = .closed

/-- What is so of an engine at any time. -/
structure Upkeep (w : Site M) (told : List (TaskId × Event M)) (tried : List (Event M)) :
    Prop where
  kept : Kept w told tried
  plain : Plain (stages w)
  lined : Lined (operations (stages w)) w.state.registry
  parked : Parked (operations (stages w)) w.state.registry
  roomy : 0 < w.state.registry.capacity
  writing : Desk.Standing (errands (stages w)) w.state.writerLock
  opening : Desk.Standing (seen opening? (stages w)) w.state.openLock
  blank : w.state.state.unopened = true → Blank (stages w) w.state (told.map Prod.snd)
  running : ∀ task reading, stages w task = some (.inr reading) → w.state.reader = .running
  preparing : Preparing (stages w) w.state

section

variable {w : Site M} {told tried : List (Event M)} {took : List (TaskId × Event M)}
  {more : List (Event M)} {heard : List (Except Failure Received)} {stages' : Work (Stage M)}
  {e' : Engine M}

/-- Of a reader that a call may start nothing is seen. -/
theorem seen_call {view : Stage M → Option Errand} (reads : ∀ reading, view (.inr reading) = none)
    {task fresh : TaskId} {stages : Work (Stage M)} {phase : EngineCall.Phase M}
    (there : stages task = some (.inl phase)) (unused : stages fresh = none)
    (next? : Option (EngineCall.Phase M)) (reader? : Option (Reading M)) :
    seen view (Work.set (Work.set stages task (next?.map .inl)) fresh (reader?.map .inr)) =
      (seen view stages).set task (next?.bind fun next => view (.inl next)) := by
  have other : fresh ≠ task := by
    rintro rfl
    rw [there] at unused
    cases unused
  rw [seen_set_same, seen_set]
  · cases next? <;> rfl
  · exact seen_of_none ((Work.set_of_ne _ _ _ other).trans unused)
  · cases reader? with
    | none => rfl
    | some reading => exact reads reading

theorem seen_begin {view : Stage M → Option Errand} {fresh : TaskId} {stages : Work (Stage M)}
    (unused : stages fresh = none) {stage : Stage M} (hidden : view stage = none) :
    seen view (Work.set stages fresh (some stage)) = seen view stages :=
  seen_set_same (seen_of_none unused) hidden

/-- Calls alone stand in the line for a half of the link: `view` says what each stage has to do with
it, and a call goes on to stand there or leaves. -/
structure LinesUp (view : Stage M → Option Errand) (lock : Engine M → Lock) : Prop where
  begins : ∀ call, view (.inl (.begin call)) = none
  reads : ∀ reading, view (.inr reading) = none
  calls : ∀ {errands : Work Errand} {task : TaskId} {phase : EngineCall.Phase M} {e : Engine M}
    (clock : Nat), Desk.Standing errands (lock e) → errands task = view (.inl phase) →
    Desk.Standing
      (errands.set task
        ((phase.step task clock e).next.getLeft?.bind fun next => view (.inl next)))
      (lock (phase.step task clock e).engine)
  leaves : ∀ {errands : Work Errand} {task : TaskId} {phase : EngineCall.Phase M} {e : Engine M},
    Desk.Standing errands (lock e) → errands task = view (.inl phase) →
    Desk.Standing (errands.set task none) (lock (phase.release task e))
  aside : ∀ task clock (reading : Reading M) e, lock (reading.step task clock e).2 = lock e
  stops : ∀ task (reading : Reading M) e, lock (Stage.release task (.inr reading) e) = lock e
  acts : ∀ (e : Engine M) act, lock (e.act act) = lock e

/-- In the line stand those who have to do with it, whatever is done. -/
theorem LinesUp.standing {view : Stage M → Option Errand} {lock : Engine M → Lock}
    (linesUp : LinesUp view lock) (standing : Desk.Standing (seen view (stages w)) (lock w.state))
    (effect : Effect w took more heard stages' e') :
    Desk.Standing (seen view stages') (lock e') := by
  cases effect with
  | same => exact standing
  | begins call fresh =>
    rw [seen_begin fresh (linesUp.begins call)]
    exact standing
  | calls task phase there fresh =>
    rw [seen_call linesUp.reads there fresh]
    exact linesUp.calls w.clock standing (seen_of_some there)
  | reads task reading there unaborted =>
    rw [linesUp.aside, seen_set_same ((seen_of_some there).trans (linesUp.reads reading))]
    · exact standing
    · cases (reading.step task w.clock w.state).1 with
      | none => rfl
      | some next => exact linesUp.reads next
  | leaves task stage there =>
    rw [seen_set]
    rcases stage with phase | reading
    · exact linesUp.leaves standing (seen_of_some there)
    · rw [linesUp.stops]
      show Desk.Standing ((seen view (stages w)).set task none) _
      rw [Work.set_same ((seen_of_some there).trans (linesUp.reads reading))]
      exact standing
  | acts act lawful =>
    rw [linesUp.acts]
    exact standing

theorem linesUp_writing : LinesUp (M := M) errand? Engine.writerLock where
  begins _ := rfl
  reads _ := rfl
  calls {_ task phase e} clock standing there := (phase.steps task clock e).standing standing there
  leaves standing there := EngineCall.Phase.standing_release standing there
  aside task clock reading e := congrArg Desk.lock (callsOnly_desk.step task clock reading e)
  stops _ reading _ := by cases reading <;> rfl
  acts _ act := by cases act <;> rfl

theorem linesUp_opening : LinesUp (M := M) opening? Engine.openLock where
  begins _ := rfl
  reads _ := rfl
  calls _ standing there := EngineCall.Phase.standing_opening standing there
  leaves standing there := EngineCall.Phase.opening_release standing there
  aside task clock reading e := callsOnly_openLock.step task clock reading e
  stops _ reading _ := by cases reading <;> rfl
  acts _ act := by cases act <;> rfl

/-- Whoever reads, the reader is running. -/
theorem running_effect (roles : Roles (stages w) w.state told tried)
    (running : ∀ task reading, stages w task = some (.inr reading) → w.state.reader = .running)
    (effect : Effect w took more heard stages' e') (task : TaskId) (reading : Reading M)
    (there : stages' task = some (.inr reading)) : e'.reader = .running := by
  -- Somebody else who leaves is not another reader.
  have alone : ∀ {other : TaskId} {also : Reading M}, stages w other = some (.inr also) →
      stages w task = some (.inr reading) → other = task :=
    fun first second => roles.driver _ _ _ _ first second rfl rfl
  cases effect with
  | same => exact running task reading there
  | begins call fresh =>
    rcases Work.set_cases _ _ _ there with ⟨-, now⟩ | ⟨-, before⟩
    · cases now
    · exact running task reading before
  | calls caller phase at_work fresh =>
    rcases (phase.steps caller w.clock w.state).reader with ⟨same, nobody⟩ | starts
    · rw [nobody] at there
      rcases Work.set_cases _ _ _ there with ⟨-, now⟩ | ⟨-, earlier⟩
      · cases now
      · rcases Work.set_cases _ _ _ earlier with ⟨-, now⟩ | ⟨-, before⟩
        · obtain ⟨later, -, other⟩ := Option.map_eq_some_iff.mp now
          cases other
        · exact same.trans (running task reading before)
    · exact starts
  | reads reader also at_work unaborted =>
    rcases Work.set_cases _ _ _ there with ⟨-, now⟩ | ⟨different, before⟩
    · obtain ⟨next, goesOn, -⟩ := Option.map_eq_some_iff.mp now
      exact (Reading.reader_of_step goesOn).trans (running reader also at_work)
    · exact absurd (alone at_work before).symm different
  | leaves leaver stage at_work =>
    rcases Work.set_cases _ _ _ there with ⟨-, gone⟩ | ⟨different, before⟩
    · cases gone
    · rcases stage with phase | also
      · rw [show (Stage.release leaver (.inl phase) w.state).reader = w.state.reader by
          cases phase <;> rfl]
        exact running task reading before
      · exact absurd (alone at_work before).symm different
  | acts act lawful => cases act <;> exact running task reading there

theorem preparing_effect (roles : Roles (stages w) w.state told tried)
    (preparing : Preparing (stages w) w.state) (effect : Effect w took more heard stages' e') :
    Preparing stages' e' := by
  by_cases closed : w.state.state = .closed
  · exact fun _ _ _ _ => Or.inr (closed_effect effect closed)
  have connecting : ∀ {task : TaskId} {phase : EngineCall.Phase M},
      stages w task = some (.inl phase) → phase.prepares = true → w.state.state = .connecting :=
    fun there prepares => (preparing _ _ there prepares).resolve_right closed
  intro task phase there prepares
  cases effect with
  | same => exact preparing task phase there prepares
  | begins call fresh =>
    rcases Work.set_cases _ _ _ there with ⟨-, now⟩ | ⟨-, before⟩
    · cases now
      cases prepares
    · exact preparing task phase before prepares
  | calls caller found at_work fresh =>
    rcases Work.set_cases _ _ _ there with ⟨-, now⟩ | ⟨-, earlier⟩
    · obtain ⟨reading, -, other⟩ := Option.map_eq_some_iff.mp now
      cases other
    · rcases Work.set_cases _ _ _ earlier with ⟨-, now⟩ | ⟨different, before⟩
      · obtain ⟨next, goesOn, same⟩ := Option.map_eq_some_iff.mp now
        cases same
        rcases (found.steps caller w.clock w.state).prepares (Sum.getLeft?_eq_some_iff.mp goesOn)
          prepares with made | ⟨prepared, same⟩
        · exact Or.inl made
        · rw [same]
          exact preparing caller found at_work prepared
      · -- Only one call at a time prepares the connection.
        refine (found.steps caller w.clock w.state).still_connecting (connecting before prepares) ?_
        rw [Bool.eq_false_iff]
        intro drives
        refine different (roles.driver task caller _ _ before at_work ?_ drives)
        cases phase <;> first | rfl | cases prepares
  | reads reader reading at_work unaborted =>
    rcases Work.set_cases _ _ _ there with ⟨-, now⟩ | ⟨-, before⟩
    · obtain ⟨next, -, other⟩ := Option.map_eq_some_iff.mp now
      cases other
    · have same := callsOnly_state.step reader w.clock reading w.state
      exact Or.inl (same.trans (connecting before prepares))
  | leaves leaver stage at_work =>
    rcases Work.set_cases _ _ _ there with ⟨-, gone⟩ | ⟨-, before⟩
    · cases gone
    · exact Or.inl ((Stage.state_release leaver stage w.state).trans (connecting before prepares))
  | acts act lawful => cases act <;> exact preparing task phase there prepares

end

section

variable {w : Site M} {told : List (TaskId × Event M)} {tried : List (Event M)} {deed : Deed M}
  {deeds : List (Deed M)}

theorem upkeep_create (codec : RequestCodec M) (settings : EngineSettings) (link : ScriptedLink) :
    Upkeep (World.ofState (create codec settings link)) [] [] where
  kept := kept_create codec settings link
  plain _ _ _ none := nomatch none
  lined := Registry.lined_empty _
  parked := Registry.parked_empty _
  roomy := Nat.lt_of_lt_of_le Nat.one_pos (Nat.le_max_right _ 1)
  writing := ⟨fun _ => iff_of_false List.not_mem_nil Bool.false_ne_true,
    fun _ none => (nomatch none), List.nodup_nil⟩
  opening := ⟨fun _ => iff_of_false List.not_mem_nil Bool.false_ne_true,
    fun _ none => (nomatch none), List.nodup_nil⟩
  blank _ := blank_create codec settings link
  running _ _ none := nomatch none
  preparing _ _ none := nomatch none

theorem Upkeep.apply (upkeep : Upkeep w told tried) (lawful : Lawful w deed) :
    Upkeep (w.apply machine deed) (told ++ takes w deed) (tried ++ tries w deed) where
  kept := upkeep.kept.apply lawful
  plain := plain_apply upkeep.plain upkeep.kept.numbered lawful
  lined := (upkeep.kept.moves lawful).lined upkeep.lined
  parked := (upkeep.kept.moves lawful).parked upkeep.parked
  roomy := (upkeep.kept.moves lawful).capacity ▸ upkeep.roomy
  writing := linesUp_writing.standing upkeep.writing (effect upkeep.kept.numbered lawful)
  opening := linesUp_opening.standing upkeep.opening (effect upkeep.kept.numbered lawful)
  blank := blank_effect upkeep.blank upkeep.kept.roles (effect upkeep.kept.numbered lawful)
  running := running_effect upkeep.kept.roles upkeep.running (effect upkeep.kept.numbered lawful)
  preparing :=
    preparing_effect upkeep.kept.roles upkeep.preparing (effect upkeep.kept.numbered lawful)

theorem upkeep_run (upkeep : Upkeep w told tried) (obeys : w.Obeys machine Lawful deeds) :
    Upkeep (w.applyAll machine deeds) (told ++ w.history machine takes deeds)
      (tried ++ w.history machine tries deeds) := by
  refine World.keeps_run ?_ ?_ obeys
  · rw [World.history, World.history, List.append_nil, List.append_nil]
    exact upkeep
  · intro before deed _ lawful upkeep
    rw [World.applyAll_snoc, World.history_snoc, World.history_snoc, ← List.append_assoc,
      ← List.append_assoc]
    exact upkeep.apply lawful

theorem shutByClosing_run (numbered : w.Numbered) (shutBy : ShutByClosing w.state)
    (obeys : w.Obeys machine InUse deeds) : ShutByClosing (w.applyAll machine deeds).state := by
  refine World.keeps_run shutBy ?_ obeys
  intro before deed _ inUse shutBy
  rw [World.applyAll_snoc]
  exact shutByClosing_apply shutBy (numbered_applyAll numbered before) inUse

/-! ## Where no call is at work -/

theorem eq_empty_of_line {l : Lock} (nobody : ∀ task, task ∉ l.line) : l = {} :=
  congrArg Lock.mk (List.map_eq_nil_iff.mp (List.eq_nil_iff_forall_not_mem.mpr nobody))

/-- Only calls stand in the lines for the link. -/
theorem seen_eq_none (uncalled : ∀ task phase, stages w task ≠ some (.inl phase))
    {view : Stage M → Option Errand} (reads : ∀ reading, view (.inr reading) = none)
    (task : TaskId) : seen view (stages w) task = none := by
  cases there : stages w task with
  | none => exact seen_of_none there
  | some stage =>
    rcases stage with phase | reading
    · exact absurd there (uncalled task phase)
    · exact (seen_of_some there).trans (reads reading)

section

variable (upkeep : Upkeep w told tried)
  (uncalled : ∀ task phase, stages w task ≠ some (.inl phase))

include upkeep uncalled

theorem Upkeep.writerLock_eq : w.state.writerLock = {} :=
  eq_empty_of_line fun task =>
    upkeep.writing.absent (seen_eq_none uncalled (fun _ => rfl) task)

theorem Upkeep.openLock_eq : w.state.openLock = {} :=
  eq_empty_of_line fun task =>
    upkeep.opening.absent (seen_eq_none uncalled (fun _ => rfl) task)

end

end

end Engine

end HardwareSigner
