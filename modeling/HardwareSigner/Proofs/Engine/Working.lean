import HardwareSigner.Proofs.Engine.Conduct

/-!
# How an engine uses its registry

Whatever happens to an engine is one of the moves of those who work on its registry. Since everybody
keeps to his role, one task at a time dispatches, and the dispatches follow each other without a gap
as long as somebody has the say and the engine is not shut down.

> `Engine.moves_effect`: what an action does to an engine moves its registry.
> `Engine.Roles.sound`: the tasks keep to what `Registry.Sound` asks of them.
-/

namespace HardwareSigner

namespace Engine

open Registry (Bounded Moves Sound)

variable {M : Type}

/-- More may be dispatched: somebody has the say or may get it, and nobody has shut down. -/
def Going (stages : Work (Stage M)) (e : Engine M) : Prop :=
  e.registry.shutdown = false ∧
    (e.state = .disconnected ∨ ∃ task stage, stages task = some stage ∧ stage.drives = true)

theorem operations_set (stages : Work (Stage M)) (task : TaskId) (next? : Option (Stage M)) :
    operations (Work.set stages task next?) =
      Work.set (operations stages) task (next?.bind Stage.operation?) := by
  funext other
  unfold operations
  by_cases here : other = task
  · rw [here, Work.set_self, Work.set_self]
  · rw [Work.set_of_ne _ _ _ here, Work.set_of_ne _ _ _ here]

theorem operations_of_none {stages : Work (Stage M)} {task : TaskId} (gone : stages task = none) :
    operations stages task = none := by
  unfold operations
  rw [gone]
  rfl

/-! ## Moves that take no step on the registry -/

section

variable {going : Prop} {work : Work (Operation.Phase M)} {r : Registry M} {task : TaskId}

theorem moves_stay (idle : work task = none) :
    Moves going work r [] [] (Work.set work task none) r := by
  rw [Work.set_same idle]
  exact .same

theorem moves_shut (idle : work task = none) :
    Moves going work r [] [] (Work.set work task none) { r with shutdown := true } := by
  rw [Work.set_same idle]
  exact .acts .shutdown

end

/-! ## The moves of a call -/

section

variable {going : Prop} {stages : Work (Stage M)} {e : Engine M} {task : TaskId}

/-- A step of a call on the registry of its engine. -/
theorem moves_step {phase : EngineCall.Phase M} {step : EngineCall.Step M} {clock : Nat}
    (there : operations stages task = Stage.operation? (.inl phase))
    (steps : phase.Steps task clock e step) :
    Moves going (operations stages) e.registry (tookBy task (Stage.operation? (.inl phase)))
      (triedBy (Stage.operation? (.inl phase)))
      (Work.set (operations stages) task ((step.next.getLeft?.map .inl).bind Stage.operation?))
      step.engine.registry := by
  have works : ∀ {phase : Operation.Phase M}, operations stages task = some phase →
      Moves going (operations stages) e.registry (phase.takes.map fun event => (task, event))
        phase.tries (Work.set (operations stages) task (phase.step task e.registry).1.getLeft?)
        (phase.step task e.registry).2 := fun there => .steps task _ there
  cases steps with
  | listens asks => exact .begins task _ there
  | installs connecting => exact .begins task _ there
  | detaches unclosed => exact moves_shut there
  | joins unclosed latest => exact moves_shut there
  | registers phase =>
    have same : (((phase.step task e.registry).1.map EngineCall.Phase.listeners
        EngineCall.Phase.ofRegistry).getLeft?.map Sum.inl).bind Stage.operation? =
        (phase.step task e.registry).1.getLeft? := by
      cases (phase.step task e.registry).1 <;> rfl
    rw [same]
    exact works there
  | retracts =>
    show Moves going (operations stages) e.registry [] [] _ e.closeWriter.2.registry
    rw [registry_closeWriter]
    exact moves_stay there
  | parts outcome =>
    show Moves going (operations stages) e.registry [] [] _ e.closeWriter.2.registry
    rw [registry_closeWriter]
    exact .begins task (.tryDispatch (.system .disconnected)) there
  | announces turn | refuses turn | connects turn | tells outcome turn | clears outcome turn
  | closes outcome turn =>
    have moved := works there
    rw [turn] at moved
    exact moved
  | @unlinks phase result registry outcome turn =>
    have finished : (phase.step task e.registry).1.getLeft? = none := by rw [turn]; rfl
    have moved : Moves going (operations stages) e.registry _ _ _ _ :=
      .follows task phase there finished .clear
    rw [turn] at moved
    exact moved
  | _ => exact moves_stay there

/-- A call may leave a reader behind, which has not begun to dispatch anything. -/
theorem operations_call {phase : EngineCall.Phase M} (clock : Nat) {fresh : TaskId}
    (unused : stages fresh = none) (there : stages task = some (.inl phase)) :
    operations (Work.set
        (Work.set stages task ((phase.step task clock e).next.getLeft?.map .inl))
        fresh ((phase.step task clock e).reader?.map .inr)) =
      Work.set (operations stages) task
        (((phase.step task clock e).next.getLeft?.map .inl).bind Stage.operation?) := by
  have other : fresh ≠ task := by
    intro same
    rw [same, there] at unused
    cases unused
  have none : ((phase.step task clock e).reader?.map Sum.inr).bind Stage.operation? = none := by
    cases starts : (phase.step task clock e).reader? with
    | none => rfl
    | some reading =>
      obtain ⟨-, -, rfl⟩ := (phase.steps task clock e).of_reader starts
      rfl
  -- A new reader waits for bytes, and works on no registry.
  rw [operations_set, operations_set, none]
  exact Work.set_same ((Work.set_of_ne _ _ _ other).trans (operations_of_none unused))

/-! ## The moves of the reader -/

/-- When the reader has nothing more on its hands, or has come to the end of a dispatch, it may go
on to the next. -/
theorem moves_onward {r : Registry M} {took : List (TaskId × Event M)} {tried : List (Event M)}
    {work : Work (Operation.Phase M)} (after : Engine M) {e' : Engine M} {events : List (Event M)}
    {course : Course} {intake : Intake} {next? : Option (Reading M)}
    (stops : Moves going work r took tried (Work.set work task none) after.registry)
    (goesOn : ∀ event, Moves going work r took tried
      (Work.set work task (some (.begin (.dispatch event)))) after.registry)
    (onward : Reading.Onward intake after events course next? e') :
    Moves going work r took tried
      (Work.set work task ((next?.map .inr).bind Stage.operation?)) e'.registry := by
  cases onward with
  | dispatches event rest course => exact goesOn event
  | receives => exact stops
  | pauses latest => exact stops
  | stops => exact stops
  | fails => exact goesOn _

theorem moves_read {reading : Reading M} {next? : Option (Reading M)} {e' : Engine M}
    (there : operations stages task = Stage.operation? (.inr reading))
    (steps : reading.Steps task e next? e') :
    Moves going (operations stages) e.registry (tookBy task (Stage.operation? (.inr reading)))
      (triedBy (Stage.operation? (.inr reading)))
      (Work.set (operations stages) task ((next?.map .inr).bind Stage.operation?)) e'.registry := by
  have works : ∀ {phase : Operation.Phase M}, operations stages task = some phase →
      Moves going (operations stages) e.registry (phase.takes.map fun event => (task, event))
        phase.tries (Work.set (operations stages) task (phase.step task e.registry).1.getLeft?)
        (phase.step task e.registry).2 := fun there => .steps task _ there
  cases steps with
  | @hears intake outcome link next? e' unshut receives onward =>
    exact moves_onward { e with link := link } (moves_stay there)
      (fun event => .begins task _ there) onward
  | @proceeds phase answer registry rest course intake next? e' turn onward =>
    have finished : (phase.step task e.registry).1.getLeft? = none := by rw [turn]; rfl
    have begins : ∀ event, Moves going (operations stages) e.registry _ _ _ _ :=
      fun event => .follows task phase there finished (.dispatch event)
    have stops := works there
    rw [turn] at begins stops
    exact moves_onward { e with registry := registry } stops begins onward
  | dispatches rest course intake turn | fails turn | stopsFailing turn =>
    have moved := works there
    rw [turn] at moved
    exact moved
  | _ => exact moves_stay there

end

/-! ## Who dispatches -/

section

variable {stages : Work (Stage M)} {e : Engine M} {told tried : List (Event M)} {task : TaskId}
  {stage : Stage M} {phase : Operation.Phase M}

/-- Only who has the say has something to dispatch. -/
theorem Roles.drives_of_offers (roles : Roles stages e told tried)
    (there : stages task = some stage) (works : stage.operation? = some phase)
    (offers : phase.offers = true) : stage.drives = true := by
  have fits := roles.fits task stage there
  rcases stage with call | reading
  · cases call with
    | listeners found =>
      cases works
      rw [fits.1] at offers
      cases offers
    | announcing found => rfl
    | parting found outcome =>
      cases works
      rcases fits.2 with ⟨-, rfl | rfl⟩ | ⟨delivered, rfl⟩
      · cases offers
      · cases offers
      · cases offers
    | clearing found outcome =>
      cases works
      rcases fits.2 with rfl | rfl
      · cases offers
      · cases offers
    | _ => cases works
  · rfl

/-- What is done only after a shutdown is done only after a shutdown. -/
theorem Roles.shutdown_of_late (roles : Roles stages e told tried)
    (there : stages task = some stage) (works : stage.operation? = some phase)
    (late : phase.late = true) : e.registry.shutdown = true := by
  have fits := roles.fits task stage there
  have never : phase.late = false → e.registry.shutdown = true := by
    intro early
    rw [early] at late
    cases late
  rcases stage with call | reading
  · cases call with
    | listeners found => cases works; exact never fits.2
    | announcing found => cases works; exact never fits.early
    | parting found outcome => exact roles.shut (Or.inl fits.1)
    | clearing found outcome => exact roles.shut (Or.inl fits.1)
    | _ => cases works
  · cases reading with
    | dispatching found rest course intake =>
      cases works
      obtain ⟨-, event, before, -, -, saying⟩ := fits
      exact never saying.early
    | failing found =>
      cases works
      obtain ⟨before, -, saying⟩ := fits
      exact never saying.early
    | _ => cases works

theorem stage_of_operations {found : Operation.Phase M}
    (there : operations stages task = some found) :
    ∃ stage, stages task = some stage ∧ stage.operation? = some found :=
  Option.bind_eq_some_iff.mp there

/-- The tasks of an engine keep to what those who work on its registry are asked to keep to. -/
theorem Roles.sound (roles : Roles stages e told tried)
    (bounded : Bounded (operations stages) e.registry) : Sound (operations stages) e.registry where
  ordered := bounded.ordered
  owed := bounded.owed
  single task other phase phase' there there' offers offers' := by
    obtain ⟨stage, found, works⟩ := stage_of_operations there
    obtain ⟨stage', found', works'⟩ := stage_of_operations there'
    exact roles.driver task other stage stage' found found'
      (roles.drives_of_offers found works offers) (roles.drives_of_offers found' works' offers')
  late task phase there late := by
    obtain ⟨stage, found, works⟩ := stage_of_operations there
    exact roles.shutdown_of_late found works late

/-- Whoever dispatches may go on, unless the engine is shut down. -/
theorem Roles.going_of_offers (roles : Roles stages e told tried)
    (there : operations stages task = some phase) (offers : phase.offers = true) :
    Going stages e ∨ e.registry.shutdown = true := by
  obtain ⟨stage, found, works⟩ := stage_of_operations there
  cases shut : e.registry.shutdown with
  | true => exact Or.inr rfl
  | false =>
    exact Or.inl ⟨shut, Or.inr ⟨task, stage, found, roles.drives_of_offers found works offers⟩⟩

end

/-! ## What happens to an engine -/

section

variable {w : Site M} {told tried more : List (Event M)} {took : List (TaskId × Event M)}
  {heard : List (Except Failure Received)} {stages' : Work (Stage M)} {e' : Engine M}

/-- When a dispatch is given up, nobody has the say any more. -/
theorem Roles.not_going_of_leave (roles : Roles (stages w) w.state told tried) {task : TaskId}
    {stage : Stage M} (there : stages w task = some stage) (drove : stage.drives = true) :
    ¬ Going (Work.set (stages w) task none) (stage.release task w.state) := by
  rintro ⟨-, disconnected | ⟨other, stage', there', drives⟩⟩
  · rw [Stage.state_release] at disconnected
    rw [(roles.idle disconnected).2 task stage there] at drove
    cases drove
  · rcases Work.set_cases _ _ _ there' with ⟨-, gone⟩ | ⟨different, before⟩
    · cases gone
    · exact different (roles.driver other task stage' stage before there drives drove)

/-- Whatever happens to an engine is a move of those who work on its registry. -/
theorem moves_effect (roles : Roles (stages w) w.state told tried)
    (effect : Effect w took more heard stages' e') :
    Moves (Going stages' e') (operations (stages w)) w.state.registry took more (operations stages')
      e'.registry := by
  cases effect with
  | same => exact .same
  | begins call fresh =>
    rw [operations_set]
    exact moves_stay (operations_of_none fresh)
  | calls task phase there fresh =>
    rw [operations_call w.clock fresh there]
    exact moves_step (operations_of_some there) (phase.steps task w.clock w.state)
  | reads task reading there unaborted =>
    rw [operations_set]
    exact moves_read (operations_of_some there) (reading.steps unaborted task w.clock)
  | leaves task stage there =>
    rw [operations_set, Stage.registry_release]
    have works := operations_of_some there
    cases operation : stage.operation? with
    | none => exact moves_stay (works.trans operation)
    | some phase =>
      -- To give up a dispatch is to give up the say, and then no dispatch goes on.
      refine .leaves task phase (works.trans operation) fun goes => ?_
      rw [Bool.eq_false_iff]
      intro offers
      exact roles.not_going_of_leave there (roles.drives_of_offers there operation offers) goes
  | acts act lawful =>
    cases act with
    | listeners act => exact .acts act
    | feed arrivals => exact .same
    | discard => exact .acts .shutdown
    | vanish => exact .unlinks (lawful rfl)

/-- A call that gets the say has had it before, or the connection had not been tried. -/
theorem drove_of_drives {phase next : EngineCall.Phase M} {step : EngineCall.Step M}
    {task : TaskId} {clock : Nat} {e : Engine M} (steps : phase.Steps task clock e step)
    (goesOn : step.next = .inl next) (drives : Stage.drives (.inl next : Stage M) = true) :
    Stage.drives (.inl phase : Stage M) = true ∨ e.state = .disconnected := by
  have gets : step.next.getLeft?.any (fun later => Stage.drives (.inl later)) = true := by
    rw [goesOn]
    exact drives
  cases steps with
  | tries disconnected => exact Or.inr disconnected
  | plans | opens | installs | announces => exact Or.inl rfl
  | registers phase =>
    cases turn : (phase.step task e.registry).1 with
    | inl later =>
      rw [turn] at gets
      cases gets
    | inr answer =>
      rw [turn] at gets
      cases gets
  | _ => cases gets

/-- Only the call that has the say goes back to a connection that has not been tried. -/
theorem drove_of_disconnected {phase : EngineCall.Phase M} {step : EngineCall.Step M}
    {task : TaskId} {clock : Nat} {e : Engine M} (steps : phase.Steps task clock e step)
    (disconnected : step.engine.state = .disconnected) :
    Stage.drives (.inl phase : Stage M) = true ∨ e.state = .disconnected := by
  cases steps with
  | tries => cases disconnected
  | detaches => cases disconnected
  | joins => cases disconnected
  | plans | opens | fails | installs | withdraws | announces | refuses | connects =>
    exact Or.inl rfl
  | retracts => exact Or.inr ((state_closeWriter e).symm.trans disconnected)
  | parts => exact Or.inr ((state_closeWriter e).symm.trans disconnected)
  | _ => exact Or.inr disconnected

/-- Once nobody can dispatch any more, nobody ever can. -/
theorem going_effect (roles : Roles (stages w) w.state told tried)
    (effect : Effect w took more heard stages' e') (going : Going stages' e') :
    Going (stages w) w.state := by
  refine ⟨?_, ?_⟩
  · rw [Bool.eq_false_iff]
    intro shut
    have still := (moves_effect roles effect).shutdown shut
    rw [going.1] at still
    cases still
  rcases going.2 with disconnected | ⟨task, stage, there, drives⟩
  · cases effect with
    | same => exact Or.inl disconnected
    | begins call fresh => exact Or.inl disconnected
    | calls task phase there fresh =>
      rcases drove_of_disconnected (phase.steps _ _ _) disconnected with drove | before
      · exact Or.inr ⟨task, _, there, drove⟩
      · exact Or.inl before
    | reads task reading there unaborted => exact Or.inr ⟨task, _, there, rfl⟩
    | leaves task stage there =>
      exact Or.inl ((Stage.state_release task stage w.state).symm.trans disconnected)
    | acts act lawful =>
      have same : (w.state.act act).state = w.state.state := by cases act <;> rfl
      exact Or.inl (same.symm.trans disconnected)
  · cases effect.comes there with
    | stays stage before => exact Or.inr ⟨task, stage, before, drives⟩
    | begins call new => cases drives
    | calls phase next before goesOn =>
      rcases drove_of_drives (phase.steps _ _ _) goesOn drives with drove | disconnected
      · exact Or.inr ⟨task, _, before, drove⟩
      · exact Or.inl disconnected
    | reads reading next before unaborted receives goesOn => exact Or.inr ⟨task, _, before, rfl⟩
    | starts caller phase new before => exact Or.inr ⟨caller, _, before, rfl⟩

end

end Engine

end HardwareSigner
