import HardwareSigner.Proofs.Engine.Calls
import HardwareSigner.Proofs.Engine.Intake

/-!
# Everybody keeps to his role

After the calls the reader: it says what comes from the other side and then, at most once, that
reading has failed. What is done from outside and the giving up of tasks say nothing.

> `Engine.roles_effect`: whatever happens to an engine, the roles are kept.
-/

namespace HardwareSigner

namespace Engine

open Registry (Bounded)

variable {M : Type}

section

variable {stages : Work (Stage M)} {e : Engine M} {told tried : List (Event M)} {task : TaskId}

/-- The reader goes on. -/
theorem Roles.reads (roles : Roles stages e told tried) {reading next : Reading M}
    (there : stages task = some (.inr reading)) {e' : Engine M} {told' : List (Event M)}
    (state : e'.state = e.state)
    (shut : e'.state = .closed ∨ e'.aborted = true → e'.registry.shutdown = true)
    (fits : Stage.Fits e' told' tried (.inr next)) (spoken : Spoken told') :
    Roles (Work.set stages task (some (.inr next))) e' told' tried := by
  refine roles.drive task there rfl (fun _ _ there => Work.set_cases _ _ _ there) (by rw [state])
    shut ?_ (fun disconnected => ?_) spoken
  · rintro next ⟨⟩
    exact ⟨rfl, fits⟩
  · exact absurd (state.symm.trans disconnected) (roles.not_disconnected there rfl)

/-- The reader stops. -/
theorem Roles.stops (roles : Roles stages e told tried) {reading : Reading M}
    (there : stages task = some (.inr reading)) {e' : Engine M} {told' : List (Event M)}
    (state : e'.state = e.state)
    (shut : e'.state = .closed ∨ e'.aborted = true → e'.registry.shutdown = true)
    (spoken : Spoken told') : Roles (Work.set stages task none) e' told' tried := by
  refine roles.drive task there rfl (fun _ _ there => Work.set_cases _ _ _ there) (by rw [state])
    shut (fun _ gone => by cases gone) (fun disconnected => ?_) spoken
  exact absurd (state.symm.trans disconnected) (roles.not_disconnected there rfl)

/-- The events that an outcome comes to are dispatched one after the other. -/
theorem roles_onward (roles : Roles stages e told tried) {reading : Reading M}
    (there : stages task = some (.inr reading)) (after : Engine M) {e' : Engine M}
    {told' : List (Event M)} (state : after.state = e.state)
    (shut : after.state = .closed ∨ after.aborted = true → after.registry.shutdown = true)
    (opened : Opened told') {events : List (Event M)} {course : Course} {intake : Intake}
    {next? : Option (Reading M)}
    (traffic : ∀ event rest, events = event :: rest →
      event.isTraffic = true ∧ ∀ event ∈ rest, Intake.IsMessage event)
    (onward : Reading.Onward intake after events course next? e') :
    Roles (Work.set stages task (next?.map .inr)) e' told' tried := by
  have spoken : Spoken told' := Or.inr (Or.inl opened)
  have goes : ∀ {next : Reading M}, Stage.Fits after told' tried (.inr next) →
      Roles (Work.set stages task (some (.inr next))) after told' tried :=
    fun fits => roles.reads there state shut fits spoken
  cases onward with
  | dispatches event rest course =>
    obtain ⟨first, later⟩ := traffic event rest rfl
    exact goes ⟨later, event, told', first, opened, Saying.begin event told'⟩
  | receives => exact goes opened
  | pauses latest => exact goes opened
  | stops => exact roles.stops there state shut spoken
  | fails => exact goes ⟨told', opened, Saying.begin _ told'⟩

/-- What an outcome comes to may be told of an open connection. -/
theorem traffic_take (codec : Codec M) (intake : Intake) (outcome : Except Failure Received)
    (event : Event M) (rest : List (Event M))
    (found : (intake.take codec outcome).1.1 = event :: rest) :
    event.isTraffic = true ∧ ∀ event ∈ rest, Intake.IsMessage event := by
  have takes := Intake.takes_take codec intake outcome
  rw [found] at takes
  cases takes with
  | messages all on =>
    obtain ⟨type, body, rfl⟩ := all event List.mem_cons_self
    exact ⟨rfl, fun event there => all event (List.mem_cons_of_mem _ there)⟩
  | ends before ended => exact ⟨rfl, fun event there => by cases there⟩

/-- A step of the reader that has not been told to stop. -/
theorem roles_read (roles : Roles stages e told tried)
    (bounded : Bounded (operations stages) e.registry) {reading : Reading M}
    {next? : Option (Reading M)} {e' : Engine M} (there : stages task = some (.inr reading))
    (steps : reading.Steps task e next? e') :
    Roles (Work.set stages task (next?.map .inr)) e'
      (told ++ toldBy (Stage.operation? (.inr reading)))
      (tried ++ triedBy (Stage.operation? (.inr reading))) := by
  have fits := roles.fits task _ there
  have stops : Roles (Work.set stages task none) { e with reader := .stopped } told tried :=
    roles.stops there rfl roles.shut roles.spoken
  cases steps with
  | stopsReceiving intake shut => exact stops.quiet
  | stopsPausing latest intake shut => exact stops.quiet
  | waits intake unshut nothing => exact (roles.reads there rfl roles.shut fits roles.spoken).quiet
  | resumes latest intake =>
    have opened : Opened told := fits
    have moved : Roles (Work.set stages task (some (.inr (.receiving intake)))) e told tried :=
      roles.reads there rfl roles.shut opened roles.spoken
    exact moved.quiet
  | @hears intake outcome link next? e' unshut receives onward =>
    have opened : Opened told := fits
    exact (roles_onward roles there { e with link := link } rfl roles.shut opened
      (traffic_take _ intake outcome) onward).quiet
  | @dispatches phase next registry rest course intake turn =>
    obtain ⟨later, event, before, traffic, opened, saying⟩ := fits
    have untried : triedBy (some phase) = [] := Operation.Phase.tries_of_early saying.early
    have owed := bounded.owed task phase (operations_of_some there)
    have goesOn := saying.step bounded.ordered owed turn
    show Roles _ _ (told ++ phase.takes) (tried ++ triedBy (some phase))
    rw [untried, List.append_nil]
    exact roles.reads there rfl (roles.shut_turn turn)
      ⟨later, event, before, traffic, opened, goesOn⟩ (goesOn.spoken opened (Or.inl traffic))
  | @proceeds phase answer registry rest course intake next? e' turn onward =>
    obtain ⟨later, event, before, traffic, opened, saying⟩ := fits
    have untried : triedBy (some phase) = [] := Operation.Phase.tries_of_early saying.early
    obtain ⟨untold, all⟩ := saying.finished turn
    show Roles _ _ (told ++ phase.takes) (tried ++ triedBy (some phase))
    rw [untried, untold, List.append_nil, List.append_nil]
    -- The event has been told, and was traffic. What is left of this read are messages.
    have opened : Opened told := all ▸ opened.snoc traffic
    refine roles_onward roles there { e with registry := registry } rfl (roles.shut_turn turn)
      opened ?_ onward
    rintro next others rfl
    obtain ⟨type, body, rfl⟩ := later next List.mem_cons_self
    exact ⟨rfl, fun event there => later event (List.mem_cons_of_mem _ there)⟩
  | @fails phase next registry turn =>
    obtain ⟨before, opened, saying⟩ := fits
    have untried : triedBy (some phase) = [] := Operation.Phase.tries_of_early saying.early
    have owed := bounded.owed task phase (operations_of_some there)
    have goesOn := saying.step bounded.ordered owed turn
    show Roles _ _ (told ++ phase.takes) (tried ++ triedBy (some phase))
    rw [untried, List.append_nil]
    exact roles.reads there rfl (roles.shut_turn turn) ⟨before, opened, goesOn⟩
      (goesOn.spoken opened (Or.inr rfl))
  | @stopsFailing phase answer registry turn =>
    obtain ⟨before, opened, saying⟩ := fits
    have untried : triedBy (some phase) = [] := Operation.Phase.tries_of_early saying.early
    obtain ⟨untold, all⟩ := saying.finished turn
    show Roles _ _ (told ++ phase.takes) (tried ++ triedBy (some phase))
    rw [untried, untold, List.append_nil, List.append_nil]
    exact roles.stops there rfl (roles.shut_turn turn) roles.spoken

theorem shutdown_release (task : TaskId) (stage : Stage M) (e : Engine M) :
    (stage.release task e).registry.shutdown = e.registry.shutdown := by
  rw [Stage.registry_release]
  cases stage.operation? with
  | none => rfl
  | some phase => exact (Operation.Phase.keeps_release phase task e.registry).shutdown

/-- A task has been given up. -/
theorem roles_leave (roles : Roles stages e told tried) (task : TaskId) (stage : Stage M) :
    Roles (Work.set stages task none) (stage.release task e) told tried := by
  refine roles.aside task (Stage.state_release task stage e) ?_ fun _ gone => by cases gone
  rw [Stage.state_release, Stage.aborted_release, shutdown_release]
  exact roles.shut

theorem roles_act (roles : Roles stages e told tried) (act : Act) :
    Roles stages (e.act act) told tried := by
  cases act with
  | listeners act =>
    exact roles.stay rfl fun before => (Registry.spares_act e.registry act 0).shutdown
      (roles.shut before)
  | feed arrivals => exact roles.stay rfl roles.shut
  | discard => exact roles.stay rfl fun _ => rfl
  | vanish => exact roles.stay rfl roles.shut

end

theorem roles_create (codec : RequestCodec M) (settings : EngineSettings) (link : ScriptedLink) :
    Roles (fun _ => none) (create codec settings link) [] [] where
  driver _ _ _ _ there := by cases there
  closer _ _ _ _ there := by cases there
  idle _ := ⟨rfl, fun _ _ there => by cases there⟩
  unclosed _ := ⟨rfl, fun _ _ there => by cases there⟩
  fits _ _ there := by cases there
  spoken := Or.inl rfl
  parted := Or.inl rfl
  shut before := by rcases before with closed | aborted <;> cases ‹_›

/-- Whatever happens, everybody keeps to his role. -/
theorem roles_effect {w : Site M} {told tried more : List (Event M)}
    {took : List (TaskId × Event M)}
    {heard : List (Except Failure Received)} {stages' : Work (Stage M)} {e' : Engine M}
    (roles : Roles (stages w) w.state told tried)
    (bounded : Bounded (operations (stages w)) w.state.registry)
    (effect : Effect w took more heard stages' e') :
    Roles stages' e' (told ++ took.map Prod.snd) (tried ++ more) := by
  cases effect with
  | same => exact roles.quiet
  | begins call fresh =>
    refine (roles.aside w.next rfl roles.shut ?_).quiet
    rintro next ⟨⟩
    exact ⟨rfl, rfl, trivial⟩
  | calls task phase there fresh =>
    rw [map_tookBy]
    exact roles_call roles bounded there (phase.steps task w.clock w.state) fresh
  | reads task reading there unaborted =>
    rw [map_tookBy]
    exact roles_read roles bounded there (reading.steps unaborted task w.clock)
  | leaves task stage there => exact (roles_leave roles task stage).quiet
  | acts act lawful => exact (roles_act roles act).quiet

end Engine

end HardwareSigner
