import HardwareSigner.Proofs.Engine.Roles

/-!
# The calls keep to their roles

Every step of every call leaves the roles of `Engine.Roles` as they have to be, one theorem for each
stage that a call can be in.

> `Engine.roles_call`: this is all of them.
-/

namespace HardwareSigner

/-- All that can remain to be done after the listeners have been told is to unlink dead ones. -/
theorem Operation.Phase.pruning_of_trying {M : Type} {task : TaskId} {event : Event M}
    {r : Registry M} {next : Operation.Phase M}
    (turn : ((Operation.Phase.trying event).step task r).1 = .inl next) :
    ∃ delivered, next = .pruning delivered := by
  have turn : (wrapUp task (r.offerAll event).1 (r.offerAll event).2.hasDead
      (r.offerAll event).2).1 = .inl next := turn
  unfold wrapUp at turn
  simp only at turn
  split at turn
  · cases turn
    exact ⟨_, rfl⟩
  · cases turn

namespace Engine

open Registry (Bounded)

variable {M : Type}

/-- The event that a dispatch tells, if it takes the lock with its next step. -/
def toldBy (phase? : Option (Operation.Phase M)) : List (Event M) :=
  (phase?.map Operation.Phase.takes).getD []

theorem map_tookBy (task : TaskId) (phase? : Option (Operation.Phase M)) :
    (tookBy task phase?).map Prod.snd = toldBy phase? := by
  cases phase? with
  | none => rfl
  | some phase =>
    show (phase.takes.map fun event => (task, event)).map Prod.snd = phase.takes
    rw [List.map_map]
    exact List.map_id _

theorem operations_of_some {stages : Work (Stage M)} {task : TaskId} {stage : Stage M}
    (there : stages task = some stage) : operations stages task = stage.operation? := by
  unfold operations
  rw [there]
  rfl

/-- What has been told of a connection that is being announced. -/
theorem Saying.announced {phase : Operation.Phase M} {told : List (Event M)}
    (saying : Saying (.system .connected) [] phase told) : Spoken told := by
  rcases saying.said with ⟨-, same⟩ | ⟨-, same⟩
  · exact Or.inl same
  · exact Or.inr (Or.inl (same ▸ opened_connected))

section

variable {stages : Work (Stage M)} {e : Engine M} {told tried : List (Event M)} {task : TaskId}

/-- Nothing new can be told by a task that has no operation on its hands. -/
theorem Roles.quiet {stages' : Work (Stage M)} {e' : Engine M}
    (roles : Roles stages' e' told tried) : Roles stages' e' (told ++ []) (tried ++ []) := by
  rw [List.append_nil, List.append_nil]
  exact roles

/-- A call is answered that has nothing to say. -/
theorem roles_answer (roles : Roles stages e told tried) (task : TaskId) {e' : Engine M}
    (state : e'.state = e.state)
    (shut : e'.state = .closed ∨ e'.aborted = true → e'.registry.shutdown = true) :
    Roles (Work.set stages task none) e' told tried :=
  roles.aside task state shut fun _ gone => by cases gone

/-! ## Calls begin -/

/-- Nobody has the say yet, so the task that connects may take it. -/
theorem roles_tries (roles : Roles stages e told tried) (task : TaskId)
    (disconnected : e.state = .disconnected) (lock : Lock) :
    Roles (Work.set stages task (some (.inl .connecting)))
      { e with state := .connecting, openLock := lock } told tried := by
  refine roles.move task task (fun _ _ there => Work.set_cases _ _ _ there)
    (fun closed => absurd (disconnected.symm.trans closed) (by decide))
    (fun _ _ _ => Or.inr disconnected) ?_ (Or.inl rfl) (Or.inl rfl) ?_
    (fun connecting => by cases connecting) ?_ roles.spoken roles.parted ?_
  · rintro next ⟨⟩ closes
    cases closes
  · rintro next ⟨⟩
    exact (roles.idle disconnected).1
  · intro _
    refine ⟨(roles.unclosed (by rw [disconnected]; decide)).1, ?_⟩
    rintro next ⟨⟩
    rfl
  · rintro (closed | aborted)
    · cases closed
    · exact roles.shut (Or.inr aborted)

/-- The task that closes the engine will part with the listeners. -/
theorem roles_closes (roles : Roles stages e told tried) (task : TaskId)
    (unclosed : e.state ≠ .closed) {next : Stage M} {e' : Engine M} (quiet : next.drives = false)
    (fits : tried = [] → next.Fits e' told tried) (closed : e'.state = .closed)
    (shut : e'.registry.shutdown = true) :
    Roles (Work.set stages task (some next)) e' told tried := by
  refine roles.move task task (fun _ _ there => Work.set_cases _ _ _ there)
    (fun _ => closed) ?_ (fun _ _ _ => Or.inr unclosed) (Or.inl rfl) (Or.inl rfl) ?_
    (fun disconnected => absurd (closed.symm.trans disconnected) (by decide))
    (fun open' => absurd closed open') roles.spoken roles.parted fun _ => shut
  · rintro next ⟨⟩ drives
    rw [quiet] at drives
    cases drives
  · rintro next ⟨⟩
    exact fits (roles.unclosed unclosed).1

theorem roles_listens (roles : Roles stages e told tried) (task : TaskId) {call : EngineCall M}
    {operation : Operation M} (asks : call.operation? = some operation) :
    Roles (Work.set stages task (some (.inl (.listeners (.begin operation))))) e told tried := by
  refine roles.aside task rfl roles.shut ?_
  rintro next ⟨⟩
  refine ⟨rfl, rfl, ?_⟩
  cases call <;> cases asks <;> exact ⟨rfl, rfl⟩

/-! ## Calls that work on the registry -/

/-- An operation on the registry does not shut it down. -/
theorem Roles.shut_step (roles : Roles stages e told tried) (phase : Operation.Phase M)
    (task : TaskId) : e.state = .closed ∨ e.aborted = true →
      (phase.step task e.registry).2.shutdown = true :=
  fun before =>
    (phase.steps task e.registry).keeps.shutdown.trans (roles.shut before)

theorem Roles.shut_turn (roles : Roles stages e told tried) {phase : Operation.Phase M}
    {next : Operation.Phase M ⊕ Operation.Answer} {registry : Registry M}
    (turn : phase.step task e.registry = (next, registry)) :
    e.state = .closed ∨ e.aborted = true → registry.shutdown = true := by
  intro before
  have shut := roles.shut_step phase task before
  rw [turn] at shut
  exact shut

theorem follows_of_bounded {phase : Operation.Phase M} {stage : Stage M}
    (bounded : Bounded (operations stages) e.registry) (there : stages task = some stage)
    (works : stage.operation? = some phase) {next : Operation.Phase M}
    (goesOn : next ∈ (phase.step task e.registry).1.getLeft?) :
    Operation.Phase.Follows e.registry phase next :=
  Operation.Phase.follows_step bounded.ordered
    (bounded.owed task phase ((operations_of_some there).trans works)) goesOn

theorem roles_registers (roles : Roles stages e told tried)
    (bounded : Bounded (operations stages) e.registry) {phase : Operation.Phase M}
    (there : stages task = some (.inl (.listeners phase))) :
    Roles (Work.set stages task
        (((phase.step task e.registry).1.map EngineCall.Phase.listeners
          EngineCall.Phase.ofRegistry).getLeft?.map .inl))
      { e with registry := (phase.step task e.registry).2 } (told ++ toldBy (some phase))
      (tried ++ triedBy (some phase)) := by
  obtain ⟨quiet, early⟩ := roles.fits task _ there
  have untold : toldBy (some phase) = [] := by
    show phase.takes = []
    rw [List.eq_nil_iff_forall_not_mem]
    intro event takes
    rw [Operation.Phase.offers_of_takes takes] at quiet
    cases quiet
  have untried : triedBy (some phase) = [] := Operation.Phase.tries_of_early early
  rw [untold, untried, List.append_nil, List.append_nil]
  refine roles.aside task rfl (roles.shut_step phase task) fun next goesOn => ?_
  cases turn : (phase.step task e.registry).1 with
  | inr answer => rw [turn] at goesOn; cases goesOn
  | inl later =>
    rw [turn] at goesOn
    cases goesOn
    have follows := follows_of_bounded bounded there rfl (show later ∈ _ by rw [turn]; rfl)
    refine ⟨rfl, rfl, ?_, ?_⟩
    · rw [Bool.eq_false_iff]
      intro offers
      rw [follows.offers offers] at quiet
      cases quiet
    · rw [Bool.eq_false_iff]
      intro late
      rw [follows.late late] at early
      cases early

/-! ## The call that connects -/

/-- Once a call connects, the connection has been tried. -/
theorem Roles.not_disconnected (roles : Roles stages e told tried) {stage : Stage M}
    (there : stages task = some stage) (drives : stage.drives = true) :
    e.state ≠ .disconnected := by
  intro disconnected
  rw [(roles.idle disconnected).2 task stage there] at drives
  cases drives

/-- The call that connects goes on with what it does. -/
theorem roles_connecting (roles : Roles stages e told tried) {stage next : Stage M} {e' : Engine M}
    (there : stages task = some stage) (drives : stage.drives = true) (state : e'.state = e.state)
    (shut : e'.state = .closed ∨ e'.aborted = true → e'.registry.shutdown = true)
    (closes : next.closes = false) (fits : next.Fits e' told tried) :
    Roles (Work.set stages task (some next)) e' told tried := by
  refine roles.drive task there drives (fun _ _ there => Work.set_cases _ _ _ there)
    (by rw [state]) shut ?_ (fun disconnected => ?_) roles.spoken
  · rintro next ⟨⟩
    exact ⟨closes, fits⟩
  · exact absurd (state.symm.trans disconnected) (roles.not_disconnected there drives)

/-- The link cannot be opened. -/
theorem roles_fails (roles : Roles stages e told tried) {latest : Nat} {failure? : Option String}
    (there : stages task = some (.inl (.opening latest failure?))) (link : ScriptedLink)
    (lock : Lock) :
    Roles (Work.set stages task none)
      { e with
        link := link
        openLock := lock
        state := if e.state = .connecting then .disconnected else e.state } told tried := by
  have nothing : told = [] := roles.fits task _ there
  have ends : ∀ e' : Engine M, (e'.state = .closed ↔ e.state = .closed) →
      (e'.state = .closed ∨ e'.aborted = true → e'.registry.shutdown = true) →
      Roles (Work.set stages task none) e' told tried := by
    intro e' closed shut
    exact roles.drive task there rfl (fun _ _ there => Work.set_cases _ _ _ there) closed shut
      (fun _ gone => by cases gone) (fun _ => ⟨nothing, fun _ gone => by cases gone⟩) roles.spoken
  by_cases connecting : e.state = .connecting
  · rw [if_pos connecting]
    refine ends _ ?_ ?_
    · rw [connecting]
      exact iff_of_false (fun closed => by cases closed) (by decide)
    · rintro (closed | aborted)
      · cases closed
      · exact roles.shut (Or.inr aborted)
  · rw [if_neg connecting]
    exact ends _ Iff.rfl roles.shut

/-- The connection is open, and this is going to be told. -/
theorem roles_installs (roles : Roles stages e told tried)
    (there : stages task = some (.inl .installing)) (connecting : e.state = .connecting)
    (lock : Lock) :
    Roles (Work.set stages task
        (some (.inl (.announcing (.begin (.dispatch (.system .connected)))))))
      { e with writer := true, writerLock := lock, state := .connected } told tried := by
  have nothing : told = [] := roles.fits task _ there
  refine roles.drive task there rfl (fun _ _ there => Work.set_cases _ _ _ there) ?_ ?_ ?_
    (fun disconnected => by cases disconnected) roles.spoken
  · rw [connecting]
    exact iff_of_false (fun connected => by cases connected) (by decide)
  · rintro (closed | aborted)
    · cases closed
    · exact roles.shut (Or.inr aborted)
  · rintro next ⟨⟩
    refine ⟨rfl, ?_⟩
    rw [nothing]
    exact Saying.begin _ _

section

variable {phase : Operation.Phase M} {registry : Registry M}

/-- The connection is being announced. -/
theorem roles_announces (roles : Roles stages e told tried)
    (bounded : Bounded (operations stages) e.registry)
    (there : stages task = some (.inl (.announcing phase))) {next : Operation.Phase M}
    (turn : phase.step task e.registry = (.inl next, registry)) :
    Roles (Work.set stages task (some (.inl (.announcing next)))) { e with registry := registry }
      (told ++ toldBy (some phase)) (tried ++ triedBy (some phase)) := by
  have saying : Saying (.system .connected) [] phase told := roles.fits task _ there
  have untried : triedBy (some phase) = [] := Operation.Phase.tries_of_early saying.early
  have unidle := roles.not_disconnected there rfl
  have owed := bounded.owed task phase (operations_of_some there)
  have later := saying.step bounded.ordered owed turn
  rw [untried, List.append_nil]
  show Roles _ _ (told ++ phase.takes) tried
  refine roles.drive task there rfl (fun _ _ there => Work.set_cases _ _ _ there) Iff.rfl
    (roles.shut_turn turn) ?_ (fun disconnected => absurd disconnected unidle) later.announced
  rintro next ⟨⟩
  exact ⟨rfl, later⟩

/-- The connection has been announced, and `next?` takes over from the call that has connected. -/
theorem roles_announced (roles : Roles stages e told tried)
    (there : stages task = some (.inl (.announcing phase))) {answer : Operation.Answer}
    (turn : phase.step task e.registry = (.inr answer, registry)) {stages' : Work (Stage M)}
    (newcomer : TaskId) (next? : Option (Stage M)) {e' : Engine M}
    (moved : ∀ other stage, stages' other = some stage →
      (other = newcomer ∧ next? = some stage) ∨ (other ≠ task ∧ stages other = some stage))
    (reads : Opened told → ∀ next ∈ next?, next.closes = false ∧ next.Fits e' told tried)
    (state : e'.state = e.state) (aborted : e'.aborted = e.aborted)
    (after : e'.registry = registry) :
    Roles stages' e' (told ++ toldBy (some phase)) (tried ++ triedBy (some phase)) := by
  have saying : Saying (.system .connected) [] phase told := roles.fits task _ there
  have untried : triedBy (some phase) = [] := Operation.Phase.tries_of_early saying.early
  obtain ⟨untold, all⟩ := saying.finished turn
  have opened : Opened told := all ▸ opened_connected
  have untold : toldBy (some phase) = [] := untold
  rw [untried, untold, List.append_nil, List.append_nil]
  refine roles.drive newcomer there rfl moved (by rw [state]) ?_ (reads opened)
    (fun disconnected => ?_) roles.spoken
  · rw [state, aborted, after]
    exact roles.shut_turn turn
  · exact absurd (state.symm.trans disconnected) (roles.not_disconnected there rfl)

/-- The reader takes over. -/
theorem roles_connects (roles : Roles stages e told tried)
    (there : stages task = some (.inl (.announcing phase))) {answer : Operation.Answer}
    (turn : phase.step task e.registry = (.inr answer, registry)) (fresh : TaskId) :
    Roles (Work.set (Work.set stages task none) fresh
        (some (.inr (.first { e with registry := registry }))))
      { e with registry := registry, reader := .running } (told ++ toldBy (some phase))
      (tried ++ triedBy (some phase)) := by
  refine roles_announced roles there turn fresh
    (some (.inr (.first { e with registry := registry }))) (fun one stage there => ?_)
    (fun opened => ?_) rfl rfl rfl
  · rcases Work.set_cases _ _ _ there with now | ⟨-, before⟩
    · exact Or.inl now
    · rcases Work.set_cases _ _ _ before with ⟨-, gone⟩ | before
      · cases gone
      · exact Or.inr before
  · rintro next ⟨⟩
    exact ⟨rfl, opened⟩

end

/-! ## The call that closes -/

section

variable {phase : Operation.Phase M} {registry : Registry M} {outcome : Except Failure Unit}

/-- The listeners that have room are told that the connection is closed. -/
theorem roles_tells (roles : Roles stages e told tried)
    (there : stages task = some (.inl (.parting phase outcome))) {next : Operation.Phase M}
    (turn : phase.step task e.registry = (.inl next, registry)) :
    Roles (Work.set stages task (some (.inl (.parting next outcome))))
      { e with registry := registry } (told ++ toldBy (some phase))
      (tried ++ triedBy (some phase)) := by
  obtain ⟨closed, said⟩ := roles.fits task _ there
  have shut := roles.shut_turn turn (Or.inl closed)
  rcases said with ⟨untried, rfl | rfl⟩ | ⟨delivered, rfl⟩
  · cases turn
    refine Roles.quiet (roles.close there rfl closed (fun _ => shut) ?_ roles.parted)
    rintro next ⟨⟩
    exact ⟨rfl, closed, Or.inl ⟨untried, Or.inr rfl⟩⟩
  · rw [untried]
    show Roles _ _ (told ++ []) [.system .disconnected]
    rw [List.append_nil]
    refine roles.close there rfl closed (fun _ => shut) ?_ (Or.inr rfl)
    rintro last ⟨⟩
    exact ⟨rfl, closed, Or.inr (Operation.Phase.pruning_of_trying (congrArg Prod.fst turn))⟩
  · cases turn

/-- They have been told, and all of them are unlinked. -/
theorem roles_unlinks (roles : Roles stages e told tried)
    (there : stages task = some (.inl (.parting phase outcome))) {answer : Operation.Answer}
    (turn : phase.step task e.registry = (.inr answer, registry)) :
    Roles (Work.set stages task (some (.inl (.clearing (.begin .clear) outcome))))
      { e with registry := registry } (told ++ toldBy (some phase))
      (tried ++ triedBy (some phase)) := by
  obtain ⟨closed, said⟩ := roles.fits task _ there
  have shut := roles.shut_turn turn (Or.inl closed)
  have moved : ∀ {tried' : List (Event M)}, tried' = [] ∨ tried' = [.system .disconnected] →
      Roles (Work.set stages task (some (.inl (.clearing (.begin .clear) outcome))))
        { e with registry := registry } told tried' := by
    intro tried' parted
    refine roles.close there rfl closed (fun _ => shut) ?_ parted
    rintro next ⟨⟩
    exact ⟨rfl, closed, Or.inl rfl⟩
  rcases said with ⟨untried, rfl | rfl⟩ | ⟨delivered, rfl⟩
  · cases turn
  · rw [untried]
    show Roles _ _ (told ++ []) [.system .disconnected]
    rw [List.append_nil]
    exact moved (Or.inr rfl)
  · exact (moved roles.parted).quiet

theorem roles_clears (roles : Roles stages e told tried)
    (there : stages task = some (.inl (.clearing phase outcome))) {next : Operation.Phase M}
    (turn : phase.step task e.registry = (.inl next, registry)) :
    Roles (Work.set stages task (some (.inl (.clearing next outcome))))
      { e with registry := registry } (told ++ toldBy (some phase))
      (tried ++ triedBy (some phase)) := by
  obtain ⟨closed, said⟩ := roles.fits task _ there
  have shut := roles.shut_turn turn (Or.inl closed)
  rcases said with rfl | rfl
  · cases turn
    refine Roles.quiet (roles.close there rfl closed (fun _ => shut) ?_ roles.parted)
    rintro next ⟨⟩
    exact ⟨rfl, closed, Or.inr rfl⟩
  · cases turn

theorem roles_cleared (roles : Roles stages e told tried)
    (there : stages task = some (.inl (.clearing phase outcome))) {answer : Operation.Answer}
    (turn : phase.step task e.registry = (.inr answer, registry)) :
    Roles (Work.set stages task none) { e with registry := registry }
      (told ++ toldBy (some phase)) (tried ++ triedBy (some phase)) := by
  obtain ⟨closed, said⟩ := roles.fits task _ there
  have moved : Roles (Work.set stages task none) { e with registry := registry } told tried :=
    roles.close there rfl closed (roles.shut_turn turn) (fun _ gone => by cases gone) roles.parted
  rcases said with rfl | rfl
  · exact moved.quiet
  · exact moved.quiet

end

/-! ## Every call -/

/-- A step of a call that does not start a reader. -/
theorem roles_step (roles : Roles stages e told tried)
    (bounded : Bounded (operations stages) e.registry) {phase : EngineCall.Phase M}
    {step : EngineCall.Step M} {clock : Nat} (there : stages task = some (.inl phase))
    (steps : phase.Steps task clock e step) (alone : step.reader? = none) :
    Roles (Work.set stages task (step.next.getLeft?.map .inl)) step.engine
      (told ++ toldBy (Stage.operation? (.inl phase)))
      (tried ++ triedBy (Stage.operation? (.inl phase))) := by
  have asks : ∀ {block : Bytes} {e' : Engine M}, e'.state = e.state →
      (e'.state = .closed ∨ e'.aborted = true → e'.registry.shutdown = true) →
      Roles (Work.set stages task (some (.inl (.sending block)))) e' told tried := by
    intro block e' state shut
    refine roles.aside task state shut ?_
    rintro next ⟨⟩
    exact ⟨rfl, rfl, trivial⟩
  have taken : e.closeWriter.2.state = .closed ∨ e.closeWriter.2.aborted = true →
      e.closeWriter.2.registry.shutdown = true := by
    rw [state_closeWriter, registry_closeWriter, aborted_closeWriter]
    exact roles.shut
  cases steps with
  | answers => exact (roles_answer roles task rfl roles.shut).quiet
  | listens asks => exact (roles_listens roles task asks).quiet
  | tries disconnected => exact (roles_tries roles task disconnected _).quiet
  | sends block other => exact Roles.quiet (asks rfl roles.shut)
  | detaches unclosed =>
    exact Roles.quiet (roles_closes roles task unclosed rfl (fun nothing => ⟨rfl, nothing⟩) rfl rfl)
  | joins unclosed latest =>
    exact Roles.quiet (roles_closes roles task unclosed rfl (fun nothing => ⟨rfl, nothing⟩) rfl rfl)
  | registers phase => exact roles_registers roles bounded there
  | plans latest failure? link =>
    have nothing : told = [] := roles.fits task _ there
    exact Roles.quiet (roles_connecting roles there rfl rfl roles.shut rfl nothing)
  | opens latest failure? link =>
    have nothing : told = [] := roles.fits task _ there
    exact Roles.quiet (roles_connecting roles there rfl rfl roles.shut rfl nothing)
  | fails latest failure? failure link lock => exact (roles_fails roles there link lock).quiet
  | installs connecting => exact Roles.quiet (roles_installs roles there connecting _)
  | withdraws unconnecting =>
    exact Roles.quiet (roles_connecting roles there rfl rfl roles.shut rfl trivial)
  | retracts => exact Roles.quiet (roles_answer roles task (state_closeWriter e) taken)
  | announces turn => exact roles_announces roles bounded there turn
  | refuses turn =>
    exact roles_announced roles there turn task none (fun _ _ there => Work.set_cases _ _ _ there)
      (fun _ _ gone => by cases gone) rfl rfl rfl
  | connects turn unshut => cases alone
  | denies block => exact Roles.quiet (roles_answer roles task rfl roles.shut)
  | writes block latest failure? link =>
    refine Roles.quiet (roles.aside task rfl roles.shut ?_)
    rintro next ⟨⟩
    exact ⟨rfl, rfl, trivial⟩
  | writesOut => exact Roles.quiet (roles_answer roles task rfl roles.shut)
  | joined latest =>
    obtain ⟨closed, untried⟩ := roles.fits task _ there
    refine Roles.quiet
      (roles.close there rfl closed (fun _ => roles.shut (Or.inl closed)) ?_ roles.parted)
    rintro next ⟨⟩
    exact ⟨rfl, closed, untried⟩
  | parts outcome =>
    obtain ⟨closed, untried⟩ := roles.fits task _ there
    have still : e.closeWriter.2.state = .closed := (state_closeWriter e).trans closed
    refine Roles.quiet (roles.close there rfl still taken ?_ roles.parted)
    rintro next ⟨⟩
    exact ⟨rfl, still, Or.inl ⟨untried, Or.inl rfl⟩⟩
  | tells outcome turn => exact roles_tells roles there turn
  | unlinks outcome turn => exact roles_unlinks roles there turn
  | clears outcome turn => exact roles_clears roles there turn
  | closes outcome turn => exact roles_cleared roles there turn

/-- A step of a call, which may start the reader. -/
theorem roles_call (roles : Roles stages e told tried)
    (bounded : Bounded (operations stages) e.registry) {phase : EngineCall.Phase M}
    {step : EngineCall.Step M} {clock : Nat} (there : stages task = some (.inl phase))
    (steps : phase.Steps task clock e step) {fresh : TaskId} (unused : stages fresh = none) :
    Roles (Work.set (Work.set stages task (step.next.getLeft?.map .inl)) fresh
        (step.reader?.map .inr))
      step.engine (told ++ toldBy (Stage.operation? (.inl phase)))
      (tried ++ triedBy (Stage.operation? (.inl phase))) := by
  cases starts : step.reader? with
  | none =>
    -- Nobody has the new number, so nothing changes where no reader is started.
    have other : fresh ≠ task := by
      intro same
      rw [same, there] at unused
      cases unused
    show Roles (Work.set _ fresh none) _ _ _
    rw [Work.set_same ((Work.set_of_ne _ _ _ other).trans unused)]
    exact roles_step roles bounded there steps starts
  | some reading =>
    cases steps with
    | connects turn unshut =>
      cases starts
      exact roles_connects roles there turn fresh
    | _ => cases starts

end

end Engine

end HardwareSigner
