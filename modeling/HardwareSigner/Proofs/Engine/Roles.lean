import HardwareSigner.Proofs.Engine.Stages

/-!
# Who says what on a connection

At any time at most one task of an engine has a say in what listeners are told while the connection
is open: the call that connects, and after it the reader. It says `connected`, then what comes from
the other side, and at most once that reading has failed. One more task may say that the connection
has been closed: the call that closes the engine.

`Engine.Roles` says who they are and how far they have got with what there is to say. It is about
the stages of all tasks, the engine, the events `told` by dispatches so far and those that have been
offered without waiting.
-/

namespace HardwareSigner

namespace Event

variable {M : Type}

/-- Whether an event comes from the other side of an open connection. -/
def isTraffic : Event M → Bool
  | .message _ _ => true
  | .system event => event == .endOfStream

end Event

namespace Engine

variable {M : Type}

/-- The connection has been announced, and then there was traffic. -/
def Opened (told : List (Event M)) : Prop :=
  ∃ body, told = .system .connected :: body ∧ ∀ event ∈ body, event.isTraffic = true

/-- What may have been told of a connection that is not closed. -/
def Spoken (told : List (Event M)) : Prop :=
  told = [] ∨ Opened told ∨ ∃ before, Opened before ∧ told = before ++ [.system .failure]

theorem opened_connected : Opened ([.system .connected] : List (Event M)) :=
  ⟨[], rfl, fun _ there => by cases there⟩

theorem Opened.snoc {before : List (Event M)} (opened : Opened before) {event : Event M}
    (traffic : event.isTraffic = true) : Opened (before ++ [event]) := by
  obtain ⟨body, rfl, all⟩ := opened
  refine ⟨body ++ [event], rfl, fun other there => ?_⟩
  rcases List.mem_append.mp there with before | last
  · exact all other before
  · rw [List.mem_singleton.mp last]
    exact traffic

/-- An operation dispatches an event, where `before` has been told before. -/
structure Saying (event : Event M) (before : List (Event M)) (phase : Operation.Phase M)
    (told : List (Event M)) : Prop where
  said : (phase.awaits = [event] ∧ told = before) ∨ (phase.awaits = [] ∧ told = before ++ [event])
  owes : ∀ box other, phase.Owes box other → other = event
  early : phase.late = false

namespace Saying

variable {event : Event M} {before told : List (Event M)} {phase : Operation.Phase M}
  {r : Registry M} {task : TaskId}

theorem begin (event : Event M) (before : List (Event M)) :
    Saying event before (.begin (.dispatch event)) before :=
  ⟨Or.inl ⟨rfl, rfl⟩, fun _ _ owes => owes.elim, rfl⟩

theorem eq_of_awaits {phase : Operation.Phase M} (awaits : phase.awaits = [event]) :
    phase = .begin (.dispatch event) ∨ phase = .dispatching event := by
  cases phase with
  | begin operation =>
    cases operation with
    | dispatch told => exact Or.inl (by rw [(List.cons.inj awaits).1])
    | _ => cases awaits
  | dispatching told => exact Or.inr (by rw [(List.cons.inj awaits).1])
  | _ => cases awaits

theorem takes_of_awaits {phase : Operation.Phase M} (awaits : phase.awaits = []) :
    phase.takes = [] := by
  cases phase with
  | dispatching told => cases awaits
  | _ => rfl

/-- It goes on with the same event. -/
theorem step (saying : Saying event before phase told) (bounded : r.Ordered)
    (owed : phase.owed.Sublist (List.range r.mailboxes.length)) {next : Operation.Phase M}
    {after : Registry M} (turn : phase.step task r = (.inl next, after)) :
    Saying event before next (told ++ phase.takes) := by
  have follows := Operation.Phase.follows_turn bounded owed turn
  have early : next.late = false := by
    rw [Bool.eq_false_iff]
    intro late
    have earlier := follows.late late
    rw [saying.early] at earlier
    cases earlier
  -- It waits for the lock only after its first step.
  have untold : (∀ told, phase ≠ .begin (.dispatch told)) → next.awaits = [] := by
    intro other
    rw [List.eq_nil_iff_forall_not_mem]
    exact fun told waits => other told (follows.awaits told waits)
  -- The event is told with the step that takes the lock, neither before nor after.
  rcases saying.said with ⟨awaits, same⟩ | ⟨awaits, same⟩
  · rcases eq_of_awaits awaits with begins | dispatches
    · subst begins
      cases turn
      rw [same]
      exact ⟨Or.inl ⟨rfl, List.append_nil _⟩, fun _ _ owes => owes.elim, rfl⟩
    · subst dispatches
      have taken : next.awaits = [] := untold fun _ same => nomatch same
      refine ⟨Or.inr ⟨taken, congrArg (· ++ [event]) same⟩, ?_, early⟩
      intro box other owes
      rcases follows.owes box other owes with before | takes
      · exact before.elim
      · cases takes
        rfl
  · rw [takes_of_awaits awaits, List.append_nil]
    refine ⟨Or.inr ⟨untold fun told same => ?_, same⟩, fun box other owes => ?_, early⟩
    · rw [same] at awaits
      cases awaits
    · rcases follows.owes box other owes with before | takes
      · exact saying.owes box other before
      · rw [takes] at awaits
        cases awaits

/-- When it is over, the event has been told. -/
theorem finished (saying : Saying event before phase told)
    {answer : Operation.Answer} {after : Registry M}
    (turn : phase.step task r = (.inr answer, after)) :
    phase.takes = [] ∧ told = before ++ [event] := by
  rcases saying.said with ⟨awaits, -⟩ | ⟨awaits, same⟩
  · rcases eq_of_awaits awaits with begins | dispatches
    · rw [begins] at turn
      cases turn
    · rw [dispatches] at turn
      cases turn
  · exact ⟨takes_of_awaits awaits, same⟩

theorem spoken (saying : Saying event before phase told) (opened : Opened before)
    (next : event.isTraffic = true ∨ event = .system .failure) : Spoken told := by
  rcases saying.said with ⟨-, same⟩ | ⟨-, same⟩
  · exact Or.inr (Or.inl (same ▸ opened))
  · rcases next with traffic | failure
    · exact Or.inr (Or.inl (same ▸ opened.snoc traffic))
    · exact Or.inr (Or.inr ⟨before, opened, failure ▸ same⟩)

end Saying

end Engine

namespace Stage

variable {M : Type}

/-- Whether the task has a say in what listeners are told while the connection is open. -/
def drives : Stage M → Bool
  | .inl .connecting => true
  | .inl (.opening _ _) => true
  | .inl .installing => true
  | .inl (.announcing _) => true
  | .inr _ => true
  | _ => false

/-- Whether the task closes the engine. -/
def closes : Stage M → Bool
  | .inl (.joining _) => true
  | .inl .detaching => true
  | .inl (.parting _ _) => true
  | .inl (.clearing _ _) => true
  | _ => false

/-- How far a task has got with what it has to say. -/
def Fits (e : Engine M) (told tried : List (Event M)) : Stage M → Prop
  | .inl (.listeners phase) => phase.offers = false ∧ phase.late = false
  | .inl .connecting => told = []
  | .inl (.opening _ _) => told = []
  | .inl .installing => told = []
  | .inl (.announcing phase) => Engine.Saying (.system .connected) [] phase told
  | .inl (.joining _) => e.state = .closed ∧ tried = []
  | .inl .detaching => e.state = .closed ∧ tried = []
  | .inl (.parting phase _) => e.state = .closed ∧
      (tried = [] ∧ (phase = .begin (.tryDispatch (.system .disconnected)) ∨
        phase = .trying (.system .disconnected)) ∨ ∃ delivered, phase = .pruning delivered)
  | .inl (.clearing phase _) => e.state = .closed ∧ (phase = .begin .clear ∨ phase = .clearing)
  | .inr (.receiving _) => Engine.Opened told
  | .inr (.pausing _ _) => Engine.Opened told
  | .inr (.dispatching phase rest _ _) =>
    (∀ event ∈ rest, ∃ type body, event = .message type body) ∧
      ∃ event before, event.isTraffic = true ∧ Engine.Opened before ∧
        Engine.Saying event before phase told
  | .inr (.failing phase) => ∃ before, Engine.Opened before ∧
      Engine.Saying (.system .failure) before phase told
  | _ => True

/-- What somebody else does leaves a task where it was. -/
theorem Fits.other {stage : Stage M} {e e' : Engine M} {told told' tried tried' : List (Event M)}
    (fits : stage.Fits e told tried) (closed : e.state = .closed → e'.state = .closed)
    (tells : stage.drives = true → told' = told) (parts : stage.closes = true → tried' = tried) :
    stage.Fits e' told' tried' := by
  cases stage with
  | inl phase =>
    cases phase with
    | listeners phase => exact fits
    | connecting => exact (tells rfl).trans fits
    | opening => exact (tells rfl).trans fits
    | installing => exact (tells rfl).trans fits
    | announcing phase => rw [tells rfl]; exact fits
    | joining => exact ⟨closed fits.1, (parts rfl).trans fits.2⟩
    | detaching => exact ⟨closed fits.1, (parts rfl).trans fits.2⟩
    | parting phase => rw [parts rfl]; exact ⟨closed fits.1, fits.2⟩
    | clearing phase => exact ⟨closed fits.1, fits.2⟩
    | _ => trivial
  | inr reading =>
    rw [tells rfl]
    cases reading with
    | receiving => exact fits
    | pausing => exact fits
    | dispatching => exact fits
    | failing => exact fits

end Stage

namespace Engine

variable {M : Type}

/-- Who says what on a connection. -/
structure Roles (stages : Work (Stage M)) (e : Engine M) (told tried : List (Event M)) : Prop where
  driver : ∀ task other stage stage', stages task = some stage → stages other = some stage' →
    stage.drives = true → stage'.drives = true → task = other
  closer : ∀ task other stage stage', stages task = some stage → stages other = some stage' →
    stage.closes = true → stage'.closes = true → task = other
  idle : e.state = .disconnected →
    told = [] ∧ ∀ task stage, stages task = some stage → stage.drives = false
  unclosed : e.state ≠ .closed →
    tried = [] ∧ ∀ task stage, stages task = some stage → stage.closes = false
  fits : ∀ task stage, stages task = some stage → stage.Fits e told tried
  spoken : Spoken told
  parted : tried = [] ∨ tried = [.system .disconnected]
  shut : e.state = .closed ∨ e.aborted = true → e.registry.shutdown = true

namespace Roles

variable {stages stages' : Work (Stage M)} {e e' : Engine M}
  {told told' tried tried' : List (Event M)}

/-- One task has left its stage, and one, which may be the same, has come to a new one. -/
theorem move (roles : Roles stages e told tried) (task : TaskId) (newcomer : TaskId)
    {next? : Option (Stage M)}
    (moved : ∀ other stage, stages' other = some stage →
      (other = newcomer ∧ next? = some stage) ∨ (other ≠ task ∧ stages other = some stage))
    (closed : e.state = .closed → e'.state = .closed)
    (drives : ∀ next ∈ next?, next.drives = true →
      (∃ stage, stages task = some stage ∧ stage.drives = true) ∨ e.state = .disconnected)
    (closes : ∀ next ∈ next?, next.closes = true →
      (∃ stage, stages task = some stage ∧ stage.closes = true) ∨ e.state ≠ .closed)
    (tells : told' = told ∨ ∃ stage, stages task = some stage ∧ stage.drives = true)
    (parts : tried' = tried ∨ ∃ stage, stages task = some stage ∧ stage.closes = true)
    (fits : ∀ next ∈ next?, next.Fits e' told' tried')
    (idle : e'.state = .disconnected →
      (e.state = .disconnected ∨ ∃ stage, stages task = some stage ∧ stage.drives = true) ∧
        told' = [] ∧ ∀ next ∈ next?, next.drives = false)
    (unclosed : e'.state ≠ .closed → tried' = [] ∧ ∀ next ∈ next?, next.closes = false)
    (spoken : Spoken told') (parted : tried' = [] ∨ tried' = [.system .disconnected])
    (shut : e'.state = .closed ∨ e'.aborted = true → e'.registry.shutdown = true) :
    Roles stages' e' told' tried' where
  driver := by
    refine Work.Single.move roles.driver moved fun next now doesDrive _ _ => ?_
    exact Work.Single.alone roles.driver
      ((drives next now doesDrive).imp_right fun disconnected => (roles.idle disconnected).2)
  closer := by
    refine Work.Single.move roles.closer moved fun next now doesClose _ _ => ?_
    exact Work.Single.alone roles.closer
      ((closes next now doesClose).imp_right fun open' => (roles.unclosed open').2)
  idle disconnected := by
    obtain ⟨earlier, nothing, nobody⟩ := idle disconnected
    refine ⟨nothing, fun other stage there => ?_⟩
    rcases moved other stage there with ⟨-, now⟩ | ⟨different, before⟩
    · exact nobody stage now
    · exact Work.Single.alone roles.driver
        (earlier.symm.imp_right fun disconnected => (roles.idle disconnected).2) different before
  unclosed open' := by
    obtain ⟨nothing, nobody⟩ := unclosed open'
    refine ⟨nothing, fun other stage there => ?_⟩
    rcases moved other stage there with ⟨-, now⟩ | ⟨-, before⟩
    · exact nobody stage now
    · exact (roles.unclosed fun wasClosed => open' (closed wasClosed)).2 other stage before
  fits other stage there := by
    rcases moved other stage there with ⟨-, now⟩ | ⟨different, before⟩
    · exact fits stage now
    · -- Whoever has not moved is where he was, if what he depends on was not his to change.
      refine (roles.fits other stage before).other closed (fun drives' => ?_) fun closes' => ?_
      · rcases tells with same | ⟨stage₀, at_task, drove⟩
        · exact same
        · exact absurd (roles.driver other task stage stage₀ before at_task drives' drove) different
      · rcases parts with same | ⟨stage₀, at_task, closed₀⟩
        · exact same
        · exact absurd (roles.closer other task stage stage₀ before at_task closes' closed₀)
            different
  spoken := spoken
  parted := parted
  shut := shut

/-- Nobody has moved, and nothing has been said. -/
theorem stay (roles : Roles stages e told tried) (state : e'.state = e.state)
    (shut : e'.state = .closed ∨ e'.aborted = true → e'.registry.shutdown = true) :
    Roles stages e' told tried where
  driver := roles.driver
  closer := roles.closer
  idle disconnected := roles.idle (state.symm.trans disconnected)
  unclosed open' := roles.unclosed (state ▸ open')
  fits task stage there := (roles.fits task stage there).other (fun closed => state.trans closed)
    (fun _ => rfl) fun _ => rfl
  spoken := roles.spoken
  parted := roles.parted
  shut := shut

variable {task : TaskId} {next? : Option (Stage M)}

/-- A task moves on that neither drives nor closes. -/
theorem aside (roles : Roles stages e told tried) (task : TaskId) (state : e'.state = e.state)
    (shut : e'.state = .closed ∨ e'.aborted = true → e'.registry.shutdown = true)
    (plain : ∀ next ∈ next?, next.drives = false ∧ next.closes = false ∧ next.Fits e' told tried) :
    Roles (Work.set stages task next?) e' told tried := by
  refine roles.move task task (fun _ _ there => Work.set_cases _ _ _ there)
    (fun closed => state.trans closed) (fun next now drives => ?_) (fun next now closes => ?_)
    (Or.inl rfl) (Or.inl rfl) (fun next now => (plain next now).2.2) (fun disconnected => ?_)
    (fun open' => ?_) roles.spoken roles.parted shut
  · rw [(plain next now).1] at drives
    cases drives
  · rw [(plain next now).2.1] at closes
    cases closes
  · rw [state] at disconnected
    exact ⟨Or.inl disconnected, (roles.idle disconnected).1, fun next now => (plain next now).1⟩
  · rw [state] at open'
    exact ⟨(roles.unclosed open').1, fun next now => (plain next now).2.1⟩

/-- The task that has the say goes on, or somebody new has it. -/
theorem drive (roles : Roles stages e told tried) {stage : Stage M} (newcomer : TaskId)
    (there : stages task = some stage) (drove : stage.drives = true)
    (moved : ∀ other stage, stages' other = some stage →
      (other = newcomer ∧ next? = some stage) ∨ (other ≠ task ∧ stages other = some stage))
    (closed : e'.state = .closed ↔ e.state = .closed)
    (shut : e'.state = .closed ∨ e'.aborted = true → e'.registry.shutdown = true)
    (fits : ∀ next ∈ next?, next.closes = false ∧ next.Fits e' told' tried)
    (idle : e'.state = .disconnected → told' = [] ∧ ∀ next ∈ next?, next.drives = false)
    (spoken : Spoken told') : Roles stages' e' told' tried := by
  have before : ∃ stage, stages task = some stage ∧ stage.drives = true := ⟨stage, there, drove⟩
  refine roles.move task newcomer moved closed.mpr (fun _ _ _ => Or.inl before)
    (fun next now closes => ?_) (Or.inr before) (Or.inl rfl) (fun next now => (fits next now).2)
    (fun disconnected => ⟨Or.inr before, idle disconnected⟩) (fun open' => ?_) spoken roles.parted
    shut
  · rw [(fits next now).1] at closes
    cases closes
  · exact ⟨(roles.unclosed fun wasClosed => open' (closed.mpr wasClosed)).1,
      fun next now => (fits next now).1⟩

/-- The task that closes the engine goes on. -/
theorem close (roles : Roles stages e told tried) {stage : Stage M}
    (there : stages task = some stage) (closed₀ : stage.closes = true)
    (closed : e'.state = .closed)
    (shut : e'.state = .closed ∨ e'.aborted = true → e'.registry.shutdown = true)
    (fits : ∀ next ∈ next?, next.drives = false ∧ next.Fits e' told tried')
    (parted : tried' = [] ∨ tried' = [.system .disconnected]) :
    Roles (Work.set stages task next?) e' told tried' := by
  refine roles.move task task (fun _ _ there => Work.set_cases _ _ _ there)
    (fun _ => closed) (fun next now drives => ?_) (fun _ _ _ => Or.inl ⟨stage, there, closed₀⟩)
    (Or.inl rfl) (Or.inr ⟨stage, there, closed₀⟩) (fun next now => (fits next now).2)
    (fun disconnected => ?_) (fun open' => absurd closed open') roles.spoken parted shut
  · rw [(fits next now).1] at drives
    cases drives
  · rw [closed] at disconnected
    cases disconnected

end Roles

end Engine

end HardwareSigner
