import HardwareSigner.Proofs.Engine.Callers
import HardwareSigner.Proofs.Engine.Custody

/-!
# Every action is a move

What the calls to an engine do with its link, as moves of `Engine.custody`. A call has its `part?`
in this as long as it is opening or closing the link; the reader and all others have none.

> `Engine.held_apply`: every action keeps account of the writing half, if no call is given up.
-/

namespace HardwareSigner

/-- The engine as far as its link is concerned. -/
def Engine.custody {M : Type} (e : Engine M) : Custody := ⟨e.state, e.writer, e.link.closes⟩

namespace EngineCall.Phase

variable {M : Type}

/-- What a call has to do with the link. -/
def part? : Phase M → Option Part
  | .connecting | .opening _ _ => some .opens
  | .installing => some .carries
  | .retracting => some .retracts
  | .announcing _ => some .announces
  | .joining _ | .detaching => some .detaches
  | _ => none

/-- What the next step of a call achieves. -/
def achieves (task : TaskId) (clock : Nat) (phase : Phase M) (e : Engine M) : List Milestone :=
  match phase with
  | .begin .close => if e.state = .closed then [] else [.shut]
  | .opening _ failure? => if (e.link.openLink failure?).1.isOk then [.opened] else []
  | .announcing _ => if (phase.step task clock e).reader?.isSome then [.started] else []
  | _ => []

/-- The step of a call as a move. -/
def Moves (task : TaskId) (clock : Nat) (phase : Phase M) (e : Engine M) (step : Step M) : Prop :=
  Custody.Move phase.part? e.custody (phase.achieves task clock e)
    (step.next.getLeft?.bind part?) step.engine.custody

section

variable (task : TaskId) (clock : Nat) (e : Engine M)

theorem moves_startSend {call : EngineCall M} (other : call ≠ .close)
    (block : Except Failure Bytes) :
    Moves task clock (.begin call) e (startSend task block e) := by
  have nothing : (Phase.begin call).achieves task clock e = [] := by
    cases call with
    | close => exact absurd rfl other
    | _ => rfl
  unfold Moves
  rw [nothing]
  unfold startSend
  split
  · exact .rests none _
  · split <;> exact .rests none _

theorem moves_start (call : EngineCall M) :
    Moves task clock (.begin call) e (start task clock call e) := by
  cases call with
  | addListener id =>
    unfold Moves
    simp only [start]
    split <;> exact .rests none _
  | removeListener id => exact .rests none _
  | countListeners => exact .rests none _
  | send message =>
    have other : EngineCall.send message ≠ .close := fun same => by cases same
    exact moves_startSend task clock e other _
  | sendRaw type payload =>
    have other : (EngineCall.sendRaw type payload : EngineCall M) ≠ .close :=
      fun same => by cases same
    exact moves_startSend task clock e other _
  | connect =>
    unfold Moves
    simp only [start]
    split
    next disconnected => exact .tries disconnected
    all_goals exact .rests none _
  | close =>
    unfold Moves
    simp only [start, achieves]
    split
    · exact .rests none _
    next unclosed => split <;> exact .shuts unclosed

theorem moves_opened (latest : Nat) (failure? : Option String) :
    Moves task clock (.opening latest failure?) e (opened task failure? e) := by
  have closes := e.link.closes_openLink failure?
  unfold Moves opened
  simp only [achieves]
  generalize e.link.openLink failure? = result at closes ⊢
  obtain ⟨outcome, link⟩ := result
  have same : (⟨e.state, e.writer, link.closes⟩ : Custody) = e.custody :=
    congrArg (Custody.mk e.state e.writer) closes
  cases outcome with
  | ok =>
    show Custody.Move _ _ _ _ (⟨e.state, e.writer, link.closes⟩ : Custody)
    rw [same]
    exact .opens e.custody
  | error failure =>
    have fails := Custody.Move.fails e.custody
    rw [← same] at fails ⊢
    simp only at fails ⊢
    by_cases connecting : e.state = .connecting
    · rw [if_pos connecting] at fails ⊢
      exact fails
    · rw [if_neg connecting] at fails ⊢
      exact fails

theorem moves_install : Moves task clock .installing e (install task e) := by
  unfold Moves install
  simp only
  split
  next connecting => exact .installs connecting
  next unconnecting => exact .withdraws unconnecting

theorem custody_closeWriter : e.closeWriter.2.custody = e.custody.release := by
  unfold Engine.closeWriter Custody.release
  cases there : e.writer with
  | true =>
    have taken : e.custody.writer = true := there
    rw [if_pos taken]
    exact congrArg (Custody.mk e.state false) e.link.closes_close
  | false =>
    have gone : e.custody.writer = false := there
    rw [gone]
    rfl

theorem moves_announcing (phase : Operation.Phase M) :
    Moves task clock (.announcing phase) e ((Phase.announcing phase).step task clock e) := by
  rcases turn : phase.step task e.registry with ⟨next | result, registry⟩
  · have steps : (Phase.announcing phase).step task clock e =
        goOn (.announcing next) { e with registry := registry } := by
      simp only [step, turn]
    unfold Moves
    simp only [achieves]
    rw [steps]
    exact .rests (some .announces) _
  · have steps : (Phase.announcing phase).step task clock e =
        announced { e with registry := registry } := by
      simp only [step, turn]
    unfold Moves
    simp only [achieves]
    rw [steps]
    unfold announced
    split
    · exact .refuses e.custody
    · exact .starts e.custody

theorem moves_startWrite (block : Bytes) :
    Moves task clock (.sending block) e (startWrite task clock block e) := by
  unfold Moves startWrite
  split <;> exact .rests none _

/-- Every step of a call is a move. -/
theorem moves_step (phase : Phase M) : Moves task clock phase e (phase.step task clock e) := by
  cases phase with
  | begin call => exact moves_start task clock e call
  | listeners phase =>
    have other : (((Phase.listeners phase).step task clock e).next.getLeft?.bind part?) = none := by
      show ((phase.step task e.registry).1.map Phase.listeners ofRegistry).getLeft?.bind part? =
        none
      cases (phase.step task e.registry).1 <;> rfl
    unfold Moves
    rw [other]
    exact .rests none _
  | connecting => exact .rests (some .opens) _
  | opening latest failure? => exact moves_opened task clock e latest failure?
  | installing => exact moves_install task clock e
  | retracting =>
    show Custody.Move _ _ _ _ e.closeWriter.2.custody
    rw [custody_closeWriter]
    exact .retracts e.custody
  | announcing phase => exact moves_announcing task clock e phase
  | sending block => exact moves_startWrite task clock e block
  | writing block latest failure? =>
    have same : ((Phase.writing block latest failure?).step task clock e).engine.custody =
        e.custody := congrArg (Custody.mk e.state e.writer) (e.link.closes_write block failure?)
    unfold Moves
    rw [same]
    exact .rests none _
  | joining latest => exact .rests (some .detaches) _
  | detaching =>
    show Custody.Move _ _ _ _ e.closeWriter.2.custody
    rw [custody_closeWriter]
    exact .detaches e.custody
  | parting phase outcome =>
    unfold Moves step
    simp only
    split <;> exact .rests none _
  | clearing phase outcome =>
    unfold Moves step
    simp only
    split <;> exact .rests none _

end

end EngineCall.Phase

namespace Engine

variable {M : Type}

/-- What a task has to do with the link. -/
def part? : Stage M → Option Part
  | .inl phase => phase.part?
  | .inr _ => none

def parts (stages : Work (Stage M)) : Work Part := fun task => (stages task).bind part?

/-- What an action achieves, and whose step it is. -/
def milestones (w : Site M) (deed : Deed M) : List (TaskId × Milestone) :=
  match actor w deed with
  | some (task, .inl phase) =>
    (phase.achieves task w.clock w.state).map fun milestone => (task, milestone)
  | _ => []

/-- The state that an action enters. -/
def enters (w : Site M) (deed : Deed M) : List ConnectionState :=
  w.state.custody.enters (w.apply machine deed).state.custody

/-- Whoever finds the engine connected finds that this state has been entered. -/
theorem entered_of_connected {start : Site M} (unconnected : start.state.state ≠ .connected)
    {deeds : List (Deed M)} (connected : (start.applyAll machine deeds).state.state = .connected) :
    .connected ∈ start.history machine enters deeds := by
  induction deeds generalizing start with
  | nil => exact absurd connected unconnected
  | cons deed deeds ih =>
    rw [World.history, List.mem_append]
    by_cases now : (start.apply machine deed).state.state = .connected
    · have enters : enters start deed = [.connected] :=
        (if_neg fun same => unconnected (same.trans now)).trans
          (congrArg (fun state => [state]) now)
      rw [enters]
      exact Or.inl (List.mem_singleton_self _)
    · exact Or.inr (ih now connected)

/-- What may be done if no call is given up. -/
def Patient (w : Site M) (deed : Deed M) : Prop :=
  Lawful w deed ∧ ∀ task phase, deed = .abandon task → stages w task ≠ some (.inl phase)

/-! ## Every action is a move -/

section

variable {stages' : Work (Stage M)} {task : TaskId} {stage : Stage M}

theorem parts_of_some (there : stages' task = some stage) : parts stages' task = part? stage :=
  seen_of_some there

theorem parts_of_none (gone : stages' task = none) : parts stages' task = none := seen_of_none gone

end

/-- The writing half is left to the calls. -/
theorem callsOnly_custody : CallsOnly (custody (M := M)) where
  registry _ _ := rfl
  reader _ _ := rfl
  aborted _ _ := rfl
  receives e _ _ receives :=
    congrArg (Custody.mk e.state e.writer) (ScriptedLink.closes_receive? receives)
  feeds _ _ := rfl

section

variable {w : Site M} {deed : Deed M}

/-- Nobody moves, and the writing half stays where it is. -/
def Rests (w : Site M) (deed : Deed M) : Prop :=
  parts (stages (w.apply machine deed)) = parts (stages w) ∧
    (w.apply machine deed).state.custody = w.state.custody

/-- Only calls move. -/
theorem rests (numbered : w.Numbered) (patient : Patient w deed)
    (uncalled : ∀ task phase, actor w deed ≠ some (task, .inl phase)) : Rests w deed := by
  have kept : ∀ task phase, deed = .abandon task → stages w task ≠ some (.inl phase) :=
    fun task phase => patient.2 task phase
  exact ⟨seen_of_uncalled (fun _ => rfl) (fun _ => rfl) numbered patient.1 kept uncalled,
    callsOnly_custody.apply kept uncalled⟩

/-- What the step of a call makes of the parts. -/
theorem parts_of_call (numbered : w.Numbered) {task : TaskId} {phase : EngineCall.Phase M}
    (acts : actor w deed = some (task, .inl phase)) :
    parts (stages (w.apply machine deed)) = (parts (stages w)).set task
      ((phase.step task w.clock w.state).next.getLeft?.bind EngineCall.Phase.part?) :=
  seen_of_call (fun _ => rfl) numbered acts

/-- An action keeps account of the writing half. -/
theorem held_apply {n : Nat} {place : Place} {log : List (TaskId × Milestone)}
    {entered : List ConnectionState} (numbered : w.Numbered) (patient : Patient w deed)
    (held : Custody.Held n place (parts (stages w)) w.state.custody log entered) :
    ∃ place', Custody.Held n place' (parts (stages (w.apply machine deed)))
      (w.apply machine deed).state.custody (log ++ milestones w deed)
      (entered ++ enters w deed) := by
  by_cases called : ∃ task phase, actor w deed = some (task, .inl phase)
  · obtain ⟨task, phase, acts⟩ := called
    obtain ⟨-, -, there⟩ := run_of_actor acts
    have achieved : milestones w deed =
        (phase.achieves task w.clock w.state).map fun milestone => (task, milestone) := by
      unfold milestones
      rw [acts]
    have moves := EngineCall.Phase.moves_step task w.clock w.state phase
    unfold enters
    rw [parts_of_call numbered acts, achieved, (apply_of_call numbered acts).2]
    exact Custody.held_move held ((parts_of_some there).symm ▸ moves)
  · have uncalled : ∀ task phase, actor w deed ≠ some (task, .inl phase) :=
      fun task phase acts => called ⟨task, phase, acts⟩
    have nothing : milestones w deed = [] := by
      unfold milestones
      split
      next task phase acts => exact absurd acts (uncalled task phase)
      next => rfl
    obtain ⟨same, unmoved⟩ := rests numbered patient uncalled
    unfold enters
    rw [same, nothing, unmoved, Custody.enters, if_pos rfl, List.append_nil, List.append_nil]
    exact ⟨place, held⟩

end

end Engine

end HardwareSigner
