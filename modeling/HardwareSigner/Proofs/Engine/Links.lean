import HardwareSigner.Proofs.Engine.Stages

/-!
# Who does something to the link

An action that lets a call or the reader take a step has an `Engine.actor`. All other actions leave
the link as it is, unless something arrives for the reader; and of the steps only a few are about
the link.

> `Engine.link_apply`: what an action makes of the link.
-/

namespace HardwareSigner

/-! ## How often a link is closed -/

namespace ScriptedLink

variable (l : ScriptedLink)

@[simp] theorem closes_openLink (failure? : Option String) :
    (l.openLink failure?).2.closes = l.closes := by
  unfold openLink
  split <;> rfl

@[simp] theorem closes_write (block : Bytes) (failure? : Option String) :
    (l.write block failure?).2.closes = l.closes := by
  unfold write
  split
  · rfl
  · rfl
  · split <;> rfl

@[simp] theorem closes_close : l.close.2.closes = l.closes + 1 := by
  unfold close
  simp only
  split <;> rfl

theorem closes_receive? {l after : ScriptedLink} {outcome : Except Failure Received}
    (receives : l.receive? = some (outcome, after)) : after.closes = l.closes := by
  unfold receive? at receives
  split at receives
  · split at receives
    · cases receives
      rfl
    · cases receives
  all_goals
    cases receives
    rfl

end ScriptedLink

namespace EngineCall.Phase

variable {M : Type}

/-- What a step of a call makes of the link. -/
def linkAfter (e : Engine M) : Phase M → ScriptedLink
  | .connecting => e.link.planOpen.2
  | .opening _ failure? => (e.link.openLink failure?).2
  | .sending _ => if e.writer then e.link.planWrite.2 else e.link
  | .writing block _ failure? => (e.link.write block failure?).2
  | .retracting | .detaching => if e.writer then e.link.close.2 else e.link
  | _ => e.link

theorem link_closeWriter (e : Engine M) :
    e.closeWriter.2.link = if e.writer then e.link.close.2 else e.link := by
  unfold Engine.closeWriter
  split <;> rfl

theorem link_startSend (task : TaskId) (block : Except Failure Bytes) (e : Engine M) :
    (startSend task block e).engine.link = e.link := by
  unfold startSend
  split
  · rfl
  · split <;> rfl

theorem link_start (task : TaskId) (clock : Nat) (call : EngineCall M) (e : Engine M) :
    (start task clock call e).engine.link = e.link := by
  cases call with
  | removeListener id => rfl
  | countListeners => rfl
  | send message => exact link_startSend task _ e
  | sendRaw type payload => exact link_startSend task _ e
  | addListener id =>
    simp only [start]
    split <;> rfl
  | connect =>
    simp only [start]
    split <;> rfl
  | close =>
    simp only [start]
    split
    · rfl
    · split <;> rfl

theorem link_step (task : TaskId) (clock : Nat) (phase : Phase M) (e : Engine M) :
    (phase.step task clock e).engine.link = phase.linkAfter e := by
  cases phase with
  | begin call => exact link_start task clock call e
  | listeners phase => rfl
  | connecting => rfl
  | opening latest failure? =>
    show (opened task failure? e).engine.link = _
    unfold opened
    simp only
    split
    · rfl
    · unfold answer
      split <;> rfl
  | installing =>
    show (install task e).engine.link = _
    unfold install
    simp only
    split <;> rfl
  | retracting => exact link_closeWriter e
  | announcing phase =>
    unfold step
    simp only
    split
    · rfl
    · unfold announced
      split <;> rfl
  | sending block =>
    show (startWrite task clock block e).engine.link = _
    unfold startWrite linkAfter
    cases e.writer <;> rfl
  | writing block latest failure? => rfl
  | joining latest => rfl
  | detaching => exact link_closeWriter e
  | parting phase outcome =>
    unfold step
    simp only
    split <;> rfl
  | clearing phase outcome =>
    unfold step
    simp only
    split <;> rfl

end EngineCall.Phase

namespace Reading

variable {M : Type}

/-- What a step of the reader makes of the link. -/
def linkAfter (e : Engine M) : Reading M → ScriptedLink
  | .receiving _ =>
    if e.aborted || e.registry.shutdown then e.link
    else (e.link.receive?.map Prod.snd).getD e.link
  | _ => e.link

theorem link_onward {intake : Intake} {e e' : Engine M} {events : List (Event M)} {course : Course}
    {next? : Option (Reading M)} (onward : Onward intake e events course next? e') :
    e'.link = e.link := by
  cases onward <;> rfl

theorem link_release (task : TaskId) (reading : Reading M) (e : Engine M) :
    (reading.release task e).link = e.link := by
  cases reading <;> rfl

theorem link_step (task : TaskId) (clock : Nat) (reading : Reading M) (e : Engine M) :
    (reading.step task clock e).2.link = reading.linkAfter e := by
  cases aborted : e.aborted with
  | true =>
    have stops : reading.step task clock e = stop (reading.release task e) := if_pos aborted
    rw [stops]
    refine (link_release task reading e).trans ?_
    cases reading with
    | receiving intake =>
      unfold linkAfter
      rw [aborted]
      rfl
    | _ => rfl
  | false =>
    have steps := reading.steps aborted task clock
    generalize reading.step task clock e = turn at steps
    obtain ⟨next?, e'⟩ := turn
    cases steps with
    | stopsReceiving intake shut =>
      unfold linkAfter
      rw [shut, Bool.or_true]
      rfl
    | waits intake unshut nothing =>
      unfold linkAfter
      rw [aborted, unshut, nothing]
      rfl
    | hears intake unshut receives onward =>
      unfold linkAfter
      rw [link_onward onward, aborted, unshut, receives]
      rfl
    | proceeds turn onward => exact (link_onward onward).trans rfl
    | _ => rfl

end Reading

namespace Engine

variable {M : Type}

/-! ## Who acts -/

/-- The task that takes a step, if it is a call or the reader, and where it stands. -/
def actor (w : Site M) : Deed M → Option (TaskId × Stage M)
  | .run task =>
    if w.ready machine task then (stages w task).map fun stage => (task, stage) else none
  | _ => none

section

variable {w : Site M} {task : TaskId} {deed : Deed M}

theorem run_of_actor {stage : Stage M} (acts : actor w deed = some (task, stage)) :
    deed = .run task ∧ w.ready machine task = true ∧ stages w task = some stage := by
  cases deed with
  | run other =>
    unfold actor at acts
    simp only at acts
    split at acts
    next ready =>
      obtain ⟨found, there, same⟩ := Option.map_eq_some_iff.mp acts
      cases same
      exact ⟨rfl, ready, there⟩
    next => cases acts
  | _ => cases acts

theorem actor_of_run {stage : Stage M} (ready : w.ready machine task = true)
    (there : stages w task = some stage) : actor w (.run task) = some (task, stage) := by
  unfold actor
  simp only [ready, if_true, there, Option.map_some]

theorem ready_of_stage {phase : EngineCall.Phase M}
    (there : stages w task = some (.inl phase)) (ready : w.ready machine task = true) :
    phase.ready task w.clock w.state = true := (ready_eq_of_call there).symm.trans ready

/-- What a step of a call makes of the stages and of the engine. -/
theorem apply_of_call (numbered : w.Numbered) {phase : EngineCall.Phase M}
    (acts : actor w deed = some (task, .inl phase)) :
    stages (w.apply machine deed) =
        Work.set
          (Work.set (stages w) task ((phase.step task w.clock w.state).next.getLeft?.map .inl))
          w.next ((phase.step task w.clock w.state).reader?.map .inr) ∧
      (w.apply machine deed).state = (phase.step task w.clock w.state).engine := by
  obtain ⟨rfl, ready, there⟩ := run_of_actor acts
  exact stages_run_call numbered there ready

/-- What a step of the reader makes of the stages and of the engine. -/
theorem apply_of_reader {reading : Reading M} (acts : actor w deed = some (task, .inr reading)) :
    stages (w.apply machine deed) =
        Work.set (stages w) task ((reading.step task w.clock w.state).1.map .inr) ∧
      (w.apply machine deed).state = (reading.step task w.clock w.state).2 := by
  obtain ⟨rfl, ready, there⟩ := run_of_actor acts
  obtain ⟨found, at_work, can⟩ := World.exists_phase_of_ready ready
  have stage := (stages_of_some at_work).symm.trans there
  cases found with
  | read reading =>
    cases stage
    exact stages_stepRead at_work can
  | _ => cases stage

/-- If neither a call nor the reader takes a step, a receiver can still take an event. -/
theorem apply_of_nobody (idle : actor w (.run task) = none) :
    stages (w.apply machine (.run task)) = stages w ∧
      ((w.apply machine (.run task)).state = w.state ∨
        ∃ box, (w.apply machine (.run task)).state = w.state.act (.listeners (.take box))) := by
  show stages (w.run machine task) = _ ∧
    ((w.run machine task).state = _ ∨ ∃ box, (w.run machine task).state = _)
  cases ready : w.ready machine task with
  | false =>
    rw [World.run_of_not_ready ready]
    exact ⟨rfl, Or.inl rfl⟩
  | true =>
    obtain ⟨found, at_work, can⟩ := World.exists_phase_of_ready ready
    have there : stages w task = none := by
      cases at_stage : stages w task with
      | none => rfl
      | some stage => cases (actor_of_run ready at_stage).symm.trans idle
    have stage := (stages_of_some at_work).symm.trans there
    have moved := World.phase?_run_of_spawned_none (m := machine) at_work can
    cases found with
    | receive waiting =>
      have some : (waiting.poll w.clock w.state.registry).isSome = true := can
      obtain ⟨⟨receipt, after⟩, polled⟩ := Option.isSome_iff_exists.mp some
      have turn : machine.step task w.clock (.receive waiting) w.state =
          { next := .inr (.receipt receipt), state := { w.state with registry := after } } := by
        show EngineTask.step task w.clock (.receive waiting) w.state = _
        simp only [EngineTask.step, polled]
      have gone := stages_of_phase? (moved (by rw [turn]))
      rw [turn] at gone
      refine ⟨gone.trans (Work.set_same there), ?_⟩
      rw [World.state_run at_work can, turn]
      rcases Receiving.poll_cases polled with ⟨event, received, -⟩ | ⟨same, -⟩
      · refine Or.inr ⟨waiting.box, ?_⟩
        show _ = ({ w.state with registry :=
          ((w.state.registry.receive? waiting.box).map Prod.snd).getD w.state.registry } : Engine M)
        rw [received]
        rfl
      · rw [same]
        exact Or.inl rfl
    | rest latest =>
      have gone := stages_of_phase? (moved rfl)
      exact ⟨gone.trans (Work.set_same there), Or.inl (World.state_run at_work can)⟩
    | _ => cases stage

/-- Whoever does not act stays at its stage, if it is not given up. -/
theorem stays_of_idle (numbered : w.Numbered) (old : task < w.next)
    (idle : ∀ stage, actor w deed ≠ some (task, stage)) {stage : Stage M}
    (there : stages (w.apply machine deed) task = some stage) : stages w task = some stage := by
  have unnew : ∀ {work : Work (Stage M)} {next? : Option (Stage M)},
      Work.set work w.next next? task = work task :=
    fun {work next?} => Work.set_of_ne work w.next next? (Nat.ne_of_lt old)
  cases deed with
  | start found =>
    have moved := stages_of_phase? (World.phase?_start numbered found)
    have there : stages (w.start found) task = some stage := there
    rwa [moved, unnew] at there
  | wait ms => exact there
  | outside act => exact there
  | abandon other =>
    have there : stages (w.abandon machine other) task = some stage := there
    rw [stages_of_phase? (World.phase?_abandon machine w other)] at there
    rcases Work.set_cases _ _ _ there with ⟨-, gone⟩ | ⟨-, before⟩
    · cases gone
    · exact before
  | run other =>
    cases acts : actor w (.run other) with
    | none => rwa [(apply_of_nobody acts).1] at there
    | some found =>
      obtain ⟨mover, phase | reading⟩ := found
      · rw [(apply_of_call numbered acts).1, unnew] at there
        rcases Work.set_cases _ _ _ there with ⟨rfl, -⟩ | ⟨-, before⟩
        · exact absurd acts (idle _)
        · exact before
      · rw [(apply_of_reader acts).1] at there
        rcases Work.set_cases _ _ _ there with ⟨rfl, -⟩ | ⟨-, before⟩
        · exact absurd acts (idle _)
        · exact before

/-! ## What an action makes of the link -/

/-- What an action makes of the link. -/
def linkAfter (w : Site M) (deed : Deed M) : ScriptedLink :=
  match deed, actor w deed with
  | .outside (.feed arrivals), _ => w.state.link.feed arrivals
  | _, some (_, .inl phase) => phase.linkAfter w.state
  | _, some (_, .inr reading) => reading.linkAfter w.state
  | _, none => w.state.link

theorem link_release (task : TaskId) (stage : Stage M) (e : Engine M) :
    (stage.release task e).link = e.link := by
  rcases stage with phase | reading
  · cases phase <;> rfl
  · exact Reading.link_release task reading e

theorem link_abandon (w : Site M) (task : TaskId) :
    (w.abandon machine task).state.link = w.state.link := by
  cases at_work : w.phase? task with
  | none => rw [World.abandon_of_none at_work]
  | some found =>
    rw [World.abandon_of_phase at_work]
    cases found with
    | call phase => exact link_release task (.inl phase) w.state
    | exchange phase box ms => exact link_release task (.inl phase) w.state
    | read reading => exact link_release task (.inr reading) w.state
    | receive waiting => rfl
    | rest latest => rfl

theorem link_apply (numbered : w.Numbered) (deed : Deed M) :
    (w.apply machine deed).state.link = linkAfter w deed := by
  cases deed with
  | start found => rfl
  | wait ms => rfl
  | abandon task => exact link_abandon w task
  | outside act => cases act <;> rfl
  | run task =>
    cases acts : actor w (.run task) with
    | none =>
      have unmoved : linkAfter w (.run task) = w.state.link := by simp only [linkAfter, acts]
      rw [unmoved]
      rcases (apply_of_nobody acts).2 with same | ⟨box, same⟩
      · rw [same]
      · rw [same]
        rfl
    | some found =>
      obtain ⟨other, stage⟩ := found
      rcases stage with phase | reading
      · rw [(apply_of_call numbered acts).2, EngineCall.Phase.link_step]
        simp only [linkAfter, acts]
      · rw [(apply_of_reader acts).2, Reading.link_step]
        simp only [linkAfter, acts]

end

end Engine

end HardwareSigner
