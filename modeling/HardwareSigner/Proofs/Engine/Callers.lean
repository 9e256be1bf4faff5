import HardwareSigner.Proofs.Engine.Links

/-!
# What only calls change

Much of an engine is changed by calls only: not by the reader, nor by whoever waits for an event,
nor from outside. `Engine.CallsOnly` says so of anything that can be seen of an engine, by looking
at what the others do. And if only the stages of calls that have begun are looked at
(`Engine.seen`), then nobody else comes or goes.

> `Engine.CallsOnly.apply`: what is seen of the engine stays if no call acts.
> `Engine.seen_of_uncalled`: so does what is seen of the stages.
-/

namespace HardwareSigner

namespace Engine

variable {M β γ : Type}

/-! ## What is seen of the engine -/

/-- What `f` shows of an engine is not changed by the reader or from outside. -/
structure CallsOnly (f : Engine M → γ) : Prop where
  registry : ∀ e registry, f { e with registry := registry } = f e
  reader : ∀ e reader, f { e with reader := reader } = f e
  aborted : ∀ e aborted, f { e with aborted := aborted } = f e
  receives : ∀ (e : Engine M) outcome link, e.link.receive? = some (outcome, link) →
    f { e with link := link } = f e
  feeds : ∀ (e : Engine M) arrivals, f { e with link := e.link.feed arrivals } = f e

namespace CallsOnly

variable {f : Engine M → γ}

theorem release (callsOnly : CallsOnly f) (task : TaskId) (reading : Reading M) (e : Engine M) :
    f (reading.release task e) = f e := by
  cases reading with
  | dispatching phase rest course intake => exact callsOnly.registry e _
  | failing phase => exact callsOnly.registry e _
  | _ => rfl

theorem onward (callsOnly : CallsOnly f) {intake : Intake} {e e' : Engine M}
    {events : List (Event M)} {course : Course} {next? : Option (Reading M)}
    (onward : Reading.Onward intake e events course next? e') : f e' = f e := by
  cases onward with
  | stops => exact callsOnly.reader e _
  | _ => rfl

theorem step (callsOnly : CallsOnly f) (task : TaskId) (clock : Nat) (reading : Reading M)
    (e : Engine M) : f (reading.step task clock e).2 = f e := by
  cases aborted : e.aborted with
  | true =>
    have stops : reading.step task clock e = Reading.stop (reading.release task e) :=
      if_pos aborted
    rw [stops]
    exact (callsOnly.reader _ _).trans (callsOnly.release task reading e)
  | false =>
    have steps := reading.steps aborted task clock
    generalize reading.step task clock e = turn at steps
    obtain ⟨next?, e'⟩ := turn
    cases steps with
    | stopsReceiving intake shut => exact callsOnly.reader e _
    | stopsPausing latest intake shut => exact callsOnly.reader e _
    | waits intake unshut nothing => rfl
    | hears intake unshut receives onward =>
      exact (callsOnly.onward onward).trans (callsOnly.receives e _ _ receives)
    | resumes latest intake => rfl
    | dispatches rest course intake turn => exact callsOnly.registry e _
    | proceeds turn onward => exact (callsOnly.onward onward).trans (callsOnly.registry e _)
    | fails turn => exact callsOnly.registry e _
    | @stopsFailing phase answer registry turn =>
      exact (callsOnly.reader { e with registry := registry } _).trans
        (callsOnly.registry e registry)

theorem act (callsOnly : CallsOnly f) (e : Engine M) (act : Act) : f (e.act act) = f e := by
  cases act with
  | listeners act => exact callsOnly.registry e _
  | feed arrivals => exact callsOnly.feeds e arrivals
  | discard => exact (callsOnly.aborted _ _).trans (callsOnly.registry e _)
  | vanish => exact callsOnly.registry e _

variable {w : Site M} {deed : Deed M}

theorem abandon (callsOnly : CallsOnly f) {task : TaskId}
    (uncalled : ∀ phase, stages w task ≠ some (.inl phase)) :
    f (w.abandon machine task).state = f w.state := by
  cases at_work : w.phase? task with
  | none => rw [World.abandon_of_none at_work]
  | some found =>
    rw [World.abandon_of_phase at_work]
    have there := stages_of_some at_work
    cases found with
    | call phase => exact absurd there (uncalled phase)
    | exchange phase box ms => exact absurd there (uncalled phase)
    | read reading =>
      exact (callsOnly.reader _ _).trans (callsOnly.release task reading w.state)
    | receive waiting => rfl
    | rest latest => rfl

/-- If no call acts and none is given up, what is seen of the engine stays. -/
theorem apply (callsOnly : CallsOnly f)
    (kept : ∀ task phase, deed = .abandon task → stages w task ≠ some (.inl phase))
    (uncalled : ∀ task phase, actor w deed ≠ some (task, .inl phase)) :
    f (w.apply machine deed).state = f w.state := by
  cases deed with
  | start found => rfl
  | wait ms => rfl
  | outside act => exact callsOnly.act w.state act
  | abandon task => exact callsOnly.abandon fun phase => kept task phase rfl
  | run task =>
    cases acts : actor w (.run task) with
    | none =>
      rcases (apply_of_nobody acts).2 with same | ⟨box, same⟩
      · rw [same]
      · rw [same]
        exact callsOnly.act w.state _
    | some found =>
      obtain ⟨other, phase | reading⟩ := found
      · exact absurd acts (uncalled other phase)
      · rw [(apply_of_reader acts).2]
        exact callsOnly.step other w.clock reading w.state

end CallsOnly

/-! ## What is seen of the stages -/

/-- What `view` shows of every stage. -/
def seen (view : Stage M → Option β) (stages' : Work (Stage M)) : Work β :=
  fun task => (stages' task).bind view

section

variable {view : Stage M → Option β} {stages' : Work (Stage M)} {task : TaskId}

theorem seen_of_some {stage : Stage M} (there : stages' task = some stage) :
    seen view stages' task = view stage := by
  unfold seen
  rw [there]
  rfl

theorem seen_of_none (gone : stages' task = none) : seen view stages' task = none := by
  unfold seen
  rw [gone]
  rfl

theorem seen_set (stages' : Work (Stage M)) (task : TaskId) (stage? : Option (Stage M)) :
    seen view (stages'.set task stage?) = (seen view stages').set task (stage?.bind view) := by
  funext other
  unfold seen
  by_cases same : other = task
  · rw [same, Work.set_self, Work.set_self]
  · rw [Work.set_of_ne _ _ _ same, Work.set_of_ne _ _ _ same]

/-- A task of which nothing is seen comes or goes. -/
theorem seen_set_same {stage? : Option (Stage M)} (before : seen view stages' task = none)
    (after : stage?.bind view = none) :
    seen view (stages'.set task stage?) = seen view stages' := by
  rw [seen_set, after, Work.set_same before]

end

section

variable {w : Site M} {deed : Deed M} {view : Stage M → Option β}

theorem seen_of_start (begins : ∀ call, view (.inl (.begin call)) = none) (numbered : w.Numbered)
    {found : EngineTask M} (lawful : Lawful w (.start found)) :
    seen view (stages (w.apply machine (.start found))) = seen view (stages w) := by
  show seen view (stages (w.start found)) = _
  rw [stages_of_phase? (World.phase?_start numbered found)]
  refine seen_set_same (seen_of_none (stages_of_none numbered.phase?_next)) ?_
  cases found with
  | call phase =>
    cases phase with
    | begin call => exact begins call
    | _ => exact lawful.elim
  | exchange phase box ms =>
    cases phase with
    | begin call => exact begins call
    | _ => exact lawful.elim
  | read reading => exact lawful.elim
  | receive waiting => rfl
  | rest latest => rfl

/-- If no call acts and none is given up, then nothing is seen of those who come or go, as long as
nothing is seen of a call at its beginning and of the reader. -/
theorem seen_of_uncalled (begins : ∀ call, view (.inl (.begin call)) = none)
    (reads : ∀ reading, view (.inr reading) = none) (numbered : w.Numbered)
    (lawful : Lawful w deed)
    (kept : ∀ task phase, deed = .abandon task → stages w task ≠ some (.inl phase))
    (uncalled : ∀ task phase, actor w deed ≠ some (task, .inl phase)) :
    seen view (stages (w.apply machine deed)) = seen view (stages w) := by
  have hidden : ∀ task, (∀ phase, stages w task ≠ some (.inl phase)) →
      seen view (stages w) task = none := by
    intro task other
    cases there : stages w task with
    | none => exact seen_of_none there
    | some stage =>
      rcases stage with phase | reading
      · exact absurd there (other phase)
      · exact (seen_of_some there).trans (reads reading)
  cases deed with
  | start found => exact seen_of_start begins numbered lawful
  | wait ms => rfl
  | outside act => rfl
  | abandon task =>
    show seen view (stages (w.abandon machine task)) = _
    rw [stages_of_phase? (World.phase?_abandon machine w task)]
    exact seen_set_same (hidden task fun phase => kept task phase rfl) rfl
  | run task =>
    cases acts : actor w (.run task) with
    | none => exact congrArg (seen view) (apply_of_nobody acts).1
    | some found =>
      obtain ⟨other, phase | reading⟩ := found
      · exact absurd acts (uncalled other phase)
      · obtain ⟨-, -, there⟩ := run_of_actor acts
        rw [(apply_of_reader acts).1]
        refine seen_set_same ((seen_of_some there).trans (reads reading)) ?_
        cases (reading.step other w.clock w.state).1 with
        | none => rfl
        | some next => exact reads next

/-- What is seen of the stages after a step of a call. -/
theorem seen_of_call (reads : ∀ reading, view (.inr reading) = none) (numbered : w.Numbered)
    {task : TaskId} {phase : EngineCall.Phase M} (acts : actor w deed = some (task, .inl phase)) :
    seen view (stages (w.apply machine deed)) = (seen view (stages w)).set task
      ((phase.step task w.clock w.state).next.getLeft?.bind fun next => view (.inl next)) := by
  obtain ⟨-, -, there⟩ := run_of_actor acts
  have fresh := stages_of_none numbered.phase?_next
  have other : w.next ≠ task := by
    intro same
    rw [same, there] at fresh
    cases fresh
  -- Of the reader that a call may start nothing is seen.
  rw [(apply_of_call numbered acts).1, seen_set_same, seen_set]
  · cases (phase.step task w.clock w.state).next <;> rfl
  · exact seen_of_none ((Work.set_of_ne _ _ _ other).trans fresh)
  · cases (phase.step task w.clock w.state).reader? with
    | none => rfl
    | some reading => exact reads reading

end

end Engine

end HardwareSigner
