import HardwareSigner.Proofs.Engine.Upkeep
import HardwareSigner.Proofs.Listener.Parting

/-!
# Closing an engine

The call that closes an engine tells everybody at work on it to stop, and gives the reader some time
to do so. Then it closes the link, takes leave of the listeners and unlinks them, whatever closing
the link comes to. This is about engines on which no other call is at work.

> `EngineCall.Phase.Closes.step`: every step brings the call nearer to its end.
> `Engine.closesAlone_run`: how far it has got, whatever the reader does meanwhile.
> `Engine.ClosesAlone.canReturn`: it does not have to wait for anybody for ever.
-/

namespace HardwareSigner

namespace Lock

/-- A lock is granted to whoever stands in line alone. -/
theorem granted_of_alone {l : Lock} {task : TaskId} (there : task ∈ l.line)
    (alone : ∀ other ∈ l.line, other = task) : l.granted task = true := by
  rcases ahead_cases there with ⟨mode, rest, first⟩ | ⟨first, mode, rest, queue, different, -⟩
  · exact granted_of_first first
  · refine absurd (alone first ?_) different
    unfold line
    rw [queue]
    exact List.mem_cons_self

end Lock

/-! ## What others do meanwhile -/

/-- What arrives does not decide what closing the link comes to. -/
theorem ScriptedLink.close_feed (l : ScriptedLink) (arrivals : List Arrival) :
    (l.feed arrivals).close.1 = l.close.1 := by
  obtain ⟨target, opens, writes, replies, closeFailure?, inbox, ended, written, closes, hid?⟩ := l
  cases hid? <;> rfl

namespace Engine

variable {M : Type} {e after : Engine M}

theorem outcome_closeWriter (e : Engine M) :
    e.closeWriter.1 = if e.writer then e.link.close.1 else .ok () := by
  unfold closeWriter
  split <;> rfl

/-- Nobody has been given anything, and closing the link will come to the same. -/
structure Abstains (e after : Engine M) : Prop where
  rests : Registry.Rests e.registry after.registry
  writer : after.writer = e.writer
  outcome : after.closeWriter.1 = e.closeWriter.1

theorem abstains_feed (e : Engine M) (arrivals : List Arrival) :
    Abstains e (e.act (.feed arrivals)) where
  rests := .refl _
  writer := rfl
  outcome := by
    rw [outcome_closeWriter, outcome_closeWriter]
    show (if e.writer then (e.link.feed arrivals).close.1 else _) = _
    rw [ScriptedLink.close_feed]

end Engine

namespace Reading

variable {M : Type} {task : TaskId} {clock : Nat} {reading : Reading M} {e : Engine M}

/-- All that a reader does to the registry is dispatch events. -/
def Dispatches (reading : Reading M) : Prop :=
  ∀ phase, Stage.operation? (.inr reading) = some phase → phase.dispatches = true

theorem dispatches_of_onward {intake : Intake} {after : Engine M} {events : List (Event M)}
    {course : Course} {next : Reading M}
    (onward : Onward intake e events course (some next) after) : next.Dispatches := by
  intro phase works
  cases onward with
  | dispatches | fails => cases works; rfl
  | receives | pauses => cases works

theorem dispatches_of_step (dispatches : reading.Dispatches) {next : Reading M}
    (unaborted : e.aborted = false) (goesOn : (reading.step task clock e).1 = some next) :
    next.Dispatches := by
  have steps := reading.steps unaborted task clock
  rw [goesOn] at steps
  generalize (reading.step task clock e).2 = after at steps
  intro phase works
  cases steps with
  | waits | resumes => cases works
  | hears intake unshut receives onward => exact dispatches_of_onward onward phase works
  | proceeds turn onward => exact dispatches_of_onward onward phase works
  | dispatches rest course intake turn =>
    cases works
    exact Operation.Phase.dispatches_of_step (dispatches _ rfl) turn
  | fails turn =>
    cases works
    exact Operation.Phase.dispatches_of_step (dispatches _ rfl) turn

/-- After the shutdown a reader gives nobody anything any more. -/
theorem rests_of_step (dispatches : reading.Dispatches) (shut : e.registry.shutdown = true) :
    Registry.Rests e.registry (reading.step task clock e).2.registry := by
  rw [registry_step]
  cases works : Stage.operation? (.inr reading) with
  | none => exact .refl _
  | some phase =>
    simp only [Option.map_some, Option.getD_some]
    split
    · exact Operation.Phase.rests_release phase task e.registry
    · exact (phase.steps task e.registry).rests shut (dispatches phase works)

/-- Nor does it read from the link. -/
theorem abstains_of_step (dispatches : reading.Dispatches) (shut : e.registry.shutdown = true) :
    Engine.Abstains e (reading.step task clock e).2 := by
  have writer : (reading.step task clock e).2.writer = e.writer :=
    congrArg Desk.writer (Engine.callsOnly_desk.step task clock reading e)
  have link : (reading.step task clock e).2.link = e.link := by
    rw [link_step]
    cases reading with
    | receiving intake => exact if_pos (by rw [shut, Bool.or_true])
    | _ => rfl
  refine ⟨rests_of_step dispatches shut, writer, ?_⟩
  rw [Engine.outcome_closeWriter, Engine.outcome_closeWriter, writer, link]

end Reading

/-! ## Steps of the call -/

namespace Engine

variable {M : Type} {e now after : Engine M}
theorem Abstains.trans (first : Abstains e now) (second : Abstains now after) :
    Abstains e after where
  rests := first.rests.trans second.rests
  writer := second.writer.trans first.writer
  outcome := second.outcome.trans first.outcome

/-- What is left of an engine that has been closed, and was `e` before. -/
structure Remains (e now : Engine M) : Prop where
  state : now.state = .closed
  writer : now.writer = false
  entries : now.registry.entries = []
  tokens : now.registry.tokens = []
  parted : Registry.Parted e.registry now.registry

end Engine

namespace EngineCall.Phase

open Engine (Abstains Remains)
open Registry (Rests Parted)

variable {M : Type} {e now after : Engine M} {phase : Phase M}

/-- How far the call has got that closes an engine, which was `e` before. -/
inductive Closes (e now : Engine M) : Phase M → Prop
  | joins (latest : Nat) (abstains : Abstains e now) : Closes e now (.joining latest)
  | detaches (abstains : Abstains e now) : Closes e now .detaching
  | offers {phase : Operation.Phase M}
      (offers : phase = .begin (.tryDispatch (.system .disconnected)) ∨
        phase = .trying (.system .disconnected))
      (gone : now.writer = false) (rests : Rests e.registry now.registry) :
      Closes e now (.parting phase e.closeWriter.1)
  | prunes (delivered : Nat) (gone : now.writer = false)
      (parted : Parted e.registry now.registry) :
      Closes e now (.parting (.pruning delivered) e.closeWriter.1)
  | clears {phase : Operation.Phase M} (clears : phase = .begin .clear ∨ phase = .clearing)
      (gone : now.writer = false) (parted : Parted e.registry now.registry) :
      Closes e now (.clearing phase e.closeWriter.1)

/-- What the reader does leaves the call where it is. -/
theorem Closes.beside (closes : Closes e now phase) (abstains : Abstains now after) :
    Closes e after phase := by
  cases closes with
  | joins latest before => exact .joins latest (before.trans abstains)
  | detaches before => exact .detaches (before.trans abstains)
  | offers offers gone rests =>
    exact .offers offers (abstains.writer.trans gone) (rests.trans abstains.rests)
  | prunes delivered gone parted =>
    exact .prunes delivered (abstains.writer.trans gone) (parted.quiet abstains.rests.quiet)
  | clears clears gone parted =>
    exact .clears clears (abstains.writer.trans gone) (parted.quiet abstains.rests.quiet)

/-- A bound on the steps that a call needs to close an engine. -/
def remaining : Phase M → Nat
  | .joining _ => 7
  | .detaching => 6
  | .parting (.begin _) _ => 5
  | .parting (.trying _) _ => 4
  | .parting _ _ => 3
  | .clearing (.begin _) _ => 2
  | _ => 1

/-- What a step of the call comes to. It does not wait for the reader again. -/
inductive ClosesBy (e : Engine M) (phase : Phase M) : Step M → Prop
  | goesOn {next : Phase M} {after : Engine M} (closes : Closes e after next)
      (joined : ∀ latest, next ≠ .joining latest) (nearer : next.remaining < phase.remaining) :
      ClosesBy e phase { next := .inl next, engine := after }
  | returns {after : Engine M} (remains : Remains e after) :
      ClosesBy e phase { next := .inr (.done e.closeWriter.1), engine := after }

section

variable (ordered : now.registry.Ordered) (task : TaskId) (clock : Nat)

include ordered

/-- The listeners are offered the last event; the dead are unlinked if there are any. -/
theorem closesBy_of_trying (gone : now.writer = false) (rests : Rests e.registry now.registry) :
    ClosesBy e (.parting (.trying (.system .disconnected)) e.closeWriter.1)
      ((Phase.parting (.trying (.system .disconnected)) e.closeWriter.1).step task clock now) := by
  have offered : ∀ {outcome registry},
      (Operation.Phase.trying (.system .disconnected)).step task now.registry =
        (outcome, registry) →
      Operation.Phase.Steps task now.registry (.trying (.system .disconnected)) outcome
        registry := by
    intro outcome registry turn
    have steps := (Operation.Phase.trying (.system .disconnected)).steps task now.registry
    rwa [turn] at steps
  have steps :=
    (Phase.parting (.trying (.system .disconnected)) e.closeWriter.1).steps task clock now
  generalize (Phase.parting (.trying (.system .disconnected)) e.closeWriter.1).step task clock now =
    step at steps
  cases steps with
  | tells outcome turn =>
    have parted := (offered turn).parted rests ordered
    cases offered turn with
    | tries wraps =>
      rw [wraps.prunes_of_left]
      exact .goesOn (.prunes _ gone parted) nofun (by simp [remaining])
    | passes faces | gives faces => cases faces
  | unlinks outcome turn =>
    have parted := (offered turn).parted rests ordered
    exact .goesOn (.clears (Or.inl rfl) gone parted) nofun (by simp [remaining])

/-- Every step brings the call nearer to its end. -/
theorem Closes.step (closes : Closes e now phase) (closed : now.state = .closed) :
    ClosesBy e phase (phase.step task clock now) := by
  cases closes with
  | joins latest abstains =>
    refine .goesOn (.detaches (abstains.trans ⟨.refl _, rfl, ?_⟩)) nofun (by simp [remaining])
    rw [Engine.outcome_closeWriter, Engine.outcome_closeWriter]
    rfl
  | detaches abstains =>
    have gone : (now.closeWriter.2.releasesWriter task).writer = false :=
      congrArg Desk.writer (desk_releasesWriter_closeWriter now task)
    have rests : Rests e.registry (now.closeWriter.2.releasesWriter task).registry := by
      show Rests e.registry now.closeWriter.2.registry
      rw [Engine.registry_closeWriter]
      exact abstains.rests
    have offers := Closes.offers (Or.inl rfl) gone rests
    rw [← abstains.outcome] at offers
    exact .goesOn offers nofun (by simp [remaining])
  | offers offers gone rests =>
    rcases offers with rfl | rfl
    · refine .goesOn (.offers (Or.inr rfl) gone ?_) nofun (by simp [remaining])
      exact rests.trans (.of_same rfl rfl rfl rfl)
    · exact closesBy_of_trying ordered task clock gone rests
  | prunes delivered gone parted =>
    refine .goesOn (.clears (Or.inl rfl) gone ?_) nofun (by simp [remaining])
    exact parted.quiet (.of_mailboxes rfl)
  | clears clears gone parted =>
    rcases clears with rfl | rfl
    · refine .goesOn (.clears (Or.inr rfl) gone ?_) nofun (by simp [remaining])
      exact parted.quiet ((Registry.quiet_cancelAll now.registry).trans (.of_mailboxes rfl))
    · exact .returns ⟨closed, gone, rfl, rfl, parted.quiet (.of_mailboxes rfl)⟩

end

theorem ClosesBy.nobody {step : Step M} (closesBy : ClosesBy e phase step) :
    step.reader? = none := by
  cases closesBy <;> rfl

/-- The first step tells everybody to stop. If there is a reader the call waits for it. -/
theorem closes_of_begin (unclosed : e.state ≠ .closed) (task : TaskId) (clock : Nat) :
    ∃ next now, (Phase.begin .close).step task clock e = goOn next now ∧ now.state = .closed ∧
      Closes e now next ∧ (e.reader = .unstarted ∨ ∃ latest, next = .joining latest) := by
  have abstains : ∀ {now : Engine M}, now.registry = { e.registry with shutdown := true } →
      now.writer = e.writer → now.link = e.link → Abstains e now := by
    intro now registry writer link
    refine ⟨registry ▸ .of_same rfl rfl rfl rfl, writer, ?_⟩
    rw [Engine.outcome_closeWriter, Engine.outcome_closeWriter, writer, link]
  show ∃ next now, start task clock .close e = goOn next now ∧ _
  simp only [start, if_neg unclosed]
  split
  next unstarted =>
    exact ⟨_, _, rfl, rfl, .detaches (abstains rfl rfl rfl), Or.inl unstarted⟩
  next => exact ⟨_, _, rfl, rfl, .joins _ (abstains rfl rfl rfl), Or.inr ⟨_, rfl⟩⟩

/-- Only the call that has waited for the reader makes it stop at once. -/
theorem Steps.aborted {task : TaskId} {clock : Nat} {step : Step M}
    (steps : phase.Steps task clock e step) (joined : ∀ latest, phase ≠ .joining latest) :
    step.engine.aborted = e.aborted := by
  cases steps with
  | joined latest => exact absurd rfl (joined latest)
  | retracts | parts => exact Engine.aborted_closeWriter e
  | _ => rfl

end EngineCall.Phase

namespace Engine

open EngineCall.Phase (Closes ClosesBy)

variable {M : Type}

section

variable {w : Site M} {told : List (TaskId × Event M)} {tried : List (Event M)} {deed : Deed M}
  {deeds : List (Deed M)} {closer : TaskId} {e : Engine M}
  {answers : List (TaskId × EngineCall.Answer)}

/-! ## The reader only dispatches -/

/-- Whoever reads does nothing else to the registry than dispatch events. -/
def Dispatching (stages : Work (Stage M)) : Prop :=
  ∀ task reading, stages task = some (.inr reading) → reading.Dispatches

theorem dispatching_apply (dispatching : Dispatching (stages w)) (numbered : w.Numbered)
    (lawful : Lawful w deed) : Dispatching (stages (w.apply machine deed)) := by
  intro task reading there
  cases (effect numbered lawful).comes there with
  | stays stage before => exact dispatching task reading before
  | reads found next before unaborted receives goesOn =>
    exact Reading.dispatches_of_step (dispatching task found before) unaborted goesOn
  | starts caller phase new before =>
    intro phase works
    cases works

theorem dispatching_run (dispatching : Dispatching (stages w)) (numbered : w.Numbered)
    (obeys : w.Obeys machine Lawful deeds) : Dispatching (stages (w.applyAll machine deeds)) := by
  refine World.keeps_run dispatching ?_ obeys
  intro before deed _ lawful dispatching
  rw [World.applyAll_snoc]
  exact dispatching_apply dispatching (numbered_applyAll numbered before) lawful

/-! ## While no other call is at work -/

/-- What is done while a call closes the engine: calls and the reader take steps, something arrives,
and time passes. No call begins, and no receiver takes anything. -/
def Beside (w : Site M) : Deed M → Prop
  | .run task => (stages w task).isSome = true
  | .outside (.feed _) => True
  | .wait _ => True
  | _ => False

theorem lawful_of_beside (beside : Beside w deed) : Lawful w deed := by
  cases deed with
  | start => exact beside.elim
  | outside act => cases act <;> first | exact trivial | exact beside.elim
  | _ => exact trivial

/-- A call closes the engine, which was `e` before, and no other call is at work. -/
structure ClosesAlone (e : Engine M) (closer : TaskId) (w : Site M)
    (answers : List (TaskId × EngineCall.Answer)) : Prop where
  closed : w.state.state = .closed
  alone : ∀ task phase, stages w task = some (.inl phase) → task = closer
  /-- Once the call has waited for the reader, the reader stops with its next step. -/
  stops : ∀ task reading, stages w task = some (.inr reading) →
    w.state.aborted = true ∨ ∃ latest, stages w closer = some (.inl (.joining latest))
  course : (∃ phase, stages w closer = some (.inl phase) ∧ Closes e w.state phase) ∨
    stages w closer = none ∧ (closer, .done e.closeWriter.1) ∈ answers ∧ Remains e w.state

theorem Remains.beside {now after : Engine M} (remains : Remains e now)
    (closed : after.state = .closed) (abstains : Abstains now after) : Remains e after where
  state := closed
  writer := abstains.writer.trans remains.writer
  entries := List.sublist_nil.mp (remains.entries ▸ abstains.rests.entries)
  tokens := List.sublist_nil.mp (remains.tokens ▸ abstains.rests.tokens)
  parted := remains.parted.quiet abstains.rests.quiet

/-- What others do leaves the call where it is. -/
theorem ClosesAlone.beside (closing : ClosesAlone e closer w answers) {v : Site M}
    (still : stages v closer = stages w closer)
    (calls : ∀ task phase, stages v task = some (.inl phase) → stages w task = some (.inl phase))
    (closed : v.state.state = .closed) (abstains : Abstains w.state v.state)
    (stops : ∀ task reading, stages v task = some (.inr reading) →
      v.state.aborted = true ∨ ∃ latest, stages v closer = some (.inl (.joining latest))) :
    ClosesAlone e closer v answers where
  closed := closed
  alone task phase there := closing.alone task phase (calls task phase there)
  stops := stops
  course := by
    rw [still]
    rcases closing.course with ⟨phase, there, closes⟩ | ⟨gone, returned, remains⟩
    · exact Or.inl ⟨phase, there, closes.beside abstains⟩
    · exact Or.inr ⟨gone, returned, remains.beside closed abstains⟩

variable {task : TaskId}

/-- The reader takes a step. -/
theorem ClosesAlone.reads (closing : ClosesAlone e closer w answers) (upkeep : Upkeep w told tried)
    (dispatching : Dispatching (stages w)) {reading : Reading M}
    (acts : actor w deed = some (task, .inr reading)) :
    ClosesAlone e closer (w.apply machine deed) answers := by
  obtain ⟨-, -, there⟩ := run_of_actor acts
  obtain ⟨moved, state⟩ := apply_of_reader acts
  have other : closer ≠ task := by
    rintro rfl
    rcases closing.course with ⟨phase, at_work, -⟩ | ⟨gone, -⟩
    · cases at_work.symm.trans there
    · cases gone.symm.trans there
  have still : stages (w.apply machine deed) closer = stages w closer := by
    rw [moved, Work.set_of_ne _ _ _ other]
  refine closing.beside still ?_ ?_ ?_ ?_
  · intro caller phase at_work
    rw [moved] at at_work
    rcases Work.set_cases _ _ _ at_work with ⟨-, now⟩ | ⟨-, before⟩
    · obtain ⟨next, -, same⟩ := Option.map_eq_some_iff.mp now
      cases same
    · exact before
  · rw [state]
    exact (callsOnly_state.step task w.clock reading w.state).trans closing.closed
  · rw [state]
    exact Reading.abstains_of_step (dispatching task reading there)
      (upkeep.kept.roles.shut (Or.inl closing.closed))
  · intro reader later at_work
    rw [moved] at at_work
    rcases Work.set_cases _ _ _ at_work with ⟨-, now⟩ | ⟨different, before⟩
    · rcases closing.stops task reading there with aborted | joins
      · have stops : reading.step task w.clock w.state = Reading.stop _ := if_pos aborted
        rw [stops] at now
        cases now
      · exact Or.inr (still ▸ joins)
    · -- There is only one reader.
      exact absurd (upkeep.kept.roles.driver reader task _ _ before there rfl rfl) different

/-- A reader that is still at work when the call goes on has been told to stop at once. -/
theorem ClosesAlone.aborted_apply (closing : ClosesAlone e closer w answers)
    (upkeep : Upkeep w told tried) {phase : EngineCall.Phase M}
    (acts : actor w deed = some (closer, .inl phase)) {reader : TaskId} {reading : Reading M}
    (reads : stages w reader = some (.inr reading)) :
    (w.apply machine deed).state.aborted = true := by
  obtain ⟨-, -, there⟩ := run_of_actor acts
  rw [(apply_of_call upkeep.kept.numbered acts).2]
  by_cases joins : ∃ latest, phase = .joining latest
  · obtain ⟨latest, rfl⟩ := joins
    show (w.state.aborted || w.state.reader == .running) = true
    rw [upkeep.running reader reading reads]
    exact Bool.or_true _
  · rw [(phase.steps closer w.clock w.state).aborted fun latest same => joins ⟨latest, same⟩]
    refine (closing.stops reader reading reads).resolve_right ?_
    rintro ⟨latest, at_work⟩
    cases there.symm.trans at_work
    exact joins ⟨latest, rfl⟩

/-- A step of the call is one of closing the engine, and moves nobody else. -/
theorem ClosesAlone.advances (closing : ClosesAlone e closer w answers)
    (upkeep : Upkeep w told tried) {phase : EngineCall.Phase M}
    (acts : actor w deed = some (closer, .inl phase)) :
    ClosesBy e phase (phase.step closer w.clock w.state) ∧
      stages (w.apply machine deed) =
        Work.set (stages w) closer
          ((phase.step closer w.clock w.state).next.getLeft?.map .inl) := by
  obtain ⟨-, -, there⟩ := run_of_actor acts
  obtain ⟨found, at_work, closes⟩ := closing.course.resolve_right fun gone =>
    nomatch gone.1.symm.trans there
  cases there.symm.trans at_work
  have closesBy := closes.step upkeep.kept.bounded.ordered closer w.clock closing.closed
  exact ⟨closesBy, stages_of_call upkeep.kept.numbered acts closesBy.nobody⟩

/-- The call takes a step. -/
theorem ClosesAlone.calls (closing : ClosesAlone e closer w answers) (upkeep : Upkeep w told tried)
    {phase : EngineCall.Phase M} (acts : actor w deed = some (task, .inl phase)) :
    ClosesAlone e closer (w.apply machine deed) (answers ++ returned w deed) := by
  have numbered := upkeep.kept.numbered
  obtain ⟨rfl, -, there⟩ := run_of_actor acts
  obtain rfl := closing.alone task phase there
  obtain ⟨closesBy, moved⟩ := closing.advances upkeep acts
  have others : ∀ {other : TaskId} {stage : Stage M}, other ≠ task →
      stages (w.apply machine (.run task)) other = some stage → stages w other = some stage := by
    intro other stage different found
    rw [moved] at found
    exact ((Work.set_cases _ _ _ found).resolve_left fun now => different now.1).2
  have stage := stage_of_call numbered acts
  have state := (apply_of_call numbered acts).2
  have answered := returned_of_call acts
  refine ⟨closed_effect (effect numbered trivial) closing.closed, ?_, ?_, ?_⟩
  · intro other found at_work
    by_contra different
    exact different (closing.alone other found (others different at_work))
  · intro reader reading reads
    by_cases same : reader = task
    · rw [same, stage] at reads
      obtain ⟨next, -, other⟩ := Option.map_eq_some_iff.mp reads
      cases other
    · exact Or.inl (closing.aborted_apply upkeep acts (others same reads))
  · rw [stage, state, answered]
    generalize phase.step task w.clock w.state = step at closesBy
    cases closesBy with
    | goesOn closes nearer => exact Or.inl ⟨_, rfl, closes⟩
    | returns remains =>
      exact Or.inr ⟨rfl, List.mem_append_right _ List.mem_cons_self, remains⟩

theorem ClosesAlone.apply (closing : ClosesAlone e closer w answers) (upkeep : Upkeep w told tried)
    (dispatching : Dispatching (stages w)) (beside : Beside w deed) :
    ClosesAlone e closer (w.apply machine deed) (answers ++ returned w deed) := by
  cases deed with
  | wait ms =>
    show ClosesAlone e closer _ (answers ++ [])
    rw [List.append_nil]
    exact closing.beside rfl (fun _ _ there => there) closing.closed ⟨.refl _, rfl, rfl⟩
      closing.stops
  | outside act =>
    cases act with
    | feed arrivals =>
      show ClosesAlone e closer _ (answers ++ [])
      rw [List.append_nil]
      exact closing.beside rfl (fun _ _ there => there) closing.closed
        (abstains_feed w.state arrivals) closing.stops
    | _ => exact beside.elim
  | run task =>
    cases ready : w.ready machine task with
    | false =>
      obtain ⟨same, silent⟩ := unmoved_of_unready ready
      rw [same, silent, List.append_nil]
      exact closing
    | true =>
      obtain ⟨phase | reading, there⟩ := Option.isSome_iff_exists.mp beside
      · exact closing.calls upkeep (actor_of_run ready there)
      · have acts := actor_of_run ready there
        have silent : returned w (.run task) = [] := by
          unfold returned
          simp only [ready, if_true, there]
        rw [silent, List.append_nil]
        exact closing.reads upkeep dispatching acts
  | _ => exact beside.elim

/-- The call takes its first step. -/
theorem closesAlone_of_begin (upkeep : Upkeep w told tried)
    (there : stages w closer = some (.inl (.begin .close))) (unclosed : w.state.state ≠ .closed)
    (alone : ∀ task phase, stages w task = some (.inl phase) → task = closer) :
    ClosesAlone w.state closer (w.apply machine (.run closer)) (returned w (.run closer)) := by
  have acts := actor_of_run (ready_of_begin there) there
  have numbered := upkeep.kept.numbered
  obtain ⟨next, now, turn, closed, closes, waits⟩ :=
    EngineCall.Phase.closes_of_begin unclosed closer w.clock
  have nobody : ((EngineCall.Phase.begin .close).step closer w.clock w.state).reader? = none := by
    rw [turn]
    rfl
  have moved := stages_of_call numbered acts nobody
  have state := (apply_of_call numbered acts).2
  rw [turn] at moved state
  have here : stages (w.apply machine (.run closer)) closer = some (.inl next) := by
    rw [moved, Work.set_self]
    rfl
  refine ⟨?_, fun task phase at_work => ?_, fun task reading reads => ?_, Or.inl ⟨next, here, ?_⟩⟩
  · rw [state]
    exact closed
  · rw [moved] at at_work
    rcases Work.set_cases _ _ _ at_work with ⟨same, -⟩ | ⟨-, before⟩
    · exact same
    · exact alone task phase before
  · rw [moved] at reads
    rcases Work.set_cases _ _ _ reads with ⟨-, now⟩ | ⟨-, before⟩
    · cases now
    · rcases waits with unstarted | ⟨latest, rfl⟩
      · cases unstarted.symm.trans (upkeep.running task reading before)
      · exact Or.inr ⟨latest, here⟩
  · rw [state]
    exact closes

/-- How far the call has got, whatever the reader does meanwhile. -/
theorem closesAlone_run (closing : ClosesAlone e closer w answers) (upkeep : Upkeep w told tried)
    (dispatching : Dispatching (stages w)) (obeys : w.Obeys machine Beside deeds) :
    ClosesAlone e closer (w.applyAll machine deeds)
      (answers ++ w.history machine returned deeds) := by
  refine World.keeps_run ?_ ?_ obeys
  · rw [World.history, List.append_nil]
    exact closing
  intro before deed earlier beside closing
  have lawful := earlier.mono fun _ _ => lawful_of_beside
  rw [World.applyAll_snoc, World.history_snoc, ← List.append_assoc]
  exact closing.apply (upkeep_run upkeep lawful)
    (dispatching_run dispatching upkeep.kept.numbered lawful) beside

/-! ## To the end -/

/-- The call has what it waits for if nobody else is at work and it has waited for the reader. -/
theorem ready_of_closes (upkeep : Upkeep w told tried) {phase : EngineCall.Phase M}
    (there : stages w closer = some (.inl phase)) (closes : Closes e w.state phase)
    (joined : ∀ latest, phase ≠ .joining latest)
    (alone : ∀ task stage, stages w task = some stage → task = closer) :
    w.ready machine closer = true := by
  -- Whoever stands in a line is at work, so the call has the lock that it stands in line for.
  have lined : ∀ {found : Operation.Phase M}, Stage.operation? (.inl phase) = some found →
      found.stands = true → w.state.registry.lock.granted closer = true := by
    intro found works stands
    refine Lock.granted_of_alone ((upkeep.lined.inLine closer).mpr ?_) fun other inLine => ?_
    · rw [operations_of_some there, works]
      exact stands
    · have stands := (upkeep.lined.inLine other).mp inLine
      cases works : operations (stages w) other with
      | none => rw [works] at stands; cases stands
      | some found =>
        obtain ⟨stage, at_work, -⟩ := stage_of_operations works
        exact alone other stage at_work
  rw [ready_eq_of_call there]
  cases closes with
  | joins latest => exact absurd rfl (joined latest)
  | detaches =>
    refine Lock.granted_of_alone ((upkeep.writing.stands closer).mpr ?_) fun other inLine => ?_
    · rw [show errands (stages w) closer = _ from seen_of_some there]
      rfl
    · cases at_work : stages w other with
      | none => exact absurd inLine (upkeep.writing.absent (seen_of_none at_work))
      | some stage => exact alone other stage at_work
  | offers offers =>
    rcases offers with rfl | rfl
    · rfl
    · exact lined rfl rfl
  | prunes => exact lined rfl rfl
  | clears clears =>
    rcases clears with rfl | rfl
    · rfl
    · exact lined rfl rfl

theorem beside_of_stage {stage : Stage M} (there : stages w task = some stage) :
    Beside w (.run task) := Option.isSome_of_eq_some there

/-- A call that is ready goes on or returns, and everybody else stays where he is. -/
theorem ClosesAlone.canReturn_of_step (closing : ClosesAlone e closer w answers)
    (upkeep : Upkeep w told tried) {phase : EngineCall.Phase M}
    (there : stages w closer = some (.inl phase)) (ready : w.ready machine closer = true)
    (onward : ∀ next, stages (w.apply machine (.run closer)) =
        Work.set (stages w) closer (some (.inl next)) →
      (∀ latest, next ≠ .joining latest) → next.remaining < phase.remaining →
      CanReturn Beside closer (w.apply machine (.run closer))) : CanReturn Beside closer w := by
  have beside := beside_of_stage there
  have acts := actor_of_run ready there
  obtain ⟨closesBy, moved⟩ := closing.advances upkeep acts
  have answered := returned_of_call acts
  generalize phase.step closer w.clock w.state = step at closesBy answered moved
  cases closesBy with
  | returns remains =>
    refine ⟨[.run closer], ⟨beside, trivial⟩, .done e.closeWriter.1, ?_⟩
    rw [World.history, World.history, answered]
    exact List.mem_cons_self
  | goesOn closes joined nearer =>
    exact CanReturn.after [.run closer] ⟨beside, trivial⟩ (onward _ moved joined nearer)

/-- The call can return while nobody else is at work. -/
theorem ClosesAlone.canReturn_alone (closing : ClosesAlone e closer w answers)
    (upkeep : Upkeep w told tried) (unread : ∀ task reading, stages w task ≠ some (.inr reading))
    {phase : EngineCall.Phase M} (there : stages w closer = some (.inl phase))
    (joined : ∀ latest, phase ≠ .joining latest) : CanReturn Beside closer w := by
  -- The induction is on what remains to be done; every step of the call does some of it.
  induction left : phase.remaining using Nat.strongRecOn
    generalizing w phase told tried answers with
  | ind left ih =>
    obtain ⟨found, at_work, closes⟩ := closing.course.resolve_right fun gone =>
      nomatch gone.1.symm.trans there
    cases there.symm.trans at_work
    have alone : ∀ task stage, stages w task = some stage → task = closer := by
      intro task stage at_work
      rcases stage with other | reading
      · exact closing.alone task other at_work
      · exact absurd at_work (unread task reading)
    have ready := ready_of_closes upkeep there closes joined alone
    refine closing.canReturn_of_step upkeep there ready fun next moved joined nearer => ?_
    refine ih next.remaining (left ▸ nearer) (closing.calls upkeep (actor_of_run ready there))
      (upkeep.apply trivial) ?_ (by rw [moved, Work.set_self]) joined rfl
    intro task reading reads
    rw [moved] at reads
    rcases Work.set_cases _ _ _ reads with ⟨-, now⟩ | ⟨-, before⟩
    · cases now
    · exact unread task reading before

/-- A call that has waited for the reader does not wait for it any more. -/
theorem ClosesAlone.canReturn_joined (closing : ClosesAlone e closer w answers)
    (upkeep : Upkeep w told tried) (dispatching : Dispatching (stages w))
    {phase : EngineCall.Phase M} (there : stages w closer = some (.inl phase))
    (joined : ∀ latest, phase ≠ .joining latest) : CanReturn Beside closer w := by
  by_cases reads : ∃ task reading, stages w task = some (.inr reading)
  · obtain ⟨task, reading, reads⟩ := reads
    have aborted : w.state.aborted = true := by
      refine (closing.stops task reading reads).resolve_right ?_
      rintro ⟨latest, at_work⟩
      cases there.symm.trans at_work
      exact joined latest rfl
    have ready : w.ready machine task = true := by
      rw [ready_eq_of_reader reads]
      unfold Reading.ready
      rw [aborted, Bool.true_or]
    have acts := actor_of_run ready reads
    have stops : reading.step task w.clock w.state = Reading.stop _ := if_pos aborted
    have moved := (apply_of_reader acts).1
    rw [stops] at moved
    have other : closer ≠ task := by
      rintro rfl
      cases there.symm.trans reads
    refine CanReturn.after [.run task] ⟨beside_of_stage reads, trivial⟩ ?_
    refine (closing.reads upkeep dispatching acts).canReturn_alone (upkeep.apply trivial) ?_
      (by rw [moved, Work.set_of_ne _ _ _ other, there]) joined
    intro reader later at_work
    rw [moved] at at_work
    rcases Work.set_cases _ _ _ at_work with ⟨-, now⟩ | ⟨different, before⟩
    · cases now
    · exact different (upkeep.kept.roles.driver reader task _ _ before reads rfl rfl)
  · exact closing.canReturn_alone upkeep (fun task reading there => reads ⟨task, reading, there⟩)
      there joined

/-- However far the call has got, it can return with nobody else than the reader taking steps. -/
theorem ClosesAlone.canReturn (closing : ClosesAlone e closer w answers)
    (upkeep : Upkeep w told tried) (dispatching : Dispatching (stages w))
    {phase : EngineCall.Phase M} (there : stages w closer = some (.inl phase)) :
    CanReturn Beside closer w := by
  by_cases joins : ∃ latest, phase = .joining latest
  · obtain ⟨latest, rfl⟩ := joins
    -- When the time is up the call need not wait for the reader.
    have beside : Beside w (.wait latest) := trivial
    have waited := closing.apply upkeep dispatching beside
    have later := upkeep.apply (lawful_of_beside beside)
    have at_work : stages (w.apply machine (.wait latest)) closer = _ := there
    have ready : (w.apply machine (.wait latest)).ready machine closer = true := by
      rw [ready_eq_of_call at_work]
      unfold EngineCall.Phase.ready
      rw [Bool.or_eq_true]
      exact Or.inr (decide_eq_true (Nat.le_add_left latest w.clock))
    refine CanReturn.after [.wait latest] ⟨beside, trivial⟩ ?_
    refine waited.canReturn_of_step later at_work ready fun next moved joined nearer => ?_
    refine (waited.calls later (actor_of_run ready at_work)).canReturn_joined (later.apply trivial)
      (dispatching_apply dispatching later.kept.numbered trivial) ?_ joined
    rw [moved, Work.set_self]
  · exact closing.canReturn_joined upkeep dispatching there fun latest same => joins ⟨latest, same⟩

end

end Engine

end HardwareSigner
