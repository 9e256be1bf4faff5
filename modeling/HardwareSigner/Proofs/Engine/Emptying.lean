import HardwareSigner.Codec.Raw
import HardwareSigner.Proofs.Engine.Adding

/-!
# What is left of the listeners when an engine is closed

The call that closes an engine unlinks all listeners. A call that adds one looks at the state of the
engine first and asks for the lock of the registry then, and in between the engine may be closed.
Whoever has been let in and asks for the lock later than the closing call is late: his listener is
linked after all the others have been unlinked, and nobody unlinks it any more.

> `Engine.emptied_by_close`: when the call that has closed the engine has returned, only the
> listeners of those who were late are linked, or ever will be, and nobody else's receiver waits in
> vain.
-/

namespace HardwareSigner

/-- The receiver of a mailbox that nobody can put anything into does not wait: it gets what is still
there, and then learns that there is no more. -/
theorem Receiving.poll_of_closed {M : Type} {waiting : Receiving} {r : Registry M}
    (closed : waiting.box ∉ r.boxes) (clock : Nat) :
    ∃ receipt rest, waiting.poll clock r = some (receipt, rest) ∧
      (receipt = .closed ∨ ∃ event, receipt = .arrived event) := by
  have unlinked : r.closed waiting.box = true := by
    unfold Registry.closed
    rw [Bool.not_eq_true', List.any_eq_false]
    intro entry there same
    exact closed (List.mem_map.mpr ⟨entry, there, beq_iff_eq.mp same⟩)
  unfold Receiving.poll
  split
  next event rest received => exact ⟨_, _, rfl, Or.inr ⟨event, rfl⟩⟩
  next => exact ⟨_, _, if_pos unlinked, Or.inl rfl⟩

namespace EngineCall.Phase

variable {M : Type}

/-- Whether a call has closed the engine and has not asked yet for the lock to unlink everybody. -/
def windsUp : Phase M → Bool
  | .joining _ | .detaching | .parting _ _ | .clearing (.begin .clear) _ => true
  | _ => false

/-- A call that winds up goes on until it asks for the lock to unlink everybody. -/
theorem windsUp_step {phase : Phase M} {step : Step M} {task : TaskId} {clock : Nat} {e : Engine M}
    (steps : phase.Steps task clock e step) (winds : phase.windsUp = true) :
    (∃ next, step.next = .inl next ∧ next.windsUp = true) ∨
      ∃ outcome, phase = .clearing (.begin .clear) outcome := by
  cases phase with
  | clearing found outcome =>
    cases found with
    | begin operation =>
      cases operation with
      | clear => exact Or.inr ⟨outcome, rfl⟩
      | _ => cases winds
    | _ => cases winds
  | joining latest | detaching | parting found outcome =>
    cases steps <;> exact Or.inl ⟨_, rfl, rfl⟩
  | _ => cases winds

/-- The step that closes an engine leads the call to wind up. -/
theorem windsUp_of_shut {phase : Phase M} {task : TaskId} {clock : Nat} {e : Engine M}
    (shut : .shut ∈ phase.achieves task clock e) :
    (phase.step task clock e).engine.state = .closed ∧
      ∃ next, (phase.step task clock e).next = .inl next ∧ next.windsUp = true := by
  cases phase with
  | begin call =>
    cases call with
    | close =>
      simp only [achieves] at shut
      simp only [step, start]
      split at shut
      · cases shut
      next unclosed =>
        rw [if_neg unclosed]
        split <;> exact ⟨rfl, _, rfl, rfl⟩
    | _ => cases shut
  | opening latest failure? =>
    simp only [achieves] at shut
    split at shut <;> simp at shut
  | announcing phase =>
    simp only [achieves] at shut
    split at shut <;> simp at shut
  | _ => cases shut

end EngineCall.Phase

namespace Engine

open Registry (InLine Awaits Swept)

variable {M : Type}

/-- A call has been let in to add a listener, and has not asked for the lock of the registry. -/
def Entering (w : Site M) (task : TaskId) : Prop :=
  ∃ id, operations (stages w) task = some (.begin (.add id))

/-- What is left of the listeners: nobody's but those of the calls that were `late`. -/
structure Emptied (late : TaskId → Prop) (w : Site M)
    (answers : List (TaskId × EngineCall.Answer)) : Prop where
  /-- Nobody else will link a listener. -/
  swept : Swept late (operations (stages w))
  /-- Nobody else has linked one. -/
  linked : ∀ entry ∈ w.state.registry.entries,
    ∃ task, late task ∧ (task, .added (.ok entry.2)) ∈ answers
  /-- The mailboxes that all others were given are closed. -/
  closed : ∀ task box, (task, .added (.ok box)) ∈ answers →
    late task ∨ box ∉ w.state.registry.boxes

/-- What there is to know of the listeners of an engine at any time. -/
structure Watched (w : Site M) (told : List (TaskId × Event M)) (tried : List (Event M))
    (answers : List (TaskId × EngineCall.Answer)) : Prop where
  kept : Kept w told tried
  inLine : InLine (operations (stages w)) w.state.registry
  plain : Plain (stages w)
  known : ∀ task box, (task, .added (.ok box)) ∈ answers →
    box < w.state.registry.mailboxes.length

section

variable {w : Site M} {told : List (TaskId × Event M)} {tried : List (Event M)}
  {answers : List (TaskId × EngineCall.Answer)} {deed : Deed M} {deeds : List (Deed M)}

theorem watched_create (codec : RequestCodec M) (settings : EngineSettings) (link : ScriptedLink) :
    Watched (World.ofState (create codec settings link)) [] [] [] where
  kept := kept_create codec settings link
  inLine _ := ⟨fun there => (nomatch there), fun there => nomatch there⟩
  plain _ _ _ there := nomatch there
  known _ _ none := nomatch none

theorem Watched.apply (watched : Watched w told tried answers) (lawful : Lawful w deed) :
    Watched (w.apply machine deed) (told ++ takes w deed) (tried ++ tries w deed)
      (answers ++ returned w deed) where
  kept := watched.kept.apply lawful
  inLine := (watched.kept.moves lawful).requeues.inLine watched.inLine
  plain := plain_apply watched.plain watched.kept.numbered lawful
  known task box added := by
    rcases List.mem_append.mp added with earlier | now
    · exact Nat.lt_of_lt_of_le (watched.known task box earlier) (watched.kept.moves lawful).length
    · exact (added_of_returned now watched.kept.numbered).2.2.1

theorem watched_run (watched : Watched w told tried answers)
    (obeys : w.Obeys machine Lawful deeds) :
    Watched (w.applyAll machine deeds) (told ++ w.history machine takes deeds)
      (tried ++ w.history machine tries deeds) (answers ++ w.history machine returned deeds) := by
  refine World.keeps_run ?_ ?_ obeys
  · rw [World.history, World.history, World.history, List.append_nil, List.append_nil,
      List.append_nil]
    exact watched
  · intro before deed _ lawful watched
    rw [World.applyAll_snoc, World.history_snoc, World.history_snoc, World.history_snoc,
      ← List.append_assoc, ← List.append_assoc, ← List.append_assoc]
    exact watched.apply lawful

/-! ## What an action leaves of the listeners -/

variable {late : TaskId → Prop} {closer : TaskId}

/-- What has been emptied stays so. -/
theorem Emptied.apply (emptied : Emptied late w answers) (watched : Watched w told tried answers)
    (lawful : Lawful w deed) (closed : w.state.state = .closed) :
    Emptied late (w.apply machine deed) (answers ++ returned w deed) where
  swept := emptied.swept.keeps (watched.kept.moves lawful).requeues fun _ _ =>
    let_in_before watched.plain watched.kept.numbered lawful closed
  linked entry there := by
    rcases linked_apply watched.plain watched.kept.numbered there with
      before | ⟨task, adding, added⟩
    · obtain ⟨task, isLate, added⟩ := emptied.linked entry before
      exact ⟨task, isLate, List.mem_append_left _ added⟩
    · exact ⟨task, emptied.swept task _ adding rfl, List.mem_append_right _ added⟩
  closed task box added := by
    rcases List.mem_append.mp added with earlier | now
    · refine (emptied.closed task box earlier).imp_right fun closed there => ?_
      obtain ⟨entry, linked, rfl⟩ := List.mem_map.mp there
      rcases linked_apply watched.plain watched.kept.numbered linked with before | ⟨other, -, new⟩
      · exact closed (List.mem_map.mpr ⟨entry, before, rfl⟩)
      · -- A new listener has a mailbox of its own.
        have known := watched.known task entry.2 earlier
        rw [(added_of_returned new watched.kept.numbered).2.1] at known
        exact Nat.lt_irrefl _ known
    · obtain ⟨⟨id, adding⟩, -⟩ := added_of_returned now watched.kept.numbered
      exact Or.inl (emptied.swept task _ adding rfl)

/-- The operations after the step of a call. -/
theorem operations_apply {task : TaskId} {phase : EngineCall.Phase M} (numbered : w.Numbered)
    (acts : actor w deed = some (task, .inl phase)) :
    operations (stages (w.apply machine deed)) = Work.set (operations (stages w)) task
      (((phase.step task w.clock w.state).next.getLeft?.map .inl).bind Stage.operation?) := by
  rw [(apply_of_call numbered acts).1]
  exact operations_call w.clock (stages_of_none numbered.phase?_next) (run_of_actor acts).2.2

/-- The call that closes the engine asks for the lock. -/
theorem awaits_of_asks (watched : Watched w told tried answers) {outcome : Except Failure Unit}
    (acts : actor w deed = some (closer, .inl (.clearing (.begin .clear) outcome))) :
    Awaits (Entering w) closer (operations (stages (w.apply machine deed)))
      (w.apply machine deed).state.registry := by
  obtain ⟨-, -, there⟩ := run_of_actor acts
  rw [operations_apply watched.kept.numbered acts, (apply_of_call watched.kept.numbered acts).2]
  exact Registry.awaits_of_clear watched.inLine (operations_of_some there)

/-- The call that closes the engine unlinks everybody. -/
theorem emptied_of_clears (watched : Watched w told tried answers)
    {outcome : Except Failure Unit}
    (acts : actor w deed = some (closer, .inl (.clearing .clearing outcome)))
    (awaits : Awaits late closer (operations (stages w)) w.state.registry) :
    Emptied late (w.apply machine deed) (answers ++ returned w deed) := by
  obtain ⟨-, ready, there⟩ := run_of_actor acts
  -- The call acts because it has the lock, so whoever had asked before it has been served.
  have swept := awaits.swept (ready_of_stage there ready)
  have nobody : (w.apply machine deed).state.registry.entries = [] := by
    rw [(apply_of_call watched.kept.numbered acts).2]
    rfl
  constructor
  · rw [operations_apply watched.kept.numbered acts]
    intro task phase found adds
    rcases Work.set_cases _ _ _ found with ⟨-, gone⟩ | ⟨-, before⟩
    · cases gone
    · exact swept task phase before adds
  · rw [nobody]
    exact fun _ none => nomatch none
  · unfold Registry.boxes
    rw [nobody]
    exact fun _ _ _ => Or.inr List.not_mem_nil

end

/-! ## The call that closes the engine -/

/-- The call asks for the lock to unlink everybody after `before`. -/
structure Asked (start : Site M) (closer : TaskId) (deeds before : List (Deed M)) : Prop where
  split : ∃ after, deeds = before ++ .run closer :: after
  asks : ∃ outcome, stages (start.applyAll machine before) closer =
    some (.inl (.clearing (.begin .clear) outcome))

theorem Asked.snoc {start : Site M} {closer : TaskId} {deeds before : List (Deed M)}
    (asked : Asked start closer deeds before) (deed : Deed M) :
    Asked start closer (deeds ++ [deed]) before where
  split := by
    obtain ⟨after, rfl⟩ := asked.split
    exact ⟨after ++ [deed], by rw [List.append_assoc, List.cons_append]⟩
  asks := asked.asks

/-- How far the call that has closed the engine has got in a run. -/
inductive Course (start : Site M) (closer : TaskId) (deeds : List (Deed M)) : Prop
  | winds (phase : EngineCall.Phase M)
      (there : stages (start.applyAll machine deeds) closer = some (.inl phase))
      (winds : phase.windsUp = true)
  | waits (before : List (Deed M)) (asked : Asked start closer deeds before)
      (outcome : Except Failure Unit)
      (there : stages (start.applyAll machine deeds) closer =
        some (.inl (.clearing .clearing outcome)))
      (awaits : Awaits (Entering (start.applyAll machine before)) closer
        (operations (stages (start.applyAll machine deeds)))
        (start.applyAll machine deeds).state.registry)
  | returns (before : List (Deed M)) (asked : Asked start closer deeds before)
      (gone : stages (start.applyAll machine deeds) closer = none)
      (emptied : Emptied (Entering (start.applyAll machine before)) (start.applyAll machine deeds)
        (start.history machine returned deeds))
  /-- It has been given up. -/
  | lost (gone : stages (start.applyAll machine deeds) closer = none)
      (unreturned : ∀ answer, (closer, answer) ∉ start.history machine returned deeds)

section

variable {start : Site M} {closer : TaskId} {before : List (Deed M)} {deed : Deed M}
  {told : List (TaskId × Event M)} {tried : List (Event M)}
  {answers : List (TaskId × EngineCall.Answer)}

/-- A call that has not returned is given up by somebody else. -/
theorem lost_of_idle {stage : Stage M}
    (there : stages (start.applyAll machine before) closer = some stage)
    (gone : ∀ task answer, (task, answer) ∈ start.history machine returned before →
      stages (start.applyAll machine before) task = none)
    (idle : ∀ stage, actor (start.applyAll machine before) deed ≠ some (closer, stage))
    (lost : stages ((start.applyAll machine before).apply machine deed) closer = none) :
    Course start closer (before ++ [deed]) := by
  refine .lost (by rw [World.applyAll_snoc]; exact lost) fun answer returns => ?_
  rw [World.history_snoc, List.mem_append] at returns
  rcases returns with earlier | now
  · cases there.symm.trans (gone closer answer earlier)
  · obtain ⟨phase, acts, -⟩ := actor_of_returned now
    exact idle _ acts

/-- The call winds up. -/
theorem course_of_winds {phase : EngineCall.Phase M}
    (there : stages (start.applyAll machine before) closer = some (.inl phase))
    (winds : phase.windsUp = true)
    (watched : Watched (start.applyAll machine before) told tried answers)
    (gone : ∀ task answer, (task, answer) ∈ start.history machine returned before →
      stages (start.applyAll machine before) task = none) :
    Course start closer (before ++ [deed]) := by
  have numbered := watched.kept.numbered
  by_cases acts : ∃ stage, actor (start.applyAll machine before) deed = some (closer, stage)
  · -- Its step leads nearer to the lock, or asks for it.
    obtain ⟨stage, acts⟩ := acts
    obtain ⟨rfl, -, same⟩ := run_of_actor acts
    cases there.symm.trans same
    have after := stage_of_call numbered acts
    rcases EngineCall.Phase.windsUp_step (phase.steps _ _ _) winds with
      ⟨next, goesOn, winds⟩ | ⟨outcome, rfl⟩
    · rw [goesOn] at after
      exact .winds next (by rw [World.applyAll_snoc]; exact after) winds
    · refine .waits before ⟨⟨[], rfl⟩, outcome, there⟩ outcome ?_ ?_
      · rw [World.applyAll_snoc]
        exact after
      · rw [World.applyAll_snoc]
        exact awaits_of_asks watched acts
  · have idle : ∀ stage, actor (start.applyAll machine before) deed ≠ some (closer, stage) :=
      fun stage now => acts ⟨stage, now⟩
    cases after : stages ((start.applyAll machine before).apply machine deed) closer with
    | none => exact lost_of_idle there gone idle after
    | some stage =>
      cases there.symm.trans (stays_of_idle numbered (lt_next_of_stage numbered there) idle after)
      exact .winds phase (by rw [World.applyAll_snoc]; exact after) winds

/-- The call waits for the lock. -/
theorem course_of_waits {earlier : List (Deed M)} (asked : Asked start closer before earlier)
    {outcome : Except Failure Unit}
    (there : stages (start.applyAll machine before) closer =
      some (.inl (.clearing .clearing outcome)))
    (awaits : Awaits (Entering (start.applyAll machine earlier)) closer
      (operations (stages (start.applyAll machine before)))
      (start.applyAll machine before).state.registry)
    (watched : Watched (start.applyAll machine before) told tried
      (start.history machine returned before))
    (lawful : Lawful (start.applyAll machine before) deed)
    (closed : (start.applyAll machine before).state.state = .closed)
    (gone : ∀ task answer, (task, answer) ∈ start.history machine returned before →
      stages (start.applyAll machine before) task = none) :
    Course start closer (before ++ [deed]) := by
  have numbered := watched.kept.numbered
  by_cases acts : ∃ stage, actor (start.applyAll machine before) deed = some (closer, stage)
  · -- It has the lock, unlinks everybody and returns.
    obtain ⟨stage, acts⟩ := acts
    cases there.symm.trans (run_of_actor acts).2.2
    refine .returns earlier (asked.snoc deed) ?_ ?_
    · rw [World.applyAll_snoc]
      exact stage_of_call numbered acts
    · rw [World.applyAll_snoc, World.history_snoc]
      exact emptied_of_clears watched acts awaits
  · have idle : ∀ stage, actor (start.applyAll machine before) deed ≠ some (closer, stage) :=
      fun stage now => acts ⟨stage, now⟩
    cases after : stages ((start.applyAll machine before).apply machine deed) closer with
    | none => exact lost_of_idle there gone idle after
    | some stage =>
      cases there.symm.trans (stays_of_idle numbered (lt_next_of_stage numbered there) idle after)
      refine .waits earlier (asked.snoc deed) outcome ?_ ?_
      · rw [World.applyAll_snoc]
        exact after
      · rw [World.applyAll_snoc]
        exact awaits.keeps (watched.kept.moves lawful).requeues
          (fun _ _ => let_in_before watched.plain numbered lawful closed) (operations_of_some after)

theorem Course.apply (course : Course start closer before)
    (watched : Watched (start.applyAll machine before) told tried
      (start.history machine returned before))
    (lawful : Lawful (start.applyAll machine before) deed)
    (closed : (start.applyAll machine before).state.state = .closed)
    (old : closer < (start.applyAll machine before).next)
    (gone : ∀ task answer, (task, answer) ∈ start.history machine returned before →
      stages (start.applyAll machine before) task = none) :
    Course start closer (before ++ [deed]) := by
  have numbered := watched.kept.numbered
  cases course with
  | winds phase there winds => exact course_of_winds there winds watched gone
  | waits earlier asked outcome there awaits =>
    exact course_of_waits asked there awaits watched lawful closed gone
  | returns earlier asked away emptied =>
    refine .returns earlier (asked.snoc deed) ?_ ?_
    · rw [World.applyAll_snoc]
      exact gone_apply numbered lawful old away
    · rw [World.applyAll_snoc, World.history_snoc]
      exact emptied.apply watched lawful closed
  | lost away unreturned =>
    refine .lost ?_ fun answer returns => ?_
    · rw [World.applyAll_snoc]
      exact gone_apply numbered lawful old away
    · rw [World.history_snoc, List.mem_append] at returns
      rcases returns with earlier | now
      · exact unreturned answer earlier
      · obtain ⟨phase, acts, -⟩ := actor_of_returned now
        cases away.symm.trans (run_of_actor acts).2.2

end

/-! ## The whole run -/

/-- `task` was let in to add a listener, by an engine that was not closed, in the course of
`before`. -/
structure LetIn (start : Site M) (task : TaskId) (before earlier : List (Deed M)) : Prop where
  split : ∃ after, before = earlier ++ .run task :: after
  begins : ∃ id, stages (start.applyAll machine earlier) task =
    some (.inl (.begin (.addListener id)))
  unclosed : (start.applyAll machine earlier).state.state ≠ .closed

theorem let_in_run (codec : RequestCodec M) (settings : EngineSettings) (link : ScriptedLink)
    {deeds : List (Deed M)}
    (obeys : (World.ofState (create codec settings link)).Obeys machine Lawful deeds)
    {task : TaskId}
    (entering : Entering ((World.ofState (create codec settings link)).applyAll machine deeds)
      task) :
    ∃ earlier, LetIn (World.ofState (create codec settings link)) task deeds earlier := by
  revert entering
  refine World.keeps_run (fun ⟨id, entered⟩ => nomatch entered) ?_ obeys
  rintro before deed obeyed lawful letIn ⟨id, begun⟩
  rw [World.applyAll_snoc] at begun
  have watched := watched_run (watched_create codec settings link) obeyed
  rcases let_in watched.plain watched.kept.numbered lawful begun with already | ⟨acts, unclosed⟩
  · obtain ⟨earlier, ⟨after, rfl⟩, begins, unclosed⟩ := letIn ⟨id, already⟩
    exact ⟨earlier, ⟨after ++ [deed], by rw [List.append_assoc, List.cons_append]⟩, begins,
      unclosed⟩
  · obtain ⟨rfl, -, there⟩ := run_of_actor acts
    exact ⟨before, ⟨[], rfl⟩, ⟨id, there⟩, unclosed⟩

/-- The call that closes the engine has closed it, and winds up. -/
theorem winds_of_shut {w : Site M} {deed : Deed M} {closer : TaskId} (numbered : w.Numbered)
    (shut : (closer, .shut) ∈ milestones w deed) :
    (w.apply machine deed).state.state = .closed ∧ closer < w.next ∧
      ∃ phase, stages (w.apply machine deed) closer = some (.inl phase) ∧
        phase.windsUp = true := by
  unfold milestones at shut
  split at shut
  next task phase acts =>
    obtain ⟨milestone, achieved, same⟩ := List.mem_map.mp shut
    cases same
    obtain ⟨closed, next, goesOn, winds⟩ := EngineCall.Phase.windsUp_of_shut achieved
    rw [stage_of_call numbered acts, (apply_of_call numbered acts).2, goesOn]
    exact ⟨closed, lt_next_of_stage numbered (run_of_actor acts).2.2, next, rfl, winds⟩
  next => cases shut

/-- Where the call that has closed the engine is in a run. -/
theorem course_run (codec : RequestCodec M) (settings : EngineSettings) (link : ScriptedLink)
    {deeds : List (Deed M)}
    (obeys : (World.ofState (create codec settings link)).Obeys machine Lawful deeds)
    {closer : TaskId} (shut : (closer, .shut) ∈
      (World.ofState (create codec settings link)).history machine milestones deeds) :
    ((World.ofState (create codec settings link)).applyAll machine deeds).state.state = .closed ∧
      closer < ((World.ofState (create codec settings link)).applyAll machine deeds).next ∧
      Course (World.ofState (create codec settings link)) closer deeds := by
  -- The induction is on the run. The course begins with the action that closes the engine.
  revert shut
  refine World.keeps_run (fun none => nomatch none) ?_ obeys
  intro before deed earlier lawful course shut
  have watched := watched_run (watched_create codec settings link) earlier
  have gone := (gone_of_history (World.numbered_ofState _) earlier).2
  have numbered := watched.kept.numbered
  have later := World.next_le_apply machine
    ((World.ofState (create codec settings link)).applyAll machine before) deed
  rw [World.history_snoc, List.mem_append] at shut
  rcases shut with before | now
  · obtain ⟨closed, old, course⟩ := course before
    have course := course.apply watched lawful closed old fun task answer returns =>
      (gone task answer returns).2
    rw [World.applyAll_snoc]
    exact ⟨closed_effect (effect numbered lawful) closed, Nat.lt_of_lt_of_le old later, course⟩
  · obtain ⟨closed, old, phase, there, winds⟩ := winds_of_shut numbered now
    have course : Course (World.ofState (create codec settings link)) closer (before ++ [deed]) :=
      .winds phase (by rw [World.applyAll_snoc]; exact there) winds
    rw [World.applyAll_snoc]
    exact ⟨closed, Nat.lt_of_lt_of_le old later, course⟩

/-- What is left of the listeners after a run in which `closer` has closed the engine. Late are
those who had been let in before, and had not asked for the lock of the registry when the closing
call did. -/
structure LeftLate (start : Site M) (closer : TaskId) (deeds : List (Deed M))
    (before : List (Deed M)) : Prop where
  asked : Asked start closer deeds before
  /-- Whoever was late had been let in while the engine was not closed. -/
  letIn : ∀ task, Entering (start.applyAll machine before) task →
    ∃ earlier, LetIn start task before earlier
  /-- A listener that is linked has been added by somebody who was late. -/
  linked : ∀ id box, (id, box) ∈ (start.applyAll machine deeds).state.registry.entries →
    ∃ task, Entering (start.applyAll machine before) task ∧
      (task, .added (.ok box)) ∈ start.history machine returned deeds
  /-- Whoever still has a listener to link was late. -/
  adding : ∀ task phase, operations (stages (start.applyAll machine deeds)) task = some phase →
    phase.adds = true → Entering (start.applyAll machine before) task
  /-- Whoever is only about to begin is refused. -/
  refused : ∀ task id,
    stages (start.applyAll machine deeds) task = some (.inl (.begin (.addListener id))) →
    returned (start.applyAll machine deeds) (.run task) =
        [(task, .added (.error .notConnected))] ∧
      ((start.applyAll machine deeds).apply machine (.run task)).state =
        (start.applyAll machine deeds).state
  /-- The receiver of anybody else gets what is left for it, and then learns that there is no
  more. -/
  received : ∀ task box, (task, .added (.ok box)) ∈ start.history machine returned deeds →
    ¬ Entering (start.applyAll machine before) task →
    ∀ waiting : Receiving, waiting.box = box → ∀ clock, ∃ receipt rest,
      waiting.poll clock (start.applyAll machine deeds).state.registry = some (receipt, rest) ∧
      (receipt = .closed ∨ ∃ event, receipt = .arrived event)

theorem leftLate_of_returned (codec : RequestCodec M) (settings : EngineSettings)
    (link : ScriptedLink) {deeds : List (Deed M)}
    (obeys : (World.ofState (create codec settings link)).Obeys machine Lawful deeds)
    {closer : TaskId} (shut : (closer, .shut) ∈
      (World.ofState (create codec settings link)).history machine milestones deeds)
    {answer : EngineCall.Answer}
    (returns : (closer, answer) ∈
      (World.ofState (create codec settings link)).history machine returned deeds) :
    ∃ before, LeftLate (World.ofState (create codec settings link)) closer deeds before := by
  obtain ⟨numbered, gone⟩ := gone_of_history (World.numbered_ofState _) obeys
  obtain ⟨-, gone⟩ := gone closer answer returns
  obtain ⟨closed, -, course⟩ := course_run codec settings link obeys shut
  cases course with
  | winds phase there winds => cases gone.symm.trans there
  | waits before asked outcome there awaits => cases gone.symm.trans there
  | lost away unreturned => exact absurd returns (unreturned answer)
  | returns before asked away emptied =>
    -- Only here has the call returned.
    obtain ⟨after, rfl⟩ := asked.split
    obtain ⟨earlier, -, -⟩ := World.obeys_append.mp obeys
    refine ⟨before, asked, fun task => let_in_run codec settings link earlier,
      fun id box => emptied.linked (id, box), emptied.swept, ?_, ?_⟩
    · exact fun task id begins => returned_at_once numbered begins (if_pos closed)
    rintro task box added early waiting rfl clock
    exact Receiving.poll_of_closed ((emptied.closed task _ added).resolve_left early) clock

/-- What has come of a call that is to close an engine, and has returned with `answer`. Its first
step comes between `earlier` and `after`. -/
inductive Closing (start : Site M) (closer : TaskId) (earlier after : List (Deed M))
    (answer : EngineCall.Answer) : Prop
  /-- The engine is closed already. The call returns with its first step, and has done nothing. -/
  | again (closed : (start.applyAll machine earlier).state.state = .closed)
      (returns : returned (start.applyAll machine earlier) (.run closer) = [(closer, answer)])
      (succeeds : answer = .done (.ok ()))
      (unchanged : ((start.applyAll machine earlier).apply machine (.run closer)).state =
        (start.applyAll machine earlier).state)
  /-- The call has closed the engine. -/
  | now (unclosed : (start.applyAll machine earlier).state.state ≠ .closed)
      (before : List (Deed M))
      (left : LeftLate start closer (earlier ++ .run closer :: after) before)

/-- A call that does not find the engine closed closes it. -/
theorem shut_of_unclosed {w : Site M} {closer : TaskId}
    (begins : stages w closer = some (.inl (.begin .close)))
    (unclosed : w.state.state ≠ .closed) : milestones w (.run closer) = [(closer, .shut)] := by
  unfold milestones
  rw [actor_of_run (ready_of_begin begins) begins]
  simp only [EngineCall.Phase.achieves, if_neg unclosed, List.map_cons, List.map_nil]

/-- When the call that has closed an engine has returned, only listeners of those are linked who
were late, and nobody else ever links one. A call that finds the engine closed does not unlink
anybody. -/
theorem emptied_by_close (codec : RequestCodec M) (settings : EngineSettings) (link : ScriptedLink)
    {earlier after : List (Deed M)} {closer : TaskId}
    (obeys : (World.ofState (create codec settings link)).Obeys machine Lawful
      (earlier ++ .run closer :: after))
    (begins : stages ((World.ofState (create codec settings link)).applyAll machine earlier)
      closer = some (.inl (.begin .close)))
    {answer : EngineCall.Answer}
    (returns : (closer, answer) ∈ (World.ofState (create codec settings link)).history machine
      returned (earlier ++ .run closer :: after)) :
    Closing (World.ofState (create codec settings link)) closer earlier after answer := by
  have numbered := (gone_of_history (World.numbered_ofState _) (World.obeys_append.mp obeys).1).1
  by_cases closed : ((World.ofState (create codec settings link)).applyAll machine
    earlier).state.state = .closed
  · obtain ⟨answered, unchanged⟩ := returned_at_once numbered begins (if_pos closed)
    have succeeds : answer = .done (.ok ()) := by
      refine eq_of_returned (World.numbered_ofState _) obeys closer _ _ returns ?_
      rw [World.history_append, World.history, answered]
      exact List.mem_append_right _ (List.mem_append_left _ (List.mem_singleton_self _))
    exact .again closed (succeeds ▸ answered) succeeds unchanged
  · have shut : (closer, .shut) ∈ (World.ofState (create codec settings link)).history machine
        milestones (earlier ++ .run closer :: after) := by
      rw [World.history_append, World.history, shut_of_unclosed begins closed]
      exact List.mem_append_right _ (List.mem_append_left _ (List.mem_singleton_self _))
    obtain ⟨before, left⟩ := leftLate_of_returned codec settings link obeys shut returns
    exact .now closed before left

/-- An engine that nobody has opened. -/
def unopened : Site RawMessage := World.ofState (create RawMessage.codec {} {})

/-- One call has added a listener, another one has been let in to add a second, and a third one is
to close the engine. -/
def letIn : List (Deed RawMessage) :=
  [.start (.call (.begin (.addListener ⟨7⟩))), .run 0, .run 0, .run 0,
    .start (.call (.begin (.addListener ⟨8⟩))), .run 1, .start (.call (.begin .close))]

/-- The third call is given up as soon as it has closed the engine, and a fourth one is to close it
again. -/
def givenUp : List (Deed RawMessage) :=
  letIn ++ [.run 2, .abandon 2, .start (.call (.begin .close))]

/-- The third call returns before the second one goes on. -/
def overtaken : List (Deed RawMessage) :=
  [.run 2, .run 2, .run 2, .run 2, .run 2, .run 1, .run 1]

/-- Somebody waits for ever at a closed engine: the receiver of the second listener, which has come
too late, and that of the first one, if the call that should have unlinked it has been given up. -/
theorem emptied_by_close_unless_overtaken :
    (unopened.Obeys machine Lawful (letIn ++ .run 2 :: overtaken) ∧
      unopened.history machine returned (letIn ++ .run 2 :: overtaken) =
        [(0, .added (.ok 0)), (2, .done (.ok ())), (1, .added (.ok 1))] ∧
      Closing unopened 2 letIn overtaken (.done (.ok ())) ∧
      (unopened.applyAll machine (letIn ++ .run 2 :: overtaken)).state.registry.entries =
        [(⟨8⟩, 1)] ∧
      ∀ clock, (Receiving.unlimited 1).poll clock
        (unopened.applyAll machine (letIn ++ .run 2 :: overtaken)).state.registry = none) ∧
    unopened.Obeys machine Lawful (givenUp ++ [.run 3]) ∧
      unopened.history machine returned (givenUp ++ [.run 3]) =
        [(0, .added (.ok 0)), (3, .done (.ok ()))] ∧
      Closing unopened 3 givenUp [] (.done (.ok ())) ∧
      (unopened.applyAll machine (givenUp ++ [.run 3])).state.registry.entries = [(⟨7⟩, 0)] ∧
      ∀ clock, (Receiving.unlimited 0).poll clock
        (unopened.applyAll machine (givenUp ++ [.run 3])).state.registry = none := by
  have obeys : unopened.Obeys machine Lawful (letIn ++ .run 2 :: overtaken) :=
    ⟨trivial, trivial, trivial, trivial, trivial, trivial, trivial, trivial, trivial, trivial,
      trivial, trivial, trivial, trivial, trivial, trivial⟩
  have obeys' : unopened.Obeys machine Lawful (givenUp ++ [.run 3]) :=
    ⟨trivial, trivial, trivial, trivial, trivial, trivial, trivial, trivial, trivial, trivial,
      trivial, trivial⟩
  refine ⟨⟨obeys, rfl, ?_, rfl, fun _ => rfl⟩, obeys', rfl, ?_, rfl, fun _ => rfl⟩
  · exact emptied_by_close RawMessage.codec {} {} obeys rfl
      (List.mem_cons_of_mem _ (List.mem_cons_self ..))
  · exact emptied_by_close RawMessage.codec {} {} obeys' rfl
      (List.mem_cons_of_mem _ (List.mem_cons_self ..))

end Engine

end HardwareSigner
