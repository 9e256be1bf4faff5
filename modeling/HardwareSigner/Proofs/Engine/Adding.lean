import HardwareSigner.Proofs.Engine.Parts
import HardwareSigner.Proofs.Engine.Returning
import HardwareSigner.Proofs.Listener.Line

/-!
# Who links listeners

Listeners are linked by the calls that add them and by nobody else, one by each call, with its last
step. Once an engine is closed, no call is let in that would add one more.

> `Engine.linked_apply`: a listener that is linked has been linked before, or has just been added.
> `Engine.let_in`: a call that is about to add a listener has been let in by an engine that was not
> closed.
-/

namespace HardwareSigner

namespace Operation.Phase

variable {M : Type} {task : TaskId} {phase : Phase M} {next : Phase M ⊕ Answer}
  {r after : Registry M} {entry : ListenerId × MailboxId}

theorem entries_cancelAll (r : Registry M) : r.cancelAll.entries = r.entries :=
  List.foldlRecOn (motive := fun (after : Registry M) => after.entries = r.entries) r.tokens _ rfl
    fun _ same _ _ => same

theorem entries_offerAll (event : Event M) (r : Registry M) :
    (r.offerAll event).2.entries = r.entries :=
  List.foldlRecOn (motive := fun (after : Registry M) => after.entries = r.entries) _ _ rfl
    fun _ same _ _ => same

theorem entries_release (phase : Phase M) (task : TaskId) (r : Registry M) :
    (phase.release task r).entries = r.entries := by
  cases phase <;> rfl

theorem WrapsUp.entries {delivered : Nat} {stale : Bool}
    (wraps : WrapsUp task delivered r stale next after) : after.entries = r.entries := by
  cases wraps <;> rfl

theorem Faces.entries {event : Event M} {box : MailboxId} {rest : List MailboxId} {delivered : Nat}
    {stale : Bool} (faces : Faces task event box rest delivered stale r phase after) :
    after.entries = r.entries := by
  cases faces <;> rfl

/-- A listener that is linked after a step has been linked before, or is added with it. -/
theorem Steps.linked (steps : Steps task r phase next after) (there : entry ∈ after.entries) :
    entry ∈ r.entries ∨ phase = .adding entry.1 ∧ next = .inr (.added (.ok entry.2)) := by
  have unlinked : entry ∈ r.unlinkDead.entries → entry ∈ r.entries :=
    fun there => (List.mem_filter.mp there).1
  cases steps with
  | cancelsAll => exact Or.inl (entries_cancelAll r ▸ there)
  | links id =>
    have there : entry ∈ (r.link id).2.entries := there
    rcases Registry.link_cases r id with refused | ⟨after, links, -, entries, -⟩
    · rw [refused] at there
      exact Or.inl (unlinked there)
    · rw [links] at there ⊢
      have there : entry ∈ after.entries := there
      rw [entries, List.mem_append, List.mem_singleton] at there
      rcases there with before | rfl
      · exact Or.inl (unlinked before)
      · exact Or.inr ⟨rfl, rfl⟩
  | removes => exact Or.inl (unlinked there)
  | prunes delivered => exact Or.inl (unlinked there)
  | wrapsUp wraps => exact Or.inl (wraps.entries ▸ there)
  | passes faces dead => exact Or.inl (faces.entries ▸ there)
  | quits faces shut => exact Or.inl (faces.entries ▸ there)
  | gives faces live unshut room => exact Or.inl (faces.entries ▸ there)
  | tries wraps => exact Or.inl (entries_offerAll _ r ▸ wraps.entries ▸ there)
  | clears => cases there
  | _ => exact Or.inl there

/-- Nobody has a listener to link who has not begun with it. -/
theorem Steps.adds {later : Phase M} (steps : Steps task r phase (.inl later) after)
    (adds : later.adds = true) : phase.adds = true := by
  obtain ⟨id, rfl | rfl⟩ := Registry.eq_of_adds adds
  · exact absurd steps Steps.not_begin
  · rw [steps.of_adding]
    rfl

end Operation.Phase

namespace Registry

variable {M : Type}

/-- Nobody is linked from outside. -/
theorem linked_act {r : Registry M} {act : Act} {entry : ListenerId × MailboxId}
    (there : entry ∈ (r.act act).entries) : entry ∈ r.entries := by
  obtain ⟨mailboxes, shut, same, -⟩ := r.act_eq act
  rwa [same] at there

end Registry

namespace EngineCall.Phase

variable {M : Type}

/-- No call returns a listener at its beginning. -/
theorem not_added_of_start (task : TaskId) (clock : Nat) (call : EngineCall M) (e : Engine M)
    (box : MailboxId) :
    (start task clock call e).next ≠ .inr (.added (.ok box)) := by
  have unsent : ∀ block, (startSend task block e).next ≠ .inr (.added (.ok box)) := by
    intro block
    unfold startSend
    split
    · exact fun same => by cases same
    · split <;> exact fun same => by cases same
  cases call with
  | send message => exact unsent _
  | sendRaw type payload => exact unsent _
  | removeListener id => exact fun same => by cases same
  | countListeners => exact fun same => by cases same
  | addListener id =>
    simp only [start]
    split <;> exact fun same => by cases same
  | connect =>
    simp only [start]
    split <;> exact fun same => by cases same
  | close =>
    simp only [start]
    split
    · exact fun same => by cases same
    · split <;> exact fun same => by cases same

/-- A call is let in to add a listener only while the engine is not closed. -/
theorem begin_of_let_in {phase : Phase M} {task : TaskId} {clock : Nat} {e : Engine M}
    {id : ListenerId}
    (goesOn : (phase.step task clock e).next = .inl (.listeners (.begin (.add id)))) :
    phase = .begin (.addListener id) ∧ e.state ≠ .closed := by
  have refused : ∀ id, phase = .begin (.addListener id) → e.state ≠ .closed := by
    rintro id rfl closed
    simp only [step, start, closed, if_true] at goesOn
    cases goesOn
  have steps := phase.steps task clock e
  generalize phase.step task clock e = step at steps goesOn
  cases steps with
  | @listens call operation asks =>
    cases goesOn
    cases call with
    | addListener id =>
      cases asks
      exact ⟨rfl, refused id rfl⟩
    | _ => cases asks
  | registers found =>
    have steps := found.steps task e.registry
    generalize (found.step task e.registry).1 = turn at steps goesOn
    cases turn with
    | inl later =>
      cases goesOn
      exact absurd steps Operation.Phase.Steps.not_begin
    | inr answer => cases goesOn
  | _ => cases goesOn

end EngineCall.Phase

namespace Engine

variable {M : Type}

/-- Only a call that is about the listeners has one to link. -/
def Plain (stages : Work (Stage M)) : Prop :=
  ∀ task stage phase, stages task = some stage → stage.operation? = some phase →
    phase.adds = true → stage = .inl (.listeners phase)

section

variable {w : Site M} {deed : Deed M}

theorem plain_onward {intake : Intake} {e e' : Engine M} {events : List (Event M)}
    {course : Course} {next : Reading M} {phase : Operation.Phase M}
    (onward : Reading.Onward intake e events course (some next) e')
    (works : Stage.operation? (.inr next) = some phase) : phase.adds = false := by
  cases onward with
  | dispatches event rest course =>
    cases works
    rfl
  | fails =>
    cases works
    rfl
  | _ => cases works

/-- Whoever is not about the listeners does not come to have one to link. -/
theorem Plain.step (plain : Plain (stages w)) {task : TaskId} {stage : Stage M}
    {found later : Operation.Phase M} {after : Registry M} (there : stages w task = some stage)
    (works : stage.operation? = some found) (other : stage ≠ .inl (.listeners found))
    (turn : found.step task w.state.registry = (.inl later, after)) : later.adds = false := by
  rw [Bool.eq_false_iff]
  intro adds
  have steps := found.steps task w.state.registry
  rw [turn] at steps
  exact other (plain task stage found there works (steps.adds adds))

theorem plain_apply (plain : Plain (stages w)) (numbered : w.Numbered) (lawful : Lawful w deed) :
    Plain (stages (w.apply machine deed)) := by
  intro task stage phase there works adds
  cases (effect numbered lawful).comes there with
  | stays stage before => exact plain task stage phase before works adds
  | begins call new => cases works
  | starts caller phase new before => cases works
  | calls caller next before goesOn =>
    have steps := caller.steps task w.clock w.state
    generalize caller.step task w.clock w.state = step at steps goesOn
    cases steps with
    | listens asks =>
      cases goesOn
      cases works
      rfl
    | registers found =>
      generalize (found.step task w.state.registry).1 = turn at goesOn
      cases turn with
      | inl later =>
        cases goesOn
        cases works
        rfl
      | inr answer => cases goesOn
    | announces turn | tells outcome turn | clears outcome turn =>
      cases goesOn
      cases works
      cases adds.symm.trans (plain.step before rfl (fun same => nomatch same) turn)
    | installs | parts | unlinks =>
      cases goesOn
      cases works
      cases adds
    | answers | fails | retracts | refuses | connects | denies | writesOut | closes =>
      cases goesOn
    | _ =>
      cases goesOn
      cases works
  | reads reading next before unaborted receives goesOn =>
    have steps := reading.steps unaborted task w.clock
    generalize reading.step task w.clock w.state = turn at steps goesOn
    obtain ⟨next?, e'⟩ := turn
    cases goesOn
    cases steps with
    | hears intake unshut receives onward =>
      rw [plain_onward onward works] at adds
      cases adds
    | proceeds turn onward =>
      rw [plain_onward onward works] at adds
      cases adds
    | dispatches rest course intake turn | fails turn =>
      cases works
      cases adds.symm.trans (plain.step before rfl (fun same => nomatch same) turn)
    | _ => cases works

/-- Nobody else links a listener. -/
theorem Plain.linked (plain : Plain (stages w)) {task : TaskId} {stage : Stage M}
    {found : Operation.Phase M} {next : Operation.Phase M ⊕ Operation.Answer} {after : Registry M}
    {entry : ListenerId × MailboxId} (there : stages w task = some stage)
    (works : stage.operation? = some found) (other : stage ≠ .inl (.listeners found))
    (turn : found.step task w.state.registry = (next, after)) (linked : entry ∈ after.entries) :
    entry ∈ w.state.registry.entries := by
  have steps := found.steps task w.state.registry
  rw [turn] at steps
  refine (steps.linked linked).resolve_right fun ⟨same, _⟩ => ?_
  exact other (plain task stage found there works (by rw [same]; rfl))

/-! ## What the calls add -/

theorem linked_call (plain : Plain (stages w)) {task : TaskId} {phase : EngineCall.Phase M}
    (acts : actor w deed = some (task, .inl phase)) {entry : ListenerId × MailboxId}
    (linked : entry ∈ (phase.step task w.clock w.state).engine.registry.entries) :
    entry ∈ w.state.registry.entries ∨
      operations (stages w) task = some (.adding entry.1) ∧
        (task, .added (.ok entry.2)) ∈ returned w deed := by
  obtain ⟨-, -, there⟩ := run_of_actor acts
  have answers : ∀ answer, (phase.step task w.clock w.state).next = .inr answer →
      returned w deed = [(task, answer)] := fun _ => returned_of_actor acts
  have steps := phase.steps task w.clock w.state
  generalize phase.step task w.clock w.state = step at steps linked answers
  cases steps with
  | registers found =>
    refine ((found.steps task w.state.registry).linked linked).imp_right ?_
    rintro ⟨rfl, finished⟩
    refine ⟨operations_of_some there, ?_⟩
    rw [answers (.added (.ok entry.2)) (by rw [finished]; rfl)]
    exact List.mem_singleton_self _
  | retracts | parts =>
    exact Or.inl (registry_closeWriter w.state ▸ linked)
  | announces turn | refuses turn | connects turn | tells outcome turn | unlinks outcome turn
  | clears outcome turn | closes outcome turn =>
    exact Or.inl (plain.linked there rfl (fun same => nomatch same) turn linked)
  | _ => exact Or.inl linked

theorem linked_reader (plain : Plain (stages w)) {task : TaskId} {reading : Reading M}
    (there : stages w task = some (.inr reading)) {entry : ListenerId × MailboxId}
    (linked : entry ∈ (reading.step task w.clock w.state).2.registry.entries) :
    entry ∈ w.state.registry.entries := by
  rw [Reading.registry_step] at linked
  cases works : Stage.operation? (.inr reading) with
  | none =>
    rw [works] at linked
    exact linked
  | some found =>
    simp only [works, Option.map_some, Option.getD_some] at linked
    split at linked
    · exact Operation.Phase.entries_release found task _ ▸ linked
    · exact plain.linked there works nofun rfl linked

theorem entries_release (task : TaskId) (stage : Stage M) (e : Engine M) :
    (stage.release task e).registry.entries = e.registry.entries := by
  rw [Stage.registry_release]
  cases stage.operation? with
  | none => rfl
  | some phase => exact Operation.Phase.entries_release phase task e.registry

/-- A listener that is linked has been linked before, or a call has just added it. -/
theorem linked_apply (plain : Plain (stages w)) (numbered : w.Numbered)
    {entry : ListenerId × MailboxId}
    (linked : entry ∈ (w.apply machine deed).state.registry.entries) :
    entry ∈ w.state.registry.entries ∨
      ∃ task, operations (stages w) task = some (.adding entry.1) ∧
        (task, .added (.ok entry.2)) ∈ returned w deed := by
  cases deed with
  | start found => exact Or.inl linked
  | wait ms => exact Or.inl linked
  | outside act =>
    cases act with
    | listeners act => exact Or.inl (Registry.linked_act linked)
    | vanish => cases linked
    | _ => exact Or.inl linked
  | abandon task =>
    refine Or.inl ?_
    have linked : entry ∈ (w.abandon machine task).state.registry.entries := linked
    cases at_work : w.phase? task with
    | none => rwa [World.abandon_of_none at_work] at linked
    | some found =>
      rw [World.abandon_of_phase at_work] at linked
      cases found with
      | call phase => exact entries_release task (.inl phase) w.state ▸ linked
      | exchange phase box ms => exact entries_release task (.inl phase) w.state ▸ linked
      | read reading => exact entries_release task (.inr reading) w.state ▸ linked
      | receive waiting => exact linked
      | rest latest => exact linked
  | run task =>
    cases acts : actor w (.run task) with
    | none =>
      refine Or.inl ?_
      rcases (apply_of_nobody acts).2 with same | ⟨box, same⟩
      · rwa [same] at linked
      · rw [same] at linked
        exact Registry.linked_act linked
    | some found =>
      obtain ⟨other, phase | reading⟩ := found
      · rw [(apply_of_call numbered acts).2] at linked
        exact (linked_call plain acts linked).imp_right fun added => ⟨other, added⟩
      · rw [(apply_of_reader acts).2] at linked
        exact Or.inl (linked_reader plain (run_of_actor acts).2.2 linked)

/-- A call that adds a listener links a new mailbox with its last step. -/
theorem links_of_added {task : TaskId} {box : MailboxId}
    (returns : (task, .added (.ok box)) ∈ returned w deed) (numbered : w.Numbered) :
    ∃ id after, operations (stages w) task = some (.adding id) ∧
      w.state.registry.link id = (.ok box, after) ∧
      (w.apply machine deed).state.registry = after.releases task := by
  obtain ⟨rfl, ready, phase, there, finished⟩ := run_of_returned returns
  rw [(apply_of_call numbered (actor_of_run ready there)).2]
  have begun : ∀ call, phase ≠ .begin call := by
    rintro call rfl
    exact EngineCall.Phase.not_added_of_start task w.clock call w.state box finished
  have steps := phase.steps task w.clock w.state
  generalize phase.step task w.clock w.state = step at steps finished
  cases steps with
  | answers call answer unconnected => exact absurd rfl (begun call)
  | registers found =>
    have added : (found.step task w.state.registry).1 = .inr (.added (.ok box)) := by
      have turn : (found.step task w.state.registry).1.map EngineCall.Phase.listeners
          EngineCall.Phase.ofRegistry = .inr (.added (.ok box)) := finished
      generalize (found.step task w.state.registry).1 = next at turn
      cases next with
      | inl later => cases turn
      | inr answer =>
        cases answer with
        | added outcome =>
          cases turn
          rfl
        | _ => cases turn
    obtain ⟨id, rfl, linked⟩ := (found.steps task w.state.registry).adding_of_added added
    exact ⟨id, _, operations_of_some there, linked, rfl⟩
  | _ => cases finished

/-- A call that adds a listener gives it a new mailbox, and nothing is in it. -/
theorem added_of_returned {task : TaskId} {box : MailboxId}
    (returns : (task, .added (.ok box)) ∈ returned w deed) (numbered : w.Numbered) :
    (∃ id, operations (stages w) task = some (.adding id)) ∧
      box = w.state.registry.mailboxes.length ∧
      box < (w.apply machine deed).state.registry.mailboxes.length ∧
      (w.apply machine deed).state.registry.accepted box = [] := by
  obtain ⟨id, after, adding, links, state⟩ := links_of_added returns numbered
  rw [state]
  rcases Registry.link_cases w.state.registry id with refused | ⟨found, linked, boxes, -⟩
  · cases refused.symm.trans links
  · cases linked.symm.trans links
    refine ⟨⟨id, adding⟩, rfl, ?_, ?_⟩
    · show _ < after.mailboxes.length
      rw [boxes, List.length_append]
      exact Nat.lt_succ_self _
    · show ((after.mailboxes[w.state.registry.mailboxes.length]?).map Mailbox.accepted).getD [] = []
      rw [boxes, List.getElem?_append_right (Nat.le_refl _), Nat.sub_self]
      rfl

/-! ## Who is let in -/

/-- An engine that is closed stays so. -/
theorem closed_effect {took : List (TaskId × Event M)} {tried : List (Event M)}
    {heard : List (Except Failure Received)} {stages' : Work (Stage M)} {e' : Engine M}
    (effect : Effect w took tried heard stages' e') (closed : w.state.state = .closed) :
    e'.state = .closed := by
  cases effect with
  | calls task phase there fresh =>
    have steps := phase.steps task w.clock w.state
    generalize phase.step task w.clock w.state = step at steps
    cases steps with
    | tries disconnected => cases closed.symm.trans disconnected
    | installs connecting => cases closed.symm.trans connecting
    | detaches | joins => rfl
    | fails =>
      show (if w.state.state = .connecting then .disconnected else w.state.state) = _
      rw [closed]
      rfl
    | retracts | parts => exact (state_closeWriter w.state).trans closed
    | _ => exact closed
  | reads task reading there unaborted =>
    have same := callsOnly_custody.step task w.clock reading w.state
    exact (congrArg Custody.state same).trans closed
  | leaves task stage there => exact (Stage.state_release task stage w.state).trans closed
  | acts act lawful => cases act <;> exact closed
  | _ => exact closed

theorem Plain.entering (plain : Plain (stages w)) {task : TaskId} {id : ListenerId}
    (begun : operations (stages w) task = some (.begin (.add id))) :
    stages w task = some (.inl (.listeners (.begin (.add id)))) := by
  obtain ⟨stage, there, works⟩ := stage_of_operations begun
  rw [there, plain task stage _ there works rfl]

/-- Whoever has been let in to add a listener was let in before, or has just been let in by an
engine that is not closed. -/
theorem let_in (plain : Plain (stages w)) (numbered : w.Numbered) (lawful : Lawful w deed)
    {task : TaskId} {id : ListenerId}
    (begun : operations (stages (w.apply machine deed)) task = some (.begin (.add id))) :
    operations (stages w) task = some (.begin (.add id)) ∨
      actor w deed = some (task, .inl (.begin (.addListener id))) ∧ w.state.state ≠ .closed := by
  have there := (plain_apply plain numbered lawful).entering begun
  have after := there
  generalize now : (Sum.inl (.listeners (.begin (.add id))) : Stage M) = stage at there
  cases (effect numbered lawful).comes there with
  | stays stage before =>
    subst now
    exact Or.inl (operations_of_some before)
  | begins call new => cases now
  | starts caller phase new before => cases now
  | reads reading next before unaborted receives goesOn => cases now
  | calls phase next before goesOn =>
    cases now
    obtain ⟨rfl, unclosed⟩ := EngineCall.Phase.begin_of_let_in goesOn
    -- A call that does not act stays at its beginning.
    refine Or.inr ⟨Classical.byContradiction fun other => ?_, unclosed⟩
    have idle : ∀ stage, actor w deed ≠ some (task, stage) := by
      intro stage acts
      cases before.symm.trans (run_of_actor acts).2.2
      exact other acts
    cases before.symm.trans (stays_of_idle numbered (lt_next_of_stage numbered before) idle after)

/-- A closed engine lets nobody in. -/
theorem let_in_before (plain : Plain (stages w)) (numbered : w.Numbered) (lawful : Lawful w deed)
    (closed : w.state.state = .closed) {task : TaskId} {id : ListenerId}
    (begun : operations (stages (w.apply machine deed)) task = some (.begin (.add id))) :
    operations (stages w) task = some (.begin (.add id)) :=
  (let_in plain numbered lawful begun).resolve_right fun now => now.2 closed

end

end Engine

end HardwareSigner
