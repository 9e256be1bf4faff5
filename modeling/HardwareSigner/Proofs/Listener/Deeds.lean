import HardwareSigner.Proofs.Listener.Delivery
import HardwareSigner.Script.Registry

/-!
# Tasks at work on a registry

A run of a registry is a list of actions, of which `RegistryTask.InTurn` asks that one dispatch is
begun after the other. What can be seen of it are three histories: the dispatches that are begun
(`RegistryTask.begun`), those that take the lock (`RegistryTask.takes`), and what a receiver is
handed (`RegistryTask.hands`).

> `RegistryTask.effect`: what an action makes of the operations at work and of the registry.
> `RegistryTask.closed_effect`: a mailbox keeps what it has been given, and is given nothing more
> once its listener is gone or the registry has been shut down.
> `RegistryTask.taken_apply`: what has been taken out of a mailbox is what its receiver was handed.
-/

namespace HardwareSigner

namespace RegistryTask

open Operation (Phase)
open Registry (Sound Served)

variable {M : Type}

/-- Tasks at work on a registry. -/
abbrev Site (M : Type) := World (Registry M) (RegistryTask M) (Answer M)

abbrev Deed (M : Type) := Action Registry.Act (RegistryTask M)

def operation? : RegistryTask M → Option (Phase M)
  | .operation phase => some phase
  | .receive _ => none

/-- How far operations have got. -/
def operations (w : Site M) : Work (Phase M) := fun task => (w.phase? task).bind operation?

/-- Whether a task has something to dispatch. -/
def offers (task : RegistryTask M) : Bool := ((operation? task).map Phase.offers).getD false

/-- What may be done where dispatches follow one after the other: one is begun only when no other
still has something to dispatch, and is not given up before that. Nobody clears the registry or
dispatches without waiting. Everything else may happen at any time. -/
def InTurn (w : Site M) : Deed M → Prop
  | .start (.operation (.begin (.dispatch _))) => (w.tasks.any fun entry => offers entry.2) = false
  | .start (.operation (.begin (.tryDispatch _))) => False
  | .start (.operation (.begin .clear)) => False
  | .start (.operation (.begin _)) => True
  | .start (.operation _) => False
  | .abandon task => ((w.phase? task).map offers).getD false = false
  | _ => True

/-- The dispatch that is begun. -/
def begun (w : Site M) : Deed M → List (TaskId × Event M)
  | .start (.operation (.begin (.dispatch event))) => [(w.next, event)]
  | _ => []

/-- The dispatch that takes the lock. -/
def takes (w : Site M) : Deed M → List (TaskId × Event M)
  | .run task =>
    if w.ready machine task then
      match operations w task with
      | some phase => phase.takes.map fun event => (task, event)
      | none => []
    else []
  | _ => []

/-- What the receiver of a mailbox is handed. -/
def hands (box : MailboxId) (w : Site M) : Deed M → List (Event M)
  | .outside (.take other) =>
    if other = box then ((w.state.receive? other).map Prod.fst).toList else []
  | .outside (.drain other) => if other = box then (w.state.drain other).1 else []
  | .run task =>
    match w.phase? task with
    | some (.receive waiting) =>
      match waiting.poll w.clock w.state with
      | some (.arrived event, _) => if waiting.box = box then [event] else []
      | _ => []
    | _ => []
  | _ => []

/-! ## What an action does to the operations and to the registry -/

/-- What an action makes of the operations and of the registry, with the dispatches that it begins
and those that take the lock. -/
inductive Effect (w : Site M) :
    List (TaskId × Event M) → List (TaskId × Event M) → Work (Phase M) → Registry M → Prop
  | same : Effect w [] [] (operations w) w.state
  | begins (operation : Operation M) (fresh : operations w w.next = none)
      (alone : (Phase.begin operation).offers = true → ∀ task phase,
        operations w task = some phase → phase.offers = false)
      (early : (Phase.begin operation).late = false) :
      Effect w ((Phase.begin operation).awaits.map fun event => (w.next, event)) []
        (Work.set (operations w) w.next (some (.begin operation))) w.state
  | steps (task : TaskId) (phase : Phase M) (there : operations w task = some phase) :
      Effect w [] (phase.takes.map fun event => (task, event))
        (Work.set (operations w) task (phase.step task w.state).1.getLeft?)
        (phase.step task w.state).2
  | leaves (task : TaskId) (phase : Phase M) (there : operations w task = some phase)
      (idle : phase.offers = false) :
      Effect w [] [] (Work.set (operations w) task none) (phase.release task w.state)
  | acts (act : Registry.Act) : Effect w [] [] (operations w) (w.state.act act)

theorem operations_of_phase? {w after : Site M} {task : TaskId} {phase? : Option (RegistryTask M)}
    (changed : after.phase? = Work.set w.phase? task phase?) :
    operations after = Work.set (operations w) task (phase?.bind operation?) := by
  funext other
  show (after.phase? other).bind operation? = _
  rw [changed]
  by_cases here : other = task
  · rw [here, Work.set_self, Work.set_self]
  · rw [Work.set_of_ne _ _ _ here, Work.set_of_ne _ _ _ here]
    rfl

theorem offers_of_operations {w : Site M}
    (nobody : (w.tasks.any fun entry => offers entry.2) = false)
    {task : TaskId} {phase : Phase M} (there : operations w task = some phase) :
    phase.offers = false := by
  obtain ⟨found, at_work, same⟩ := Option.bind_eq_some_iff.mp there
  have member := Lock.mem_of_lookup at_work
  rw [List.any_eq_false] at nobody
  have quiet := nobody _ member
  unfold offers at quiet
  rw [same] at quiet
  exact Bool.eq_false_iff.mpr quiet

theorem operation?_map_step (turn : Phase M ⊕ Operation.Answer) :
    (turn.map RegistryTask.operation Answer.operation : RegistryTask M ⊕ Answer M).getLeft?.bind
      operation? = turn.getLeft? := by
  cases turn with
  | inl phase => rfl
  | inr answer => rfl

theorem step_receive {waiting : Receiving} {clock : Nat} {r after : Registry M}
    {receipt : Receipt M} (polled : waiting.poll clock r = some (receipt, after)) (task : TaskId) :
    machine.step task clock (.receive waiting) r =
      { next := .inr (.receipt receipt), state := after } := by
  simp only [machine, polled]

theorem exists_of_ready {waiting : Receiving} {task : TaskId} {clock : Nat} {r : Registry M}
    (ready : machine.ready task clock (.receive waiting) r = true) :
    ∃ receipt after, waiting.poll clock r = some (receipt, after) := by
  have some : (waiting.poll clock r).isSome = true := ready
  obtain ⟨⟨receipt, after⟩, polled⟩ := Option.isSome_iff_exists.mp some
  exact ⟨receipt, after, polled⟩

theorem operations_of_some {w : Site M} {task : TaskId} {found : RegistryTask M}
    (at_work : w.phase? task = some found) : operations w task = operation? found := by
  unfold operations
  rw [at_work]
  rfl

theorem operations_of_none {w : Site M} {task : TaskId} (gone : w.phase? task = none) :
    operations w task = none := by
  unfold operations
  rw [gone]
  rfl

theorem effect_run {w : Site M} (task : TaskId) :
    Effect w [] (takes w (.run task)) (operations (w.run machine task))
      (w.run machine task).state := by
  cases ready : w.ready machine task with
  | false =>
    rw [World.run_of_not_ready ready]
    have untold : takes w (.run task) = [] := if_neg (Bool.eq_false_iff.mp ready)
    rw [untold]
    exact .same
  | true =>
    obtain ⟨found, at_work, can⟩ := World.exists_phase_of_ready ready
    have told : takes w (.run task) = match operations w task with
        | some phase => phase.takes.map fun event => (task, event)
        | none => [] := if_pos ready
    have there := operations_of_some at_work
    rw [told, World.state_run at_work can, there]
    cases found with
    | operation phase =>
      have next := operations_of_phase? (World.phase?_run_of_spawned_none at_work can rfl)
      rw [next]
      show Effect w [] _
        (Work.set _ task ((((phase.step task w.state).1.map _ _).getLeft?).bind _)) _
      rw [operation?_map_step]
      exact .steps task phase there
    | receive waiting =>
      obtain ⟨receipt, after, polled⟩ := exists_of_ready can
      have turn := step_receive polled task
      have next := operations_of_phase?
        (World.phase?_run_of_spawned_none at_work can (by rw [turn]))
      rw [next, turn]
      -- A receiver is no operation. It takes an event or leaves everything as it is.
      have idle : operations w task = none := there
      show Effect w [] [] (Work.set (operations w) task none) after
      rw [Work.set_same idle]
      rcases Receiving.poll_cases polled with ⟨event, received, -⟩ | ⟨same, -⟩
      · have takes : after = w.state.act (.take waiting.box) := by
          show after = ((w.state.receive? waiting.box).map Prod.snd).getD w.state
          rw [received]
          rfl
        rw [takes]
        exact .acts (.take waiting.box)
      · rw [same]
        exact .same

theorem effect_begin {w : Site M} (numbered : w.Numbered) {operation : Operation M}
    (inTurn : InTurn w (.start (.operation (.begin operation)))) :
    Effect w (begun w (.start (.operation (.begin operation)))) []
      (Work.set (operations w) w.next (some (.begin operation))) w.state := by
  have fresh := operations_of_none numbered.phase?_next
  cases operation with
  | dispatch event =>
    exact .begins (.dispatch event) fresh (fun _ task phase => offers_of_operations inTurn) rfl
  | tryDispatch event => exact inTurn.elim
  | clear => exact inTurn.elim
  | add id => exact .begins (.add id) fresh (fun offers => by cases offers) rfl
  | remove id => exact .begins (.remove id) fresh (fun offers => by cases offers) rfl
  | contains id => exact .begins (.contains id) fresh (fun offers => by cases offers) rfl
  | count => exact .begins .count fresh (fun offers => by cases offers) rfl

/-- What an action does to the operations and to the registry. -/
theorem effect {w : Site M} (numbered : w.Numbered) {deed : Deed M} (inTurn : InTurn w deed) :
    Effect w (begun w deed) (takes w deed) (operations (w.apply machine deed))
      (w.apply machine deed).state := by
  cases deed with
  | start task =>
    have next := operations_of_phase? (World.phase?_start numbered task)
    cases task with
    | receive waiting =>
      show Effect w [] [] (operations (w.start (.receive waiting))) w.state
      rw [next]
      show Effect w [] [] (Work.set (operations w) w.next none) w.state
      rw [Work.set_same (operations_of_none numbered.phase?_next)]
      exact .same
    | operation phase =>
      show Effect w (begun w (.start (.operation phase))) []
        (operations (w.start (.operation phase)))
        w.state
      rw [next]
      cases phase with
      | begin operation => exact effect_begin numbered inTurn
      | _ => exact inTurn.elim
  | run task => exact effect_run task
  | abandon task =>
    show Effect w [] [] (operations (w.abandon machine task)) (w.abandon machine task).state
    have next := operations_of_phase? (World.phase?_abandon machine w task)
    rw [next]
    show Effect w [] [] (Work.set (operations w) task none) _
    cases at_work : w.phase? task with
    | none =>
      rw [World.abandon_of_none at_work, Work.set_same (operations_of_none at_work)]
      exact .same
    | some found =>
      rw [World.abandon_of_phase at_work]
      have there := operations_of_some at_work
      cases found with
      | operation phase =>
        have idle : ((w.phase? task).map offers).getD false = false := inTurn
        rw [at_work] at idle
        exact .leaves task phase there idle
      | receive waiting =>
        have idle : operations w task = none := there
        rw [Work.set_same idle]
        exact .same
  | outside act => exact .acts act
  | wait ms => exact .same

/-! ## What every action keeps -/

/-- What holds of every world in a run of dispatches one after the other. -/
structure Kept (w : Site M) : Prop where
  numbered : w.Numbered
  sound : Sound (operations w) w.state
  early : ∀ task phase, operations w task = some phase → phase.late = false

theorem kept_empty (capacity : Nat) : Kept (World.ofState (Registry.empty capacity) : Site M) where
  numbered := World.numbered_ofState _
  sound := Sound.empty capacity
  early _ _ there := by cases there

section

variable {w : Site M} {began took : List (TaskId × Event M)} {work : Work (Phase M)}
  {r : Registry M}

theorem sound_effect (sound : Sound (operations w) w.state) (effect : Effect w began took work r) :
    Sound work r := by
  cases effect with
  | same => exact sound
  | begins operation fresh alone early =>
    refine sound.begin (fun offers other phase _ there => alone offers other phase there) ?_
    intro late
    rw [early] at late
    cases late
  | steps task phase there => exact sound.step there
  | leaves task phase there idle => exact sound.leave (Phase.keeps_release phase task _) task
  | acts act => exact sound.act act

theorem early_effect (kept : Kept w) (effect : Effect w began took work r) {task : TaskId}
    {phase : Phase M} (there : work task = some phase) : phase.late = false := by
  cases effect with
  | same => exact kept.early task phase there
  | begins operation fresh alone early =>
    rcases Work.set_cases _ _ _ there with ⟨-, ⟨⟩⟩ | ⟨-, before⟩
    · exact early
    · exact kept.early task phase before
  | steps other found before =>
    rcases Work.set_cases _ _ _ there with ⟨-, goesOn⟩ | ⟨-, before⟩
    · have follows := kept.sound.follows before goesOn
      rw [Bool.eq_false_iff]
      intro late
      have earlier := follows.late late
      rw [kept.early other found before] at earlier
      cases earlier
    · exact kept.early task phase before
  | leaves other found before idle =>
    rcases Work.set_cases _ _ _ there with ⟨-, ⟨⟩⟩ | ⟨-, before⟩
    exact kept.early task phase before
  | acts act => exact kept.early task phase there

theorem kept_apply (kept : Kept w) {deed : Deed M} (inTurn : InTurn w deed) :
    Kept (w.apply machine deed) where
  numbered := kept.numbered.apply machine deed
  sound := sound_effect kept.sound (effect kept.numbered inTurn)
  early _ _ there := early_effect kept (effect kept.numbered inTurn) there

/-- Shutting down is for good. -/
theorem unshut_effect (effect : Effect w began took work r) (unshut : r.shutdown = false) :
    w.state.shutdown = false := by
  cases effect with
  | same => exact unshut
  | begins => exact unshut
  | steps task phase there => exact (phase.steps task w.state).keeps.shutdown.symm.trans unshut
  | leaves task phase there idle =>
    exact (Phase.keeps_release phase task w.state).shutdown.symm.trans unshut
  | acts act =>
    cases shut : w.state.shutdown with
    | false => rfl
    | true =>
      rw [(Registry.spares_act w.state act 0).shutdown shut] at unshut
      cases unshut

theorem known_effect {box : MailboxId} (known : box < w.state.mailboxes.length)
    (effect : Effect w began took work r) : box < r.mailboxes.length := by
  cases effect with
  | same => exact known
  | begins => exact known
  | steps task phase there =>
    exact Nat.lt_of_lt_of_le known (phase.steps task w.state).keeps.length
  | leaves task phase there idle =>
    exact Nat.lt_of_lt_of_le known (Phase.keeps_release phase task w.state).length
  | acts act => exact (Registry.spares_act w.state act box).known known

theorem kept_run (kept : Kept w) {deeds : List (Deed M)} (obeys : w.Obeys machine InTurn deeds) :
    Kept (w.applyAll machine deeds) := by
  refine World.keeps_run kept ?_ obeys
  intro before deed _ inTurn kept
  rw [World.applyAll_snoc]
  exact kept_apply kept inTurn

theorem known_run (kept : Kept w) {box : MailboxId} (known : box < w.state.mailboxes.length)
    {deeds : List (Deed M)} (obeys : w.Obeys machine InTurn deeds) :
    box < (w.applyAll machine deeds).state.mailboxes.length := by
  refine World.keeps_run known ?_ obeys
  intro before deed earlier inTurn known
  rw [World.applyAll_snoc]
  exact known_effect known (effect (kept_run kept earlier).numbered inTurn)

/-- As long as the registry has not been shut down, the dispatches go on. -/
abbrev Receives (box : MailboxId) (told : List (TaskId × Event M)) (work : Work (Phase M))
    (r : Registry M) : Prop := Served box told [] (r.shutdown = false) work r

theorem receives_effect (kept : Kept w) {box : MailboxId} {told : List (TaskId × Event M)}
    (receives : Receives box told (operations w) w.state) (effect : Effect w began took work r) :
    Receives box (told ++ took) work r := by
  have lower : r.shutdown = false → w.state.shutdown = false ∧ r.shutdown = false :=
    fun unshut => ⟨unshut_effect effect unshut, unshut⟩
  cases effect with
  | same => rw [List.append_nil]; exact receives
  | begins operation fresh alone early =>
    rw [List.append_nil]
    refine receives.begin (fun event => ?_) operation lower
    rw [fresh]
    exact Phase.not_owing_none box event
  | steps task phase there =>
    have onward : phase.offers = true → w.state.shutdown = false ∨ w.state.shutdown = true :=
      fun _ => (Bool.eq_false_or_eq_true _).symm
    obtain ⟨more, unasked, served⟩ := receives.step kept.sound there onward
      fun unshut => ⟨(lower unshut).1, (lower unshut).1⟩
    rw [Phase.tries_of_early (kept.early task phase there)] at unasked
    rw [List.sublist_nil.mp unasked] at served
    exact served
  | leaves task phase there idle =>
    rw [List.append_nil]
    exact receives.leave there (Phase.spares_release phase task w.state box) lower fun _ => idle
  | acts act =>
    rw [List.append_nil]
    exact receives.act act lower

/-- Nobody is served any more: the listener is dead or the registry is shut down. -/
def Closed (box : MailboxId) (r : Registry M) : Prop := r.live box = false ∨ r.shutdown = true

/-- What a mailbox was given it keeps, and after its end it is given nothing more. -/
theorem closed_effect (kept : Kept w) {box : MailboxId} (known : box < w.state.mailboxes.length)
    (effect : Effect w began took work r) :
    w.state.accepted box <+: r.accepted box ∧
      (Closed box w.state → Closed box r ∧ r.accepted box = w.state.accepted box) := by
  have spared : ∀ {after : Registry M}, Registry.Spares box w.state after →
      w.state.accepted box <+: after.accepted box ∧
        (Closed box w.state → Closed box after ∧ after.accepted box = w.state.accepted box) := by
    intro after spares
    rw [spares.accepted]
    refine ⟨List.prefix_refl _, fun closed => ⟨?_, rfl⟩⟩
    rcases closed with dead | shut
    · refine Or.inl (Bool.eq_false_iff.mpr fun live => ?_)
      have earlier := spares.live live
      rw [dead] at earlier
      cases earlier
    · exact Or.inr (spares.shutdown shut)
  cases effect with
  | same => exact spared (.refl box _)
  | begins => exact spared (.refl box _)
  | steps task phase there =>
    cases kept.sound.serves there known with
    | spares untold spares owes => exact spared spares
    | takes event begins next same => rw [same]; exact spared (.refl box _)
    | gives event owed live unshut gives settled =>
      -- Only a live listener is given anything, and only before the shutdown.
      rw [gives.accepted known]
      refine ⟨List.prefix_append _ _, fun closed => ?_⟩
      rcases closed with dead | shut
      · rw [dead] at live; cases live
      · rw [unshut] at shut; cases shut
    | tries event tries =>
      -- Nothing is offered without waiting here.
      have early := kept.early task phase there
      rw [tries] at early
      cases early
  | leaves task phase there idle => exact spared (Phase.spares_release phase task w.state box)
  | acts act => exact spared (Registry.spares_act w.state act box)

end

/-! ## What receivers are handed -/

theorem taken_run (w : Site M) {box : MailboxId} (known : box < w.state.mailboxes.length)
    (task : TaskId) :
    (w.run machine task).state.taken box = w.state.taken box ++ hands box w (.run task) := by
  have unfolded : hands box w (.run task) = match w.phase? task with
      | some (.receive waiting) =>
        match waiting.poll w.clock w.state with
        | some (.arrived event, _) => if waiting.box = box then [event] else []
        | _ => []
      | _ => [] := rfl
  rw [unfolded]
  cases at_work : w.phase? task with
  | none =>
    rw [World.run_of_none at_work]
    exact (List.append_nil _).symm
  | some found =>
    cases found with
    | operation phase =>
      refine Eq.trans ?_ (List.append_nil _).symm
      cases ready : machine.ready task w.clock (.operation phase) w.state with
      | false => rw [World.run_of_unready at_work ready]
      | true =>
        rw [World.state_run at_work ready]
        exact (phase.steps task w.state).keeps.taken box known
    | receive waiting =>
      simp only
      cases polled : waiting.poll w.clock w.state with
      | none =>
        have unready : machine.ready task w.clock (.receive waiting) w.state = false := by
          show (waiting.poll w.clock w.state).isSome = false
          rw [polled]
          rfl
        rw [World.run_of_unready at_work unready]
        exact (List.append_nil _).symm
      | some outcome =>
        obtain ⟨receipt, after⟩ := outcome
        have can : machine.ready task w.clock (.receive waiting) w.state = true := by
          show (waiting.poll w.clock w.state).isSome = true
          rw [polled]
          rfl
        rw [World.state_run at_work can, step_receive polled task]
        rcases Receiving.poll_cases polled with ⟨event, received, rfl⟩ | ⟨rfl, nothing⟩
        · exact Registry.taken_receive received box
        · cases receipt with
          | arrived event => cases nothing
          | closed => exact (List.append_nil _).symm
          | timedOut after => exact (List.append_nil _).symm

/-- What is taken out of a mailbox is handed to its receiver. -/
theorem taken_apply (w : Site M) {box : MailboxId} (known : box < w.state.mailboxes.length)
    (deed : Deed M) :
    (w.apply machine deed).state.taken box = w.state.taken box ++ hands box w deed := by
  cases deed with
  | start task => exact (List.append_nil _).symm
  | run task => exact taken_run w known task
  | abandon task =>
    refine Eq.trans ?_ (List.append_nil _).symm
    show (w.abandon machine task).state.taken box = _
    cases at_work : w.phase? task with
    | none => rw [World.abandon_of_none at_work]
    | some found =>
      rw [World.abandon_of_phase at_work]
      cases found with
      | operation phase => exact (Phase.keeps_release phase task w.state).taken box known
      | receive waiting => rfl
  | outside act =>
    cases act with
    | take other =>
      show (((w.state.receive? other).map Prod.snd).getD w.state).taken box =
        _ ++ if other = box then ((w.state.receive? other).map Prod.fst).toList else []
      cases received : w.state.receive? other with
      | none =>
        show w.state.taken box = w.state.taken box ++ if other = box then [] else []
        rw [ite_self, List.append_nil]
      | some found => exact Registry.taken_receive received box
    | drain other => exact Registry.taken_drain w.state other box
    | drop other => exact (Registry.taken_drop w.state other box).trans (List.append_nil _).symm
    | shutdown => exact (List.append_nil _).symm
  | wait ms => exact (List.append_nil _).symm

end RegistryTask

end HardwareSigner
