import HardwareSigner.Proofs.Engine.Handing
import HardwareSigner.Proofs.Engine.Opening
import HardwareSigner.Proofs.Engine.Upkeep
import HardwareSigner.Proofs.Listener.Backpressure

/-!
# Connecting waits for no receiver

Before the connection is open no listener has been given anything, so that the call that connects
finds a place in every mailbox. It waits for the lock of the registry, but only for calls before it,
each of which takes its step and leaves.

> `Engine.roomy_of_announcing`: whoever is still to be told has room.
> `Engine.finishes_of_announcing`: steps of calls are all that it takes to tell everybody.
-/

namespace HardwareSigner

namespace Lock

variable {l l' : Lock} {task first : TaskId}

/-- When the first leaves, everybody behind him moves up, even if he comes again. -/
theorem moves_up {mode : LockMode} {rest : List (TaskId × LockMode)}
    (queue : l.queue = (first, mode) :: rest) (once : l.line.Nodup) (different : first ≠ task)
    (there : task ∈ l.line)
    (left : l' = l.release first ∨ l' = (l.release first).request first .exclusive) :
    task ∈ l'.line ∧ l'.ahead task = Lock.ahead ⟨rest⟩ task := by
  have released : l.release first = ⟨rest⟩ := congrArg Lock.mk (queue_release_first queue once)
  have remains : task ∈ (l.release first).line :=
    mem_line_release.mpr ⟨there, Ne.symm different⟩
  rcases left with rfl | rfl
  · exact ⟨remains, congrArg (Lock.ahead · task) released⟩
  · refine ⟨(mem_line_request _).mpr (Or.inl remains), ?_⟩
    rw [ahead_request remains, released]

end Lock

namespace Operation.Phase

variable {M : Type} {phase : Phase M}

/-- Whoever stands in line without having to dispatch anything leaves his place with his next step.
He may come again to unlink the dead. -/
theorem leaves_place (stands : phase.stands = true) (idle : phase.offers = false) (task : TaskId)
    (r : Registry M) :
    phase.ready task r = r.lock.granted task ∧
      ((phase.step task r).2.lock = r.lock.release task ∨
        (phase.step task r).2.lock = (r.lock.release task).request task .exclusive) := by
  cases phase with
  | begin => cases stands
  | dispatching | offering | parked => cases idle
  | trying event =>
    refine ⟨rfl, ?_⟩
    have same := lock_offerAll event r
    have steps := (trying event).steps task r
    generalize (trying event).step task r = turn at steps
    obtain ⟨next, after⟩ := turn
    cases steps with
    | passes faces | quits faces | gives faces => cases faces
    | tries wraps =>
      generalize (r.offerAll event).2.hasDead = stale at wraps
      cases wraps with
      | ends => exact Or.inl (congrArg (Lock.release · task) same)
      | prunes =>
        exact Or.inr (congrArg (fun l => (Lock.release l task).request task .exclusive) same)
  | adding | removing | asking | counting | pruning | clearing =>
    exact ⟨rfl, Or.inl (step_of_brief rfl task r).2⟩

/-- Whether a task is on its way through a dispatch without waiting for a place. -/
def proceeds : Phase M → Bool
  | .begin (.dispatch _) | .dispatching _ | .offering .. | .pruning _ => true
  | _ => false

theorem waitsAt?_of_proceeds (proceeds : phase.proceeds = true) : phase.waitsAt? = none := by
  cases phase with
  | parked => cases proceeds
  | _ => rfl

/-- As long as there is room for whoever comes next, a dispatch does not wait for a place. -/
theorem proceeds_of_step (proceeds : phase.proceeds = true) {task : TaskId} {r : Registry M}
    (room : r.shutdown = false → ∀ box ∈ phase.owed, r.live box = true → r.hasRoom box = true)
    {next : Phase M} {after : Registry M} (turn : phase.step task r = (.inl next, after)) :
    next.proceeds = true := by
  have steps : Steps task r phase (.inl next) after := by
    have steps := phase.steps task r
    rwa [turn] at steps
  cases steps with
  | asks asks => cases asks <;> first | rfl | cases proceeds
  | takes event => rfl
  | passes faces dead => rfl
  | gives faces live unshut room => rfl
  | wrapsUp wraps => rw [wraps.prunes_of_left]; rfl
  | parks live unshut full =>
    rw [room unshut _ List.mem_cons_self live] at full
    cases full
  | _ => cases proceeds

/-- Whoever is still to be told is owed the event. -/
theorem exists_owes {box : MailboxId} (owed : box ∈ phase.owed) :
    ∃ event, phase.Owes box event := by
  cases phase with
  | offering event rest delivered stale => exact ⟨event, rfl, owed⟩
  | parked event listener rest delivered stale => exact ⟨event, rfl, owed⟩
  | _ => cases owed

end Operation.Phase

namespace Engine

open Operation.Phase (Owing)

variable {M : Type}

section

variable {w : Site M} {told : List (TaskId × Event M)} {tried : List (Event M)} {deed : Deed M}
  {deeds : List (Deed M)} {caller : TaskId} {phase : Operation.Phase M} {box : MailboxId}

/-! ## There is room -/

/-- Whoever is still to be told that the connection is open has been given nothing. -/
theorem accepted_of_owed (upkeep : Upkeep w told tried)
    (there : stages w caller = some (.inl (.announcing phase)))
    (unshut : w.state.registry.shutdown = false) (owed : box ∈ phase.owed)
    (live : w.state.registry.live box = true) : w.state.registry.accepted box = [] := by
  have works := operations_of_some there
  have saying : Saying (.system .connected) [] phase (told.map Prod.snd) :=
    upkeep.kept.roles.fits caller _ there
  obtain ⟨event, owes⟩ := Operation.Phase.exists_owes owed
  have going : Going (stages w) w.state := ⟨unshut, Or.inr ⟨caller, _, there, rfl⟩⟩
  have known : box < w.state.registry.mailboxes.length :=
    List.mem_range.mp ((upkeep.kept.bounded.owed caller phase works).subset owed)
  obtain ⟨earlier, later, tail, all, -, served⟩ := upkeep.kept.served box known
  obtain ⟨before, split, given⟩ := served.owing going live caller event
    ⟨phase, works, owes⟩
  -- Only this one event has been told, so nothing was told before it.
  have one : told.map Prod.snd = [.system .connected] := by
    rcases saying.said with ⟨awaits, -⟩ | ⟨-, same⟩
    · rcases Saying.eq_of_awaits awaits with rfl | rfl <;> cases owed
    · exact same
  rw [all, split, List.map_append, List.map_append] at one
  have short := congrArg List.length one
  simp only [List.length_append, List.length_map, List.length_cons, List.length_nil] at short
  have nothing : before = [] := List.length_eq_zero_iff.mp (by omega)
  rw [given, nothing]
  rfl

/-- Whoever is still to be told that the connection is open has room. -/
theorem roomy_of_announcing (upkeep : Upkeep w told tried)
    (there : stages w caller = some (.inl (.announcing phase))) (goes : phase.waitsAt? = none)
    (unshut : w.state.registry.shutdown = false) (owed : box ∈ phase.owed)
    (live : w.state.registry.live box = true) : w.state.registry.hasRoom box = true := by
  have empty := accepted_of_owed upkeep there unshut owed live
  obtain ⟨event, owes⟩ := Operation.Phase.exists_owes owed
  have nobody := upkeep.parked.senders_eq_nil (upkeep.kept.roles.sound upkeep.kept.bounded)
    (operations_of_some there) (Operation.Phase.offers_of_owes owes) goes box
  rw [Registry.accepted_eq] at empty
  rw [Registry.hasRoom_iff live, nobody, Registry.pending_eq_length,
    (List.append_eq_nil_iff.mp empty).2]
  exact upkeep.roomy

/-- Nobody who tells that the connection is open waits for a place. -/
def Unhindered (stages : Work (Stage M)) : Prop :=
  ∀ caller phase, stages caller = some (.inl (.announcing phase)) → phase.proceeds = true

theorem unhindered_apply (upkeep : Upkeep w told tried) (unhindered : Unhindered (stages w))
    (lawful : Lawful w deed) : Unhindered (stages (w.apply machine deed)) := by
  intro caller phase there
  cases (effect upkeep.kept.numbered lawful).comes there with
  | stays stage before => exact unhindered caller phase before
  | calls found next before goesOn =>
    have steps := found.steps caller w.clock w.state
    generalize found.step caller w.clock w.state = step at steps goesOn
    cases steps with
    | installs connecting => cases goesOn; rfl
    | announces turn =>
      cases goesOn
      have proceeds := unhindered caller _ before
      exact Operation.Phase.proceeds_of_step proceeds (fun unshut box owed live =>
        roomy_of_announcing upkeep before (Operation.Phase.waitsAt?_of_proceeds proceeds) unshut
          owed live) turn
    | registers operation =>
      cases turn : (operation.step caller w.state.registry).1 with
      | inl later => rw [turn] at goesOn; cases goesOn
      | inr answer => rw [turn] at goesOn; cases goesOn
    | _ => cases goesOn

theorem unhindered_run (upkeep : Upkeep w told tried) (unhindered : Unhindered (stages w))
    (obeys : w.Obeys machine Lawful deeds) : Unhindered (stages (w.applyAll machine deeds)) := by
  refine World.keeps_run unhindered ?_ obeys
  intro before deed earlier lawful unhindered
  rw [World.applyAll_snoc]
  exact unhindered_apply (upkeep_run upkeep earlier) unhindered lawful

/-! ## Calls make way -/

/-- Only calls that work on the registry take steps. -/
def AtRegistry (w : Site M) (deed : Deed M) : Prop :=
  ∃ task call phase, deed = .run task ∧ stages w task = some (.inl call) ∧
    Stage.operation? (.inl call) = some phase

theorem lawful_of_atRegistry {w : Site M} {deed : Deed M} (atRegistry : AtRegistry w deed) :
    Lawful w deed := by
  obtain ⟨task, call, phase, rfl, -⟩ := atRegistry
  exact trivial

/-- They do not change the state of the connection. -/
theorem state_apply_atRegistry (numbered : w.Numbered) (atRegistry : AtRegistry w deed) :
    (w.apply machine deed).state.state = w.state.state := by
  obtain ⟨task, call, phase, rfl, there, works⟩ := atRegistry
  cases ready : w.ready machine task with
  | false =>
    show (w.run machine task).state.state = _
    rw [World.run_of_not_ready ready]
  | true =>
    rw [(apply_of_call numbered (actor_of_run ready there)).2]
    have steps := call.steps task w.clock w.state
    generalize call.step task w.clock w.state = step at steps
    cases steps with
    | registers | announces | refuses | connects | tells | unlinks | clears | closes => rfl
    | _ => cases works

theorem state_run_atRegistry (numbered : w.Numbered) (obeys : w.Obeys machine AtRegistry deeds) :
    (w.applyAll machine deeds).state.state = w.state.state := by
  refine World.keeps_run rfl ?_ obeys
  intro before deed _ atRegistry same
  rw [World.applyAll_snoc]
  exact (state_apply_atRegistry (numbered_applyAll numbered before) atRegistry).trans same

/-- A call that works on the registry does so with its step. -/
theorem registry_of_operation {call : EngineCall.Phase M}
    (works : Stage.operation? (.inl call) = some phase) (task : TaskId) (clock : Nat)
    (e : Engine M) :
    (call.step task clock e).engine.registry = (phase.step task e.registry).2 ∧
      call.ready task clock e = phase.ready task e.registry := by
  have steps := call.steps task clock e
  generalize call.step task clock e = step at steps
  cases steps with
  | registers => cases works; exact ⟨rfl, rfl⟩
  | announces turn | refuses turn | connects turn | tells outcome turn | unlinks outcome turn
  | clears outcome turn | closes outcome turn => cases works; rw [turn]; exact ⟨rfl, rfl⟩
  | _ => cases works

/-- While a call tells that the connection is open, the first in line for the registry is a call
that takes its step and leaves. -/
theorem makes_way (upkeep : Upkeep w told tried)
    (there : stages w caller = some (.inl (.announcing phase)))
    (inLine : caller ∈ w.state.registry.lock.line) {first : TaskId} {mode : LockMode}
    {rest : List (TaskId × LockMode)} (queue : w.state.registry.lock.queue = (first, mode) :: rest)
    (different : first ≠ caller) :
    AtRegistry w (.run first) ∧
      stages (w.apply machine (.run first)) caller = some (.inl (.announcing phase)) ∧
      caller ∈ (w.apply machine (.run first)).state.registry.lock.line ∧
      (w.apply machine (.run first)).state.registry.lock.ahead caller =
        Lock.ahead ⟨rest⟩ caller := by
  have roles := upkeep.kept.roles
  have numbered := upkeep.kept.numbered
  have stands := (upkeep.lined.inLine first).mp (by
    unfold Lock.line
    rw [queue]
    exact List.mem_cons_self)
  obtain ⟨found, works, stands⟩ : ∃ found, operations (stages w) first = some found ∧
      found.stands = true := by
    cases works : operations (stages w) first with
    | none => rw [works] at stands; cases stands
    | some found => rw [works] at stands; exact ⟨found, rfl, stands⟩
  obtain ⟨stage, at_work, operation⟩ := stage_of_operations works
  -- Only one task at a time dispatches events, and that is the call that tells.
  have aside : stage.drives = false := Bool.eq_false_iff.mpr fun drives =>
    different (roles.driver first caller stage _ at_work there drives rfl)
  have idle : found.offers = false := Bool.eq_false_iff.mpr fun offers => by
    rw [roles.drives_of_offers at_work operation offers] at aside
    cases aside
  obtain ⟨ready, left⟩ := Operation.Phase.leaves_place stands idle first w.state.registry
  rcases stage with call | reading
  · obtain ⟨registry, turn⟩ := registry_of_operation operation first w.clock w.state
    have can : w.ready machine first = true := by
      rw [ready_eq_of_call at_work, turn, ready]
      exact Lock.granted_of_first queue
    have acts := actor_of_run can at_work
    obtain ⟨moved, state⟩ := apply_of_call numbered acts
    refine ⟨⟨first, call, found, rfl, at_work, operation⟩, ?_, ?_⟩
    · rw [moved, Work.set_of_ne _ _ _ (Nat.ne_of_lt (lt_next_of_stage numbered there)),
        Work.set_of_ne _ _ _ (Ne.symm different)]
      exact there
    · rw [state, registry]
      exact Lock.moves_up queue upkeep.lined.once different inLine left
  · cases aside

/-- Steps of others, all of them calls, are enough for a call that stands in line for the registry
to come first. -/
theorem comes_first (upkeep : Upkeep w told tried)
    (there : stages w caller = some (.inl (.announcing phase)))
    (inLine : caller ∈ w.state.registry.lock.line) :
    ∃ deeds, w.Obeys machine AtRegistry deeds ∧
      stages (w.applyAll machine deeds) caller = some (.inl (.announcing phase)) ∧
      (w.applyAll machine deeds).state.registry.lock.granted caller = true := by
  -- The induction is on those before the call: with each step the first of them leaves.
  generalize waiting : w.state.registry.lock.ahead caller = others
  induction others generalizing w told tried with
  | nil =>
    rcases Lock.ahead_cases inLine with ⟨mode, rest, first⟩ | ⟨first, mode, rest, -, -, ahead⟩
    · exact ⟨[], trivial, there, Lock.granted_of_first first⟩
    · rw [ahead] at waiting
      cases waiting
  | cons other others ih =>
    rcases Lock.ahead_cases inLine with ⟨mode, rest, first⟩ |
      ⟨first, mode, rest, queue, different, ahead⟩
    · exact ⟨[], trivial, there, Lock.granted_of_first first⟩
    · rw [ahead] at waiting
      obtain ⟨-, rest⟩ := List.cons.inj waiting
      obtain ⟨atRegistry, there, inLine, behind⟩ := makes_way upkeep there inLine queue different
      obtain ⟨deeds, obeys, reached⟩ :=
        ih (upkeep.apply (lawful_of_atRegistry atRegistry)) there inLine (behind.trans rest)
      exact ⟨.run first :: deeds, ⟨atRegistry, obeys⟩, reached⟩

/-! ## To the end -/

/-- A call that is ready goes on to tell that the connection is open, or returns. -/
theorem finishes_of_step (upkeep : Upkeep w told tried)
    (there : stages w caller = some (.inl (.announcing phase)))
    (ready : phase.ready caller w.state.registry = true)
    (onward : ∀ next registry, phase.step caller w.state.registry = (.inl next, registry) →
      Upkeep (w.apply machine (.run caller)) (told ++ takes w (.run caller))
        (tried ++ tries w (.run caller)) →
      stages (w.apply machine (.run caller)) caller = some (.inl (.announcing next)) →
      (w.apply machine (.run caller)).state.registry = registry →
      CanReturn AtRegistry caller (w.apply machine (.run caller))) :
    CanReturn AtRegistry caller w := by
  have numbered := upkeep.kept.numbered
  have can : w.ready machine caller = true := (ready_eq_of_call there).trans ready
  have acts := actor_of_run can there
  have atRegistry : AtRegistry w (.run caller) := ⟨caller, _, phase, rfl, there, rfl⟩
  have steps := (EngineCall.Phase.announcing phase).steps caller w.clock w.state
  obtain ⟨moved, state⟩ := apply_of_call numbered acts
  have stage := stage_of_call numbered acts
  have answers : ∀ answer, ((EngineCall.Phase.announcing phase).step caller w.clock w.state).next =
      .inr answer → CanReturn AtRegistry caller w := fun answer finished =>
    ⟨[.run caller], ⟨atRegistry, trivial⟩, answer, by
      rw [World.history, World.history, returned_of_actor acts finished]
      exact List.mem_cons_self⟩
  generalize (EngineCall.Phase.announcing phase).step caller w.clock w.state = step
    at steps state stage answers
  cases steps with
  | announces turn =>
    refine CanReturn.after [.run caller] ⟨atRegistry, trivial⟩ ?_
    refine onward _ _ turn (upkeep.apply trivial) stage ?_
    rw [state]
    rfl
  | refuses turn => exact answers _ rfl
  | connects turn unshut => exact answers _ rfl

/-- The dead are to be unlinked. -/
theorem finishes_of_pruning (upkeep : Upkeep w told tried) {delivered : Nat}
    (there : stages w caller = some (.inl (.announcing (.pruning delivered)))) :
    CanReturn AtRegistry caller w := by
  have inLine := (upkeep.lined.inLine caller).mpr (by rw [operations_of_some there]; rfl)
  obtain ⟨deeds, obeys, reached, granted⟩ := comes_first upkeep there inLine
  refine CanReturn.after deeds obeys (finishes_of_step
    (upkeep_run upkeep (obeys.mono fun _ _ => lawful_of_atRegistry)) reached granted ?_)
  intro next registry turn
  cases turn

/-- Some listeners are still to be told. -/
theorem finishes_of_offering (upkeep : Upkeep w told tried) {event : Event M}
    {rest : List MailboxId} {delivered : Nat} {stale : Bool}
    (there : stages w caller = some (.inl (.announcing (.offering event rest delivered stale)))) :
    CanReturn AtRegistry caller w := by
  -- The induction is on those who are still to be told; there is room for each of them.
  induction rest generalizing w told tried delivered stale with
  | nil =>
    refine finishes_of_step upkeep there rfl fun next registry turn upkeep there same => ?_
    have steps := (Operation.Phase.offering event [] delivered stale).steps caller w.state.registry
    rw [turn] at steps
    cases steps with
    | passes faces | gives faces => cases faces
    | wrapsUp wraps =>
      rw [wraps.prunes_of_left] at there
      exact finishes_of_pruning upkeep there
  | cons box rest ih =>
    refine finishes_of_step upkeep there rfl fun next registry turn upkeep' there' same => ?_
    have steps := (Operation.Phase.offering event (box :: rest) delivered stale).steps caller
      w.state.registry
    rw [turn] at steps
    cases steps with
    | passes faces dead => cases faces; exact ih upkeep' there'
    | gives faces live unshut room => cases faces; exact ih upkeep' there'
    | parks live unshut full =>
      have room := roomy_of_announcing upkeep there rfl unshut List.mem_cons_self live
      rw [full] at room
      cases room

/-- It is still to take the lock. -/
theorem finishes_of_dispatching (upkeep : Upkeep w told tried) {event : Event M}
    (there : stages w caller = some (.inl (.announcing (.dispatching event)))) :
    CanReturn AtRegistry caller w := by
  have inLine := (upkeep.lined.inLine caller).mpr (by rw [operations_of_some there]; rfl)
  obtain ⟨deeds, obeys, reached, granted⟩ := comes_first upkeep there inLine
  refine CanReturn.after deeds obeys (finishes_of_step
    (upkeep_run upkeep (obeys.mono fun _ _ => lawful_of_atRegistry)) reached granted ?_)
  intro next registry turn upkeep there _
  cases turn
  exact finishes_of_offering upkeep there

/-- Whoever tells that the connection is open can do so while all receivers rest. -/
theorem finishes_of_announcing (upkeep : Upkeep w told tried) (unhindered : Unhindered (stages w))
    (there : stages w caller = some (.inl (.announcing phase))) :
    CanReturn AtRegistry caller w := by
  have proceeds := unhindered caller phase there
  cases phase with
  | begin operation =>
    cases operation with
    | dispatch event =>
      refine finishes_of_step upkeep there rfl fun next registry turn upkeep there _ => ?_
      cases turn
      exact finishes_of_dispatching upkeep there
    | _ => cases proceeds
  | dispatching event => exact finishes_of_dispatching upkeep there
  | offering event rest delivered stale => exact finishes_of_offering upkeep there
  | pruning delivered => exact finishes_of_pruning upkeep there
  | _ => cases proceeds

/-! ## Who is told -/

/-- The call that is about to take the lock will tell everybody that is there. -/
theorem opens_of_dispatching (kept : Kept w told tried)
    (known : box < w.state.registry.mailboxes.length) {event : Event M}
    (there : stages w caller = some (.inl (.announcing (.dispatching event)))) :
    Opens box caller w told tried [] := by
  have saying : Saying (.system .connected) [] (.dispatching event) (told.map Prod.snd) :=
    kept.roles.fits caller _ there
  -- What the call is to tell is the first that is told.
  have untold : told = [] := by
    rcases saying.said with ⟨-, same⟩ | ⟨awaits, -⟩
    · exact List.map_eq_nil_iff.mp same
    · cases awaits
  obtain ⟨earlier, later, tail, all, unasked, served⟩ := kept.served box known
  have none : later = [] := (List.append_eq_nil_iff.mp (all.symm.trans untold)).2
  refine ⟨kept, known, lt_next_of_stage kept.numbered there, fun stage found => ?_,
    ⟨tail, unasked, ?_⟩, fun none => by cases none⟩
  · cases there.symm.trans found
    exact ⟨_, rfl, rfl⟩
  · rw [untold, ← none]
    exact served

/-- Whoever tells that the connection is open does so until he returns. -/
theorem announces_run (numbered : w.Numbered)
    (there : stages w caller = some (.inl (.announcing phase)))
    (obeys : w.Obeys machine Lawful deeds) :
    ∀ stage, stages (w.applyAll machine deeds) caller = some stage →
      ∃ phase, stage = .inl (.announcing phase) := by
  have old := lt_next_of_stage numbered there
  have all : (w.applyAll machine deeds).Numbered ∧ caller < (w.applyAll machine deeds).next ∧
      ∀ stage, stages (w.applyAll machine deeds) caller = some stage →
        ∃ phase, stage = .inl (.announcing phase) := by
    refine World.keeps_run ⟨numbered, old, fun stage found => ?_⟩ ?_ obeys
    · cases there.symm.trans found
      exact ⟨phase, rfl⟩
    · rintro earlierDeeds deed earlier lawful ⟨numbered, old, kept⟩
      rw [World.applyAll_snoc]
      refine ⟨numbered.apply machine deed,
        Nat.lt_of_lt_of_le old (World.next_le_apply machine _ deed), fun stage found => ?_⟩
      cases (effect numbered lawful).comes found with
      | stays stage before => exact kept stage before
      | begins call new => exact absurd new (Nat.ne_of_lt old)
      | starts other phase new before => exact absurd new (Nat.ne_of_lt old)
      | reads reading next before unaborted receives goesOn =>
        obtain ⟨phase, same⟩ := kept _ before
        cases same
      | calls found next before goesOn =>
        obtain ⟨phase, same⟩ := kept _ before
        cases same
        have steps := (EngineCall.Phase.announcing phase).steps caller
          (World.applyAll machine w earlierDeeds).clock
          (World.applyAll machine w earlierDeeds).state
        generalize (EngineCall.Phase.announcing phase).step caller _ _ = step at steps goesOn
        cases steps with
        | announces turn => cases goesOn; exact ⟨_, rfl⟩
        | refuses | connects => cases goesOn
  exact all.2.2

/-- Unless the engine is being closed, whoever has told everybody has connected. -/
theorem answer_of_announcing {clock : Nat} {e : Engine M} {answer : EngineCall.Answer}
    (unshut : e.registry.shutdown = false)
    (finished : ((EngineCall.Phase.announcing phase).step caller clock e).next = .inr answer) :
    answer = .done (.ok ()) := by
  have same := (phase.steps caller e.registry).keeps.shutdown
  cases turn : phase.step caller e.registry with
  | mk next registry =>
    rw [turn] at same
    have goes : registry.shutdown = false := same.trans unshut
    cases next with
    | inl next =>
      simp only [EngineCall.Phase.step, turn] at finished
      cases finished
    | inr result =>
      simp only [EngineCall.Phase.step, turn, EngineCall.Phase.announced, goes,
        Bool.false_eq_true, if_false] at finished
      exact (Sum.inr.inj finished).symm

/-- When everybody has been told without the engine being closed meanwhile, each of those who were
there when the telling began, and still are, has been given the event and nothing else. -/
theorem told_of_announcing {v : Site M} (upkeep : Upkeep v told tried)
    (shutBy : ShutByClosing v.state)
    {event : Event M} {middle : List (Deed M)} {answer : EngineCall.Answer}
    (there : stages v caller = some (.inl (.announcing (.dispatching event))))
    (obeys : v.Obeys machine InUse middle)
    (unclosed : (v.applyAll machine middle).state.state ≠ .closed)
    (returns : (caller, answer) ∈ returned (v.applyAll machine middle) (.run caller)) :
    answer = .done (.ok ()) ∧ ∀ box < v.state.registry.mailboxes.length,
      (v.applyAll machine (middle ++ [.run caller])).state.registry.live box = true →
      (v.applyAll machine (middle ++ [.run caller])).state.registry.accepted box =
        [.system .connected] := by
  have lawful := obeys.mono fun _ _ inUse => inUse.1
  have shutBy := shutByClosing_run upkeep.kept.numbered shutBy obeys
  have unshut : (v.applyAll machine middle).state.registry.shutdown = false :=
    Bool.eq_false_iff.mpr fun shut => unclosed (shutBy shut)
  obtain ⟨-, -, call, found, finished⟩ := run_of_returned returns
  obtain ⟨phase, same⟩ := announces_run upkeep.kept.numbered there lawful _ found
  cases same
  obtain rfl := answer_of_announcing unshut finished
  refine ⟨rfl, fun box known => ?_⟩
  have opens := opens_run (opens_of_dispatching upkeep.kept known there) lawful
  rw [World.applyAll_snoc]
  exact opens.accepted_apply trivial returns

end

end Engine

end HardwareSigner
