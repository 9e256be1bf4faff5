import HardwareSigner.Client.Basic
import HardwareSigner.Codec.Raw
import HardwareSigner.Proofs.Engine.Announcing
import HardwareSigner.Proofs.Engine.Waiting

/-!
# A client that connects

A blocking client that connects waits for the next event in a mailbox that only he empties. The call
that opens the connection waits for no receiver; and when it has returned, what it has told is what
the client finds in the mailbox.

> `Engine.announced_without_waiting`: this is so in every run of an engine.
-/

namespace HardwareSigner

namespace Engine

variable {M : Type}

section

variable {w : Site M} {told : List (TaskId × Event M)} {tried : List (Event M)} {deed : Deed M}
  {deeds : List (Deed M)} {caller : TaskId} {box : MailboxId} {ms : UInt64}

/-! ## An exchange -/

/-- A client's call, and the waiting that follows it. -/
def Exchanging (caller : TaskId) (box : MailboxId) (ms : UInt64) (w : Site M) : Prop :=
  caller < w.next ∧ ∀ found, w.phase? caller = some found →
    (∃ phase, found = .exchange phase box ms) ∨ ∃ waiting, found = .receive waiting

theorem exchanging_of_phase (numbered : w.Numbered) {phase : EngineCall.Phase M}
    (at_work : w.phase? caller = some (.exchange phase box ms)) : Exchanging caller box ms w := by
  refine ⟨numbered.working caller _ at_work, fun found there => Or.inl ⟨phase, ?_⟩⟩
  exact Option.some.inj (there.symm.trans at_work)

theorem exchanging_run_self (numbered : w.Numbered) (exchanging : Exchanging caller box ms w) :
    ∀ found, (w.run machine caller).phase? caller = some found →
      (∃ phase, found = .exchange phase box ms) ∨ ∃ waiting, found = .receive waiting := by
  obtain ⟨old, only⟩ := exchanging
  rcases World.run_cases machine w caller with same | ⟨found, at_work, ready⟩
  · rw [same]
    exact only
  · intro next there
    rw [World.phase?_run_self numbered at_work ready] at there
    have onward : (EngineTask.step caller w.clock found w.state).next = .inl next :=
      Sum.getLeft?_eq_some_iff.mp there
    rcases only found at_work with ⟨phase, rfl⟩ | ⟨waiting, rfl⟩
    · have steps := EngineTask.steps caller w.clock w.state (.exchange phase box ms)
      rw [onward] at steps
      cases steps with
      | exchanges _ _ turn => exact Or.inl ⟨_, rfl⟩
      | waits _ _ turn => exact Or.inr ⟨_, rfl⟩
    · exact Or.inr ⟨waiting, (EngineTask.of_receive_onward caller onward).1⟩

theorem exchanging_apply (numbered : w.Numbered) (exchanging : Exchanging caller box ms w)
    (deed : Deed M) : Exchanging caller box ms (w.apply machine deed) := by
  obtain ⟨old, only⟩ := exchanging
  refine ⟨Nat.lt_of_lt_of_le old (World.next_le_apply machine w deed), fun found there => ?_⟩
  by_cases runs : deed = .run caller
  · subst runs
    exact exchanging_run_self numbered ⟨old, only⟩ found there
  · by_cases abandons : deed = .abandon caller
    · subst abandons
      have gone : (w.abandon machine caller).phase? caller = some found := there
      rw [World.phase?_abandon, Work.set_self] at gone
      cases gone
    · rw [World.phase?_apply_of_old numbered old runs abandons] at there
      exact only found there

theorem exchanging_run (numbered : w.Numbered) (exchanging : Exchanging caller box ms w)
    (deeds : List (Deed M)) : Exchanging caller box ms (w.applyAll machine deeds) := by
  induction deeds generalizing w with
  | nil => exact exchanging
  | cons deed deeds ih =>
    exact ih (numbered.apply machine deed) (exchanging_apply numbered exchanging deed)

/-- When its call has succeeded, an exchange waits for the event. -/
theorem awaits_of_returned (numbered : w.Numbered) (exchanging : Exchanging caller box ms w)
    (returns : (caller, .done (.ok ())) ∈ returned w (.run caller)) :
    (w.apply machine (.run caller)).phase? caller =
      some (.receive (.within box w.clock ms)) := by
  obtain ⟨-, ready, call, there, finished⟩ := run_of_returned returns
  obtain ⟨old, only⟩ := exchanging
  obtain ⟨found, at_work, can⟩ := World.exists_phase_of_ready ready
  rw [stages_of_some at_work] at there
  rcases only found at_work with ⟨phase, rfl⟩ | ⟨waiting, rfl⟩
  · cases there
    show (w.run machine caller).phase? caller = _
    rw [World.phase?_run_self numbered at_work can]
    show (EngineTask.afterCall w.clock box ms (call.step caller w.clock w.state).next).getLeft? = _
    rw [finished]
    rfl
  · cases there

/-- Whoever waits does so until he takes a step or is given up. -/
theorem phase?_applyAll_of_other (numbered : w.Numbered) {found : EngineTask M}
    (at_work : w.phase? caller = some found)
    (others : ∀ deed ∈ deeds, deed ≠ .run caller ∧ deed ≠ .abandon caller) :
    (w.applyAll machine deeds).phase? caller = some found := by
  induction deeds generalizing w with
  | nil => exact at_work
  | cons deed deeds ih =>
    obtain ⟨unrun, kept⟩ := others deed List.mem_cons_self
    exact ih (numbered.apply machine deed)
      (World.phase?_apply_of_other numbered at_work unrun kept)
      fun later among => others later (List.mem_cons_of_mem _ among)

/-- Whoever waits for an event that is there is handed it with his next step. -/
theorem receives_of_queued (numbered : w.Numbered) {waiting : Receiving} {event : Event M}
    {rest : List (Event M)} (at_work : w.phase? caller = some (.receive waiting))
    (queued : w.state.registry.queued waiting.box = event :: rest) :
    w.ready machine caller = true ∧
      (w.apply machine (.run caller)).result? caller = some (.receipt (.arrived event)) := by
  obtain ⟨after, polled⟩ := poll_of_queued queued w.clock
  refine ⟨?_, (state_run_receive at_work polled).2 (numbered.result?_of_phase at_work)⟩
  unfold World.ready
  rw [at_work]
  show (waiting.poll w.clock w.state.registry).isSome = true
  rw [polled]
  rfl

/-! ## The client's event -/

/-- What a client's call has told the client is still there when the client comes for it. -/
theorem queued_of_returned {v : Site M} (kept : Kept v told tried) {middle between : List (Deed M)}
    (there : stages v caller = some (.inl (.begin .connect)))
    (known : box < v.state.registry.mailboxes.length)
    (blank : v.state.state.unopened = true → v.state.registry.accepted box = [])
    (obeys : v.Obeys machine Lawful (.run caller :: (middle ++ .run caller :: between)))
    (returns : (caller, .done (.ok ())) ∈
      returned (v.applyAll machine (.run caller :: middle)) (.run caller))
    (live : (v.applyAll machine
      (.run caller :: (middle ++ [.run caller]))).state.registry.live box = true)
    (unhanded : v.history machine (hands box) (.run caller :: (middle ++ .run caller :: between)) =
      []) :
    ∃ rest, (v.applyAll machine
      (.run caller :: (middle ++ .run caller :: between))).state.registry.queued box =
        .system .connected :: rest := by
  have split : Action.run caller :: (middle ++ .run caller :: between) =
      (.run caller :: middle ++ [.run caller]) ++ between := by
    rw [List.append_assoc]
    rfl
  rw [split] at obeys unhanded ⊢
  obtain ⟨call, later⟩ := World.obeys_append.mp obeys
  obtain ⟨earlier, last, -⟩ := World.obeys_append.mp call
  have among : (caller, .done (.ok ())) ∈
      v.history machine returned (.run caller :: (middle ++ [.run caller])) := by
    rw [← List.cons_append, World.history_snoc]
    exact List.mem_append_right _ returns
  have disconnected := disconnected_of_returned kept there call among
  have untaken : v.state.registry.taken box = [] := by
    have nothing := blank (by rw [disconnected]; rfl)
    rw [Registry.accepted_eq] at nothing
    exact (List.append_eq_nil_iff.mp nothing).1
  -- When the call returns the mailbox holds one event, and nobody takes it out.
  have opens := opens_run (opens_of_begin kept known there disconnected) earlier
  have given : (v.applyAll machine (.run caller :: middle ++ [.run caller])).state.registry.accepted
      box = [.system .connected] := by
    rw [World.applyAll_snoc]
    exact opens.accepted_apply last returns (by rw [← World.applyAll_snoc]; exact live)
  have more := (keeps_mailboxes (kept_run kept call) later box).2
  have taken := taken_history kept known obeys
  rw [untaken, unhanded] at taken
  rw [← World.applyAll_append, given, Registry.accepted_eq, taken] at more
  obtain ⟨rest, queued⟩ := more
  exact ⟨rest, queued.symm⟩

/-- A client whose call has opened the connection is handed the event with the first step after it,
whenever that is. -/
theorem arrives_of_returned {v : Site M} (upkeep : Upkeep v told tried)
    {middle between : List (Deed M)}
    (at_work : v.phase? caller = some (.exchange (.begin .connect) box ms))
    (known : box < v.state.registry.mailboxes.length)
    (obeys : v.Obeys machine Lawful (.run caller :: (middle ++ .run caller :: between)))
    (returns : (caller, .done (.ok ())) ∈
      returned (v.applyAll machine (.run caller :: middle)) (.run caller))
    (live : ((v.applyAll machine (.run caller :: middle)).apply machine
      (.run caller)).state.registry.live box = true)
    (unhanded : v.history machine (hands box) (.run caller :: (middle ++ .run caller :: between)) =
      [])
    (others : ∀ deed ∈ between, deed ≠ .run caller ∧ deed ≠ .abandon caller) :
    (v.applyAll machine (.run caller :: (middle ++ .run caller :: between))).ready machine caller =
        true ∧
      ((v.applyAll machine (.run caller :: (middle ++ .run caller :: between))).apply machine
        (.run caller)).result? caller = some (.receipt (.arrived (.system .connected))) := by
  have numbered := upkeep.kept.numbered
  have exchanging := exchanging_run numbered (exchanging_of_phase numbered at_work)
    (.run caller :: middle)
  have numbered' := numbered_applyAll numbered (.run caller :: middle)
  -- Between the return of the call and the step nothing moves the client.
  have awaits := phase?_applyAll_of_other (numbered'.apply machine _)
    (awaits_of_returned numbered' exchanging returns) others
  obtain ⟨rest, queued⟩ := queued_of_returned upkeep.kept (stages_of_some at_work) known
    (fun unopened => accepted_of_unopened upkeep.blank upkeep.kept unopened box) obeys returns
    (by rw [← List.cons_append, World.applyAll_snoc]; exact live) unhanded
  have split : v.applyAll machine (.run caller :: (middle ++ .run caller :: between)) =
      ((v.applyAll machine (.run caller :: middle)).apply machine (.run caller)).applyAll machine
        between := by
    rw [← List.cons_append, World.applyAll_append]
    rfl
  rw [split] at queued ⊢
  exact receives_of_queued (numbered_applyAll (numbered'.apply machine _) between) awaits queued

end

/-- What the call that opens the connection makes of the listeners in a run from `start`. -/
structure Announced (settings : EngineSettings) (start : Site M) (deeds : List (Deed M)) :
    Prop where
  /-- A mailbox holds at least one event, whatever has been asked for. -/
  capacity : (start.applyAll machine deeds).state.registry.capacity =
    max settings.queueCapacity.toNat 1
  /-- As long as the connection has not been open no mailbox has been given anything. -/
  empty : (start.applyAll machine deeds).state.state ≠ .closed →
    .connected ∉ start.history machine enters deeds →
    ∀ box, (start.applyAll machine deeds).state.registry.accepted box = []
  /-- Whoever is still to be told that it is open has room, and nobody is waited for. -/
  room : ∀ caller phase,
    stages (start.applyAll machine deeds) caller = some (.inl (.announcing phase)) →
    phase.waitsAt? = none ∧
      ((start.applyAll machine deeds).state.registry.shutdown = false → ∀ box ∈ phase.owed,
        (start.applyAll machine deeds).state.registry.live box = true →
        (start.applyAll machine deeds).state.registry.hasRoom box = true)
  /-- The call can return with only calls taking steps, none of which closes the engine. -/
  completes : ∀ caller phase, ∀ w, w = start.applyAll machine deeds →
    stages w caller = some (.inl (.announcing phase)) →
      ∃ more, w.Obeys machine AtRegistry more ∧
        (w.applyAll machine more).state.state = w.state.state ∧
        ∃ answer, (caller, answer) ∈ w.history machine returned more
  /-- Unless the engine is closed meanwhile, all those are told that are there when the telling
  begins, and have not left when it is over. -/
  delivers : start.Obeys machine InUse deeds → ∀ before caller middle,
    deeds = before ++ (middle ++ [.run caller]) →
    ∀ v u, v = start.applyAll machine before → u = v.applyAll machine middle →
    ∀ event answer, stages v caller = some (.inl (.announcing (.dispatching event))) →
    u.state.state ≠ .closed → (caller, answer) ∈ returned u (.run caller) →
      answer = .done (.ok ()) ∧ ∀ box < v.state.registry.mailboxes.length,
        (start.applyAll machine deeds).state.registry.live box = true →
        (start.applyAll machine deeds).state.registry.accepted box = [.system .connected]
  /-- A blocking client whose call opens the connection finds in his mailbox that it is open, as
  soon and as late as he looks, if he had his mailbox before the call, still has it when the call
  returns, and nobody else takes anything out of it. -/
  blocking : ∀ before caller middle between,
    deeds = before ++ .run caller :: (middle ++ .run caller :: between) →
    ∀ v u, v = start.applyAll machine before → u = v.applyAll machine (.run caller :: middle) →
    ∀ (client : Client) timeout, client.kind = .blocking timeout →
    v.phase? caller = some (client.requestTask .connect) →
    client.box < v.state.registry.mailboxes.length →
    (caller, .done (.ok ())) ∈ returned u (.run caller) →
    (u.apply machine (.run caller)).state.registry.live client.box = true →
    v.history machine (hands client.box) (.run caller :: (middle ++ .run caller :: between)) = [] →
    (∀ deed ∈ between, deed ≠ .run caller ∧ deed ≠ .abandon caller) →
      (start.applyAll machine deeds).ready machine caller = true ∧
      ((start.applyAll machine deeds).apply machine (.run caller)).result? caller =
        some (.receipt (.arrived (.system .connected)))

theorem capacity_run {w : Site M} {told : List (TaskId × Event M)} {tried : List (Event M)}
    {deeds : List (Deed M)} (kept : Kept w told tried) (obeys : w.Obeys machine Lawful deeds) :
    (w.applyAll machine deeds).state.registry.capacity = w.state.registry.capacity := by
  refine World.keeps_run rfl ?_ obeys
  intro before deed earlier lawful same
  rw [World.applyAll_snoc]
  exact ((kept_run kept earlier).moves lawful).capacity.trans same

/-- In every run of an engine, the call that opens the connection waits for nobody who takes events
out of a mailbox. -/
theorem announced_without_waiting (codec : RequestCodec M) (settings : EngineSettings)
    (link : ScriptedLink) {deeds : List (Deed M)}
    (obeys : (World.ofState (create codec settings link)).Obeys machine Lawful deeds) :
    Announced settings (World.ofState (create codec settings link)) deeds := by
  have created := upkeep_create codec settings link
  have upkeep := upkeep_run created obeys
  have unhindered := unhindered_run created (fun _ _ none => nomatch none) obeys
  refine {
    capacity := capacity_run created.kept obeys
    empty := ?_
    room := ?_
    completes := ?_
    delivers := ?_
    blocking := ?_ }
  · intro unclosed never box
    refine accepted_of_unopened upkeep.blank upkeep.kept ?_ box
    have unconnected : (World.applyAll machine _ deeds).state.state ≠ .connected := fun connected =>
      never (entered_of_connected (fun same => by cases same) connected)
    cases state : (World.applyAll machine _ deeds).state.state with
    | disconnected | connecting => rfl
    | connected => exact absurd state unconnected
    | closed => exact absurd state unclosed
  · intro caller phase there
    have goes := Operation.Phase.waitsAt?_of_proceeds (unhindered caller phase there)
    exact ⟨goes, fun unshut box owed live => roomy_of_announcing upkeep there goes unshut owed live⟩
  · rintro caller phase w rfl there
    obtain ⟨more, atRegistry, returns⟩ := finishes_of_announcing upkeep unhindered there
    exact ⟨more, atRegistry, state_run_atRegistry upkeep.kept.numbered atRegistry, returns⟩
  · rintro inUse before caller middle rfl v u rfl rfl event answer there unclosed returns
    obtain ⟨earlier, later⟩ := World.obeys_append.mp inUse
    have begun := upkeep_run created (World.obeys_append.mp obeys).1
    have shutBy := shutByClosing_run created.kept.numbered (fun shut => by cases shut) earlier
    rw [World.applyAll_append]
    exact told_of_announcing begun shutBy there (World.obeys_append.mp later).1 unclosed returns
  · rintro before caller middle between rfl v u rfl rfl client timeout kind at_work known returns
      live unhanded others
    obtain ⟨earlier, later⟩ := World.obeys_append.mp obeys
    rw [Client.requestTask, kind] at at_work
    rw [World.applyAll_append]
    exact arrives_of_returned (upkeep_run created earlier) at_work known later returns live unhanded
      others

/-- An engine that is to have no place in its mailboxes. -/
def cramped : Site RawMessage := World.ofState (create RawMessage.codec { queueCapacity := 0 } {})

/-- A client of it who waits fifty milliseconds for an event. -/
def impatient : Client :=
  { kind := .blocking 50, id := ⟨7⟩, box := 0, session := ⟨List.replicate 8 0, rfl⟩ }

/-- The client connects. Until he looks into his mailbox its only place is wanted for another event,
and his time is up. -/
def lateLook : List (Deed RawMessage) :=
  [.start (.call (.begin (.addListener impatient.id))), .run 0, .run 0, .run 0,
    .start (impatient.requestTask .connect), .run 1, .run 1, .run 1, .run 1, .run 1, .run 1, .run 1,
    .run 1, .outside (.feed [.outcome (.ok .endOfStream)]), .run 2, .run 2, .run 2, .run 2,
    .wait 60]

theorem announced_without_waiting_when_cramped :
    cramped.Obeys machine Lawful lateLook ∧
      Announced { queueCapacity := 0 } cramped lateLook ∧
      cramped.history machine returned lateLook =
        [(0, .added (.ok 0)), (1, .done (.ok ()))] ∧
      ((cramped.applyAll machine lateLook).apply machine (.run 1)).result? 1 =
        some (.receipt (.arrived (.system .connected))) := by
  have obeys : cramped.Obeys machine Lawful lateLook :=
    ⟨trivial, trivial, trivial, trivial, trivial, trivial, trivial, trivial, trivial, trivial,
      trivial, trivial, trivial, trivial, trivial, trivial, trivial, trivial, trivial, trivial⟩
  have announced := announced_without_waiting RawMessage.codec { queueCapacity := 0 } {} obeys
  have others : ∀ deed ∈ lateLook.drop 13, deed ≠ .run 1 ∧ deed ≠ .abandon 1 := by
    simp [lateLook]
  refine ⟨obeys, announced, rfl, ?_⟩
  exact (announced.blocking (lateLook.take 5) 1 ((lateLook.drop 6).take 6) (lateLook.drop 13) rfl
    _ _ rfl rfl impatient 50 rfl rfl (by decide) List.mem_cons_self rfl rfl others).2

end Engine

end HardwareSigner
