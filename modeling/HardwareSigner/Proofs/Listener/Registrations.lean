import HardwareSigner.Proofs.Listener.Membership

/-!
# Registrations in every run

Whatever is done to a registry, by whom and in whatever order, and whoever is given up on the way,
the accounts of who is registered stay in order. Here that is said of runs, and with it what each
operation does that asks for a registration or changes one, at the moment at which it has the lock.

> `RegistryTask.membership_kept`: in every world that can be reached the accounts are well kept,
> questions are answered for exactly the live listeners, an id is given to one live listener at a
> time, and a removal touches no registration but the one that it was begun for.
-/

namespace HardwareSigner

namespace RegistryTask

open Operation (Phase)

variable {M : Type} {w : Site M} {task : TaskId}

/-! ## What every action keeps -/

theorem wellKept_run {limit : Nat} (kept : w.state.WellKept limit) (task : TaskId) :
    (w.run machine task).state.WellKept limit := by
  rcases World.run_cases machine w task with same | ⟨found, at_work, ready⟩
  · rw [same]
    exact kept
  · rw [World.state_run at_work ready]
    cases found with
    | operation phase => exact (phase.steps task w.state).wellKept ready kept
    | receive waiting =>
      obtain ⟨receipt, after, polled⟩ := exists_of_ready ready
      rw [step_receive polled]
      rcases Receiving.poll_cases polled with ⟨event, received, -⟩ | ⟨same, -⟩
      · exact kept.receive received
      · exact same ▸ kept

theorem wellKept_apply {limit : Nat} (kept : w.state.WellKept limit) (deed : Deed M) :
    (w.apply machine deed).state.WellKept limit := by
  cases deed with
  | start phase => exact kept
  | run task => exact wellKept_run kept task
  | abandon task =>
    show (w.abandon machine task).state.WellKept limit
    cases at_work : w.phase? task with
    | none =>
      rw [World.abandon_of_none at_work]
      exact kept
    | some found =>
      rw [World.abandon_of_phase at_work]
      cases found with
      | operation phase => exact Phase.wellKept_release kept phase task
      | receive waiting => exact kept
  | outside act => exact kept.act act
  | wait ms => exact kept

theorem wellKept_applyAll {limit : Nat} (kept : w.state.WellKept limit) (deeds : List (Deed M)) :
    (w.applyAll machine deeds).state.WellKept limit := by
  induction deeds generalizing w with
  | nil => exact kept
  | cons deed deeds ih => exact ih (wellKept_apply kept deed)

/-- A world that can be reached from an empty registry. -/
abbrev Reached (capacity : Nat) (w : Site M) : Prop := World.Reaches machine (vacant capacity) w

theorem Reached.wellKept {capacity : Nat} (reached : Reached capacity w) :
    w.state.WellKept (max capacity 1) := by
  obtain ⟨deeds, rfl⟩ := reached
  exact wellKept_applyAll (Registry.wellKept_empty capacity) deeds

theorem Reached.numbered {capacity : Nat} (reached : Reached capacity w) : w.Numbered :=
  reached.keeps (fun _ deed numbered => numbered.apply machine deed) (World.numbered_ofState _)

/-! ## One step of an operation -/

section

variable {phase : Phase M}

theorem phase?_of_operations (there : operations w task = some phase) :
    w.phase? task = some (.operation phase) := by
  obtain ⟨found, at_work, same⟩ := Option.bind_eq_some_iff.mp there
  cases found with
  | operation other =>
    cases same
    exact at_work
  | receive waiting => cases same

theorem ready_of_operations (there : operations w task = some phase)
    (ready : phase.ready task w.state = true) : w.ready machine task = true := by
  unfold World.ready
  rw [phase?_of_operations there]
  exact ready

theorem ready_operation (there : operations w task = some phase)
    (ready : w.ready machine task = true) :
    machine.ready task w.clock (.operation phase) w.state = true := by
  unfold World.ready at ready
  rw [phase?_of_operations there] at ready
  exact ready

theorem state_run_operation (there : operations w task = some phase)
    (ready : w.ready machine task = true) :
    (w.run machine task).state = (phase.step task w.state).2 :=
  World.state_run (phase?_of_operations there) (ready_operation there ready)

theorem phase?_run_operation (there : operations w task = some phase)
    (ready : w.ready machine task = true) :
    (w.run machine task).phase? task =
      (phase.step task w.state).1.getLeft?.map RegistryTask.operation := by
  rw [World.phase?_run_of_spawned_none (phase?_of_operations there) (ready_operation there ready)
      rfl,
    Work.set_self]
  show ((phase.step task w.state).1.map _ _).getLeft? = _
  cases (phase.step task w.state).1 <;> rfl

theorem result?_run_operation (numbered : w.Numbered) (there : operations w task = some phase)
    (ready : w.ready machine task = true) {answer : Operation.Answer}
    (answers : (phase.step task w.state).1 = .inr answer) :
    (w.run machine task).result? task = some (.operation answer) := by
  have at_work := phase?_of_operations there
  have unanswered : w.result? task = none := by
    cases earlier : w.result? task with
    | none => rfl
    | some found =>
      rw [(numbered.finished task found earlier).2] at at_work
      cases at_work
  rw [World.result?_run at_work (ready_operation there ready), unanswered, if_pos rfl,
    Option.none_or]
  show ((phase.step task w.state).1.map RegistryTask.operation _).getRight? = _
  rw [answers]
  rfl

end

/-! ## Asking who is registered -/

/-- Whoever asks who is registered is told of exactly the live listeners, and changes nothing. -/
structure Tells (w : Site M) : Prop where
  contained : ∀ task id, operations w task = some (.asking id) → w.ready machine task = true →
    ∃ found : Bool, (w.run machine task).result? task = some (.operation (.contained found)) ∧
      (found = true ↔ w.state.Registered id) ∧
      (w.run machine task).state = w.state.releases task
  counted : ∀ task, operations w task = some .counting → w.ready machine task = true →
    (w.run machine task).result? task =
        some (.operation (.counted w.state.liveEntries.length)) ∧
      (w.run machine task).state = w.state.releases task

theorem contains_iff_registered (r : Registry M) (id : ListenerId) :
    r.contains id = true ↔ r.Registered id := by
  rw [← Registry.any_liveEntries]
  unfold Registry.contains Registry.liveEntries
  rw [List.any_filter]
  simp only [Bool.and_comm]

theorem count_eq_length (r : Registry M) : r.count = r.liveEntries.length :=
  List.countP_eq_length_filter

theorem tells (numbered : w.Numbered) : Tells w where
  contained := by
    intro task id there ready
    exact ⟨w.state.contains id, result?_run_operation numbered there ready rfl,
      contains_iff_registered w.state id, state_run_operation there ready⟩
  counted := by
    intro task there ready
    rw [← count_eq_length]
    exact ⟨result?_run_operation numbered there ready rfl, state_run_operation there ready⟩

/-! ## Adding a listener -/

/-- What becomes of a task that has the lock to link a listener. -/
structure Adds (id : ListenerId) (task : TaskId) (w : Site M) : Prop where
  /-- A live listener has the id. -/
  refused : w.state.Registered id →
    (w.run machine task).result? task =
        some (.operation (.added (.error (.duplicateListener id)))) ∧
      (w.run machine task).state.entries = w.state.liveEntries ∧
      (w.run machine task).state.mailboxes = w.state.mailboxes
  /-- The new listener comes last, with an empty mailbox of its own. -/
  linked : ¬ w.state.Registered id →
    (w.run machine task).result? task =
        some (.operation (.added (.ok w.state.mailboxes.length))) ∧
      (w.run machine task).state.entries =
        w.state.liveEntries ++ [(id, w.state.mailboxes.length)] ∧
      (w.run machine task).state.mailboxes = w.state.mailboxes ++ [({} : Mailbox M)] ∧
      (w.run machine task).state.Serving w.state.mailboxes.length

theorem adds {limit : Nat} (kept : w.state.WellKept limit) (numbered : w.Numbered)
    {id : ListenerId} (there : operations w task = some (.adding id))
    (ready : w.ready machine task = true) : Adds id task w where
  refused := by
    intro registered
    have links := Registry.link_of_registered registered
    have answers : ((Phase.adding id).step task w.state).1 =
        .inr (.added (.error (.duplicateListener id))) := by
      show Sum.inr (Operation.Answer.added (w.state.link id).1) = _
      rw [links]
    have after : (w.run machine task).state = w.state.unlinkDead.releases task := by
      rw [state_run_operation there ready]
      show (w.state.link id).2.releases task = _
      rw [links]
    refine ⟨result?_run_operation numbered there ready answers, ?_, ?_⟩ <;> rw [after] <;> rfl
  linked := by
    intro free
    have links := Registry.link_of_not_registered kept free
    have answers : ((Phase.adding id).step task w.state).1 =
        .inr (.added (.ok w.state.mailboxes.length)) := by
      show Sum.inr (Operation.Answer.added (w.state.link id).1) = _
      rw [links]
    have after : (w.run machine task).state = (w.state.linked id).releases task := by
      rw [state_run_operation there ready]
      show (w.state.link id).2.releases task = _
      rw [links]
    have newest : (w.state.mailboxes ++ [({} : Mailbox M)])[w.state.mailboxes.length]? =
        some {} := by
      rw [List.getElem?_append_right (Nat.le_refl _), Nat.sub_self]
      rfl
    refine ⟨result?_run_operation numbered there ready answers, ?_, ?_, ?_⟩ <;> rw [after]
    · rfl
    · rfl
    · exact ⟨{}, newest, rfl, rfl⟩

/-! ## Removing a listener -/

/-- What a task does that is about to remove a listener, with its first step and ever after. What is
not live at the end counts as removed already. -/
structure RemovesOwn (id : ListenerId) (task : TaskId) (w : Site M) : Prop where
  /-- Nobody else is cancelled, and nobody is unlinked. -/
  begins : (w.run machine task).state.entries = w.state.entries ∧
    (w.run machine task).state.tokens = w.state.tokens ∧
    ∀ entry ∈ w.state.entries, entry.1 ≠ id →
      (w.run machine task).state.mailbox? entry.2 = w.state.mailbox? entry.2
  /-- Whenever the task takes its last step or is given up, nobody is cancelled, and whoever is live
  stays linked with its token, also if it has been given the id in the meantime. -/
  ends : ∀ (deeds : List (Deed M)) (deed : Deed M), deed = .run task ∨ deed = .abandon task →
    let last := (w.run machine task).applyAll machine deeds
    (last.apply machine deed).state.mailboxes = last.state.mailboxes ∧
      ∀ entry ∈ last.state.liveEntries, entry ∈ (last.apply machine deed).state.entries ∧
        entry ∈ (last.apply machine deed).state.tokens

theorem mem_of_removable? {limit : Nat} {r : Registry M} (kept : r.WellKept limit)
    {id : ListenerId} {box : MailboxId} (there : r.removable? id = some box) :
    (id, box) ∈ r.entries := by
  unfold Registry.removable? at there
  split at there
  next => cases there
  next other found =>
    split at there
    next => cases there
    next =>
      cases there
      obtain ⟨before, behind, tokens, -⟩ := List.lookup_eq_some_iff.mp found
      rw [← kept.tokens, tokens]
      exact List.mem_append_right before List.mem_cons_self

theorem step_of_unknown {r : Registry M} {id : ListenerId} (unknown : r.removable? id = none) :
    (Phase.begin (.remove id)).step task r =
      (.inr (.removed (.error (.unknownListener id))), r) := by
  simp only [Phase.step, Phase.start, unknown]

theorem step_of_removable {r : Registry M} {id : ListenerId} {box : MailboxId}
    (there : r.removable? id = some box) :
    (Phase.begin (.remove id)).step task r =
      (.inl .removing, (r.cancel box).asks task .exclusive) := by
  simp only [Phase.step, Phase.start, there]

/-- With its first step a removal cancels the listener that has the id, and nobody else. -/
theorem begins_removal {limit : Nat} (kept : w.state.WellKept limit) {id : ListenerId}
    (there : operations w task = some (.begin (.remove id))) :
    (w.run machine task).state.entries = w.state.entries ∧
      (w.run machine task).state.tokens = w.state.tokens ∧
      ∀ entry ∈ w.state.entries, entry.1 ≠ id →
        (w.run machine task).state.mailbox? entry.2 = w.state.mailbox? entry.2 := by
  rw [state_run_operation there (ready_of_operations there rfl)]
  cases found : w.state.removable? id with
  | none =>
    rw [step_of_unknown found]
    exact ⟨rfl, rfl, fun _ _ _ => rfl⟩
  | some box =>
    rw [step_of_removable found]
    refine ⟨rfl, rfl, fun entry among other => ?_⟩
    have different : entry.2 ≠ box := by
      intro same
      -- Mailboxes are linked once, so who has the mailbox has the id.
      have one := List.inj_on_of_nodup_map (kept.ordered.nodup List.nodup_range) among
        (mem_of_removable? kept found) same
      exact other (congrArg Prod.fst one)
    exact Registry.mailbox?_update_of_ne w.state different Mailbox.cancel

/-- A task is removing a listener, or gone. -/
structure Leaving (task : TaskId) (w : Site M) : Prop where
  numbered : w.Numbered
  known : task < w.next
  phase : w.phase? task = some (.operation .removing) ∨ w.phase? task = none

theorem leaving_of_begin (numbered : w.Numbered) {id : ListenerId}
    (there : operations w task = some (.begin (.remove id))) :
    Leaving task (w.run machine task) where
  numbered := numbered.apply machine (.run task)
  known := Nat.lt_of_lt_of_le (numbered.working task _ (phase?_of_operations there))
    (World.next_le_apply machine w (.run task))
  phase := by
    rw [phase?_run_operation there (ready_of_operations there rfl)]
    cases found : w.state.removable? id with
    | none => rw [step_of_unknown found]; exact Or.inr rfl
    | some box => rw [step_of_removable found]; exact Or.inl rfl

/-- No task on a registry starts another one. -/
theorem spawned_none (found : RegistryTask M)
    (ready : machine.ready task w.clock found w.state = true) :
    (machine.step task w.clock found w.state).spawned? = none := by
  cases found with
  | operation phase => rfl
  | receive waiting =>
    obtain ⟨receipt, after, polled⟩ := exists_of_ready ready
    rw [step_receive polled]

/-- It stays so, whatever happens: its next step is its last. -/
theorem Leaving.apply (leaving : Leaving task w) (deed : Deed M) :
    Leaving task (w.apply machine deed) where
  numbered := leaving.numbered.apply machine deed
  known := Nat.lt_of_lt_of_le leaving.known (World.next_le_apply machine w deed)
  phase := by
    cases deed with
    | start phase =>
      show (w.start phase).phase? task = _ ∨ (w.start phase).phase? task = _
      rw [World.phase?_start leaving.numbered, Work.set_of_ne _ _ _ (Nat.ne_of_lt leaving.known)]
      exact leaving.phase
    | run other =>
      show (w.run machine other).phase? task = _ ∨ (w.run machine other).phase? task = _
      rcases World.run_cases machine w other with same | ⟨found, at_work, ready⟩
      · rw [same]
        exact leaving.phase
      · rw [World.phase?_run_of_spawned_none at_work ready (spawned_none found ready)]
        by_cases mine : task = other
        · subst mine
          rw [Work.set_self]
          rcases leaving.phase with removing | gone
          · rw [removing] at at_work
            cases at_work
            exact Or.inr rfl
          · rw [gone] at at_work
            cases at_work
        · rw [Work.set_of_ne _ _ _ mine]
          exact leaving.phase
    | abandon other =>
      show (w.abandon machine other).phase? task = _ ∨ (w.abandon machine other).phase? task = _
      rw [World.phase?_abandon]
      by_cases mine : task = other
      · rw [mine, Work.set_self]
        exact Or.inr rfl
      · rw [Work.set_of_ne _ _ _ mine]
        exact leaving.phase
    | outside act => exact leaving.phase
    | wait ms => exact leaving.phase

theorem Leaving.applyAll (leaving : Leaving task w) (deeds : List (Deed M)) :
    Leaving task (w.applyAll machine deeds) := by
  induction deeds generalizing w with
  | nil => exact leaving
  | cons deed deeds ih => exact ih (leaving.apply deed)

/-- With its last step a removal unlinks the dead. If it is given up, or gone, it does not even do
that. -/
theorem ends_removal (leaving : Leaving task w) {deed : Deed M}
    (last : deed = .run task ∨ deed = .abandon task) :
    (w.apply machine deed).state.mailboxes = w.state.mailboxes ∧
      ((w.apply machine deed).state.entries = w.state.entries ∨
        (w.apply machine deed).state.entries = w.state.liveEntries) := by
  rcases last with rfl | rfl
  · show (w.run machine task).state.mailboxes = _ ∧ ((w.run machine task).state.entries = _ ∨
      (w.run machine task).state.entries = _)
    rcases World.run_cases machine w task with same | ⟨found, at_work, ready⟩
    · rw [same]
      exact ⟨rfl, Or.inl rfl⟩
    · rw [World.state_run at_work ready]
      rcases leaving.phase with removing | gone
      · rw [removing] at at_work
        cases at_work
        exact ⟨rfl, Or.inr rfl⟩
      · rw [gone] at at_work
        cases at_work
  · show (w.abandon machine task).state.mailboxes = _ ∧
      ((w.abandon machine task).state.entries = _ ∨ (w.abandon machine task).state.entries = _)
    rcases leaving.phase with removing | gone
    · rw [World.abandon_of_phase removing]
      exact ⟨rfl, Or.inl rfl⟩
    · rw [World.abandon_of_none gone]
      exact ⟨rfl, Or.inl rfl⟩

theorem removesOwn {limit : Nat} (kept : w.state.WellKept limit) (numbered : w.Numbered)
    {id : ListenerId} (there : operations w task = some (.begin (.remove id))) :
    RemovesOwn id task w where
  begins := begins_removal kept there
  ends := by
    intro deeds deed last
    have leaving := (leaving_of_begin numbered there).applyAll deeds
    obtain ⟨mailboxes, entries⟩ := ends_removal leaving last
    have accounts := (wellKept_apply (wellKept_applyAll (wellKept_run kept task) deeds) deed).tokens
    refine ⟨mailboxes, fun entry live => ?_⟩
    rw [accounts, and_self]
    rcases entries with same | same <;> rw [same]
    · exact (Registry.mem_liveEntries.mp live).1
    · exact live

/-- **The law of membership.** In every world that can be reached, whatever has been done and
whoever has been given up: the accounts are well kept, whoever asks is told of the live listeners,
whoever has the lock to link a listener links it unless a live one has its id, and whoever begins to
remove a listener removes that one. -/
theorem membership_kept {capacity : Nat} {w : Site M} (reached : Reached capacity w) :
    w.state.WellKept (max capacity 1) ∧ Tells w ∧
    (∀ task id, operations w task = some (.adding id) → w.ready machine task = true →
      Adds id task w) ∧
    (∀ task id, operations w task = some (.begin (.remove id)) → RemovesOwn id task w) := by
  have kept := reached.wellKept
  have numbered := reached.numbered
  exact ⟨kept, tells numbered, fun task id there ready => adds kept numbered there ready,
    fun task id there => removesOwn kept numbered there⟩

/-- A listener is added, a removal cancels it and is given up, and another task has the lock to add
one with the same id while a third is about to remove whoever has it then. -/
def readding : List (Deed Nat) :=
  [.start (.operation (.begin (.add ⟨7⟩))), .run 0, .run 0,
    .start (.operation (.begin (.remove ⟨7⟩))), .run 1, .abandon 1,
    .start (.operation (.begin (.add ⟨7⟩))), .run 2,
    .start (.operation (.begin (.remove ⟨7⟩)))]

theorem membership_kept_after_aborted_removal :
    let w : Site Nat := (vacant 0).applyAll machine readding
    Reached 0 w ∧ w.state.WellKept 1 ∧ ¬ w.state.Registered ⟨7⟩ ∧
      (w.run machine 2).state.entries = [(⟨7⟩, 1)] ∧ RemovesOwn ⟨7⟩ 3 w := by
  have reached : Reached 0 ((vacant 0 : Site Nat).applyAll machine readding) := ⟨readding, rfl⟩
  obtain ⟨kept, -, adds, removes⟩ := membership_kept reached
  have free : ¬ ((vacant 0 : Site Nat).applyAll machine readding).state.Registered ⟨7⟩ := by
    rw [← contains_iff_registered]
    decide
  exact ⟨reached, kept, free, ((adds 2 ⟨7⟩ rfl rfl).linked free).2.1, removes 3 ⟨7⟩ rfl⟩

end RegistryTask

end HardwareSigner
