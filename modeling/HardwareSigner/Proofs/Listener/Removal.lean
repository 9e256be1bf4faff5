import HardwareSigner.Proofs.Listener.Registrations

/-!
# What a removal is answered

Whether there is a listener to remove is decided without the lock and without a look at the
receivers: the token of the id must be there and not be cancelled. So a listener whose receiver has
been dropped can still be removed, once, as long as nobody has unlinked it (`Registry.Departed`),
although nobody is told any more that it is there. Only where there is no such listener do the two
agree:

> `RegistryTask.removal_goes_by_token`: a removal succeeds exactly if the id is registered or its
> listener has departed and is still linked; otherwise it fails and changes nothing.
-/

namespace HardwareSigner

namespace Registry

variable {M : Type} {limit : Nat} {r : Registry M} {id : ListenerId} {box : MailboxId}

/-- The receiver of a listener has been dropped, but nobody has removed or unlinked it. -/
def Departed (r : Registry M) (id : ListenerId) : Prop :=
  ∃ box b, (id, box) ∈ r.entries ∧ r.mailbox? box = some b ∧ b.cancelled = false ∧ b.dropped = true

theorem WellKept.lookup_of_mem (kept : r.WellKept limit) (there : (id, box) ∈ r.entries) :
    r.tokens.lookup id = some box := by
  rw [kept.tokens]
  cases found : r.entries.lookup id with
  | none => exact absurd (List.lookup_eq_none_iff.mp found _ there) (by simp)
  | some other =>
    obtain ⟨before, behind, entries, -⟩ := List.lookup_eq_some_iff.mp found
    have linked : (id, other) ∈ r.entries :=
      entries ▸ List.mem_append_right before List.mem_cons_self
    exact congrArg some (kept.eq_of_mem linked there)

/-- What can be removed is linked and has not been removed. -/
theorem WellKept.removable?_eq_some (kept : r.WellKept limit) :
    r.removable? id = some box ↔
      (id, box) ∈ r.entries ∧ ∃ b, r.mailbox? box = some b ∧ b.cancelled = false := by
  constructor
  · intro found
    have there := RegistryTask.mem_of_removable? kept found
    refine ⟨there, ?_⟩
    unfold removable? at found
    rw [kept.lookup_of_mem there] at found
    simp only at found
    split at found
    next => cases found
    next standing =>
      cases known : r.mailbox? box with
      | none => rw [known] at standing; exact absurd rfl standing
      | some b =>
        rw [known] at standing
        exact ⟨b, rfl, Bool.eq_false_iff.mpr standing⟩
  · rintro ⟨there, b, known, standing⟩
    unfold removable?
    rw [kept.lookup_of_mem there]
    simp only [known, Option.map_some, Option.getD_some, standing]
    exact if_neg Bool.false_ne_true

/-- There is something to remove if the id is registered, or its listener has departed. -/
theorem WellKept.removable?_isSome (kept : r.WellKept limit) :
    (∃ box, r.removable? id = some box) ↔ r.Registered id ∨ r.Departed id := by
  constructor
  · rintro ⟨box, found⟩
    obtain ⟨there, b, known, standing⟩ := kept.removable?_eq_some.mp found
    cases gone : b.dropped with
    | false => exact Or.inl ⟨box, there, b, known, standing, gone⟩
    | true => exact Or.inr ⟨box, b, there, known, standing, gone⟩
  · rintro (⟨box, there, b, known, standing, -⟩ | ⟨box, b, there, known, standing, -⟩) <;>
      exact ⟨box, kept.removable?_eq_some.mpr ⟨there, b, known, standing⟩⟩

theorem WellKept.removable?_eq_none (kept : r.WellKept limit) (free : ¬ r.Registered id)
    (nobody : ¬ r.Departed id) : r.removable? id = none := by
  cases found : r.removable? id with
  | none => rfl
  | some box => exact absurd (kept.removable?_isSome.mp ⟨box, found⟩) (by simp [free, nobody])

theorem live_cancel_self (r : Registry M) (box : MailboxId) : (r.cancel box).live box = false := by
  unfold Registry.live cancel
  rw [mailbox?_update_self]
  cases r.mailbox? box <;> rfl

/-- Once the listener that has an id is cancelled, the others are those who are live. -/
theorem WellKept.liveEntries_cancel (kept : r.WellKept limit) (there : (id, box) ∈ r.entries) :
    (r.cancel box).liveEntries = r.liveEntries.filter fun entry => entry.1 != id := by
  unfold liveEntries
  rw [List.filter_filter]
  refine List.filter_congr fun entry among => ?_
  by_cases same : entry.1 = id
  · -- Who has the id is the one that is cancelled.
    have one : entry = (id, box) := List.inj_on_of_nodup_map kept.ids among there same
    rw [one, live_cancel_self]
    simp
  · have different : entry.2 ≠ box := by
      intro here
      have one := List.inj_on_of_nodup_map (kept.ordered.nodup List.nodup_range) among there here
      exact same (congrArg Prod.fst one)
    rw [bne_iff_ne.mpr same, Bool.true_and]
    exact live_update_of_ne r box Mailbox.cancel different

end Registry

namespace RegistryTask

open Operation (Phase)

variable {M : Type} {w : Site M} {task : TaskId} {id : ListenerId}

/-- What a removal is told when it succeeds. -/
def removed : Answer M := .operation (.removed (.ok ()))

/-- A task that is removing a listener can only succeed. -/
theorem Leaving.result? (leaving : Leaving task w)
    (so_far : ∀ answer, w.result? task = some answer → answer = removed) (deed : Deed M) :
    ∀ answer, (w.apply machine deed).result? task = some answer → answer = removed := by
  intro answer finished
  cases deed with
  | start phase => exact so_far answer finished
  | run other =>
    have finished : (w.run machine other).result? task = some answer := finished
    rcases World.run_cases machine w other with same | ⟨found, at_work, ready⟩
    · rw [same] at finished
      exact so_far answer finished
    · rw [World.result?_run at_work ready] at finished
      cases earlier : w.result? task with
      | some before =>
        rw [earlier, Option.some_or] at finished
        exact so_far answer (earlier.trans finished)
      | none =>
        rw [earlier, Option.none_or] at finished
        split at finished
        next mine =>
          subst mine
          rcases leaving.phase with removing | gone
          · rw [removing] at at_work
            cases at_work
            cases finished
            rfl
          · rw [gone] at at_work
            cases at_work
        next => cases finished
  | abandon other =>
    rw [World.result?_abandon] at finished
    exact so_far answer finished
  | outside act => exact so_far answer finished
  | wait ms => exact so_far answer finished

theorem Leaving.result?_applyAll (leaving : Leaving task w)
    (so_far : ∀ answer, w.result? task = some answer → answer = removed) (deeds : List (Deed M)) :
    ∀ answer, (w.applyAll machine deeds).result? task = some answer → answer = removed := by
  induction deeds generalizing w with
  | nil => exact so_far
  | cons deed deeds ih => exact ih (leaving.apply deed) (leaving.result? so_far deed)

/-- A removal has been called and has taken its first step. -/
def called (w : Site M) (id : ListenerId) : Site M :=
  (w.start (.operation (.begin (.remove id)))).run machine w.next

/-- What comes of calling a removal. -/
structure Removal (w : Site M) (id : ListenerId) : Prop where
  /-- There is nobody to remove: it fails at once and nothing has changed. -/
  unknown : ¬ w.state.Registered id → ¬ w.state.Departed id →
    (called w id).result? w.next = some (.operation (.removed (.error (.unknownListener id)))) ∧
      (called w id).state = w.state
  /-- There is somebody: it does not fail, whatever others do. -/
  succeeds : w.state.Registered id ∨ w.state.Departed id →
    ∀ deeds answer, ((called w id).applyAll machine deeds).result? w.next = some answer →
      answer = removed
  /-- If nobody else is at work on the registry, it is done with its next step. The listener is
  gone, all other live ones are linked as before, and no other mailbox has been touched. -/
  done : w.state.Registered id ∨ w.state.Departed id → w.state.lock.queue = [] →
    let after := (called w id).run machine w.next
    after.result? w.next = some removed ∧
      after.state.entries = w.state.liveEntries.filter (fun entry => entry.1 != id) ∧
      after.state.tokens = after.state.entries ∧
      ∀ box, (id, box) ∉ w.state.entries → after.state.mailbox? box = w.state.mailbox? box

theorem operations_start (numbered : w.Numbered) (phase : Phase M) :
    operations (w.start (.operation phase)) w.next = some phase := by
  have at_work : (w.start (.operation phase)).phase? w.next = some (.operation phase) := by
    rw [World.phase?_start numbered, Work.set_self]
  exact operations_of_some at_work

theorem called_of_unknown (numbered : w.Numbered) (unknown : w.state.removable? id = none) :
    (called w id).result? w.next = some (.operation (.removed (.error (.unknownListener id)))) ∧
      (called w id).state = w.state := by
  have there := operations_start numbered (.begin (.remove id))
  have step : (Phase.begin (.remove id)).step w.next w.state = _ := step_of_unknown unknown
  have ready := ready_of_operations there rfl
  refine ⟨result?_run_operation (numbered.start _) there ready ?_, ?_⟩
  · exact congrArg Prod.fst step
  · exact (state_run_operation there ready).trans (congrArg Prod.snd step)

/-- With its first step a removal that finds somebody cancels the listener and asks for the lock. -/
theorem called_of_removable (numbered : w.Numbered) {box : MailboxId}
    (found : w.state.removable? id = some box) :
    (called w id).state = (w.state.cancel box).asks w.next .exclusive ∧
      operations (called w id) w.next = some .removing ∧ (called w id).result? w.next = none := by
  have there := operations_start numbered (.begin (.remove id))
  have step : (Phase.begin (.remove id)).step w.next w.state = _ := step_of_removable found
  have ready := ready_of_operations there rfl
  have phase := phase?_run_operation there ready
  rw [show (Phase.begin (.remove id)).step w.next (w.start _).state = _ from step] at phase
  refine ⟨(state_run_operation there ready).trans (congrArg Prod.snd step),
    operations_of_some phase, ?_⟩
  -- Only who has finished has a result.
  cases finished : (called w id).result? w.next with
  | none => rfl
  | some answer =>
    have gone := (((numbered.start _).apply machine (.run w.next)).finished _ _ finished).2
    cases gone.symm.trans phase

/-- If nobody else is at work, the next step of a removal is its last. -/
theorem done_of_removable (numbered : w.Numbered) {box : MailboxId}
    (found : w.state.removable? id = some box) (free : w.state.lock.queue = []) :
    ((called w id).run machine w.next).result? w.next = some removed ∧
      ((called w id).run machine w.next).state =
        ((w.state.cancel box).asks w.next .exclusive).unlinkDead.releases w.next := by
  obtain ⟨state, removing, -⟩ := called_of_removable numbered found
  have numbered' : (called w id).Numbered := (numbered.start _).apply machine (.run w.next)
  have lock : w.state.lock = {} := congrArg Lock.mk free
  have granted : (called w id).state.lock.granted w.next = true := by
    rw [state]
    show (w.state.lock.request w.next .exclusive).granted w.next = true
    rw [lock]
    exact Lock.granted_of_first rfl
  have ready := ready_of_operations removing granted
  refine ⟨result?_run_operation numbered' removing ready rfl, ?_⟩
  rw [state_run_operation removing ready, ← state]
  rfl

theorem removal {limit : Nat} (kept : w.state.WellKept limit) (numbered : w.Numbered)
    (id : ListenerId) : Removal w id where
  unknown := by
    intro free nobody
    exact called_of_unknown numbered (kept.removable?_eq_none free nobody)
  succeeds := by
    intro somebody
    obtain ⟨box, found⟩ := kept.removable?_isSome.mpr somebody
    obtain ⟨-, -, unfinished⟩ := called_of_removable numbered found
    have leaving : Leaving w.next (called w id) :=
      leaving_of_begin (numbered.start _) (operations_start numbered _)
    refine leaving.result?_applyAll fun answer finished => ?_
    rw [unfinished] at finished
    cases finished
  done := by
    intro somebody free
    obtain ⟨box, found⟩ := kept.removable?_isSome.mpr somebody
    have there := (kept.removable?_eq_some.mp found).1
    obtain ⟨answered, state⟩ := done_of_removable numbered found free
    refine ⟨answered, ?_, ?_, fun other unlinked => ?_⟩ <;> rw [state]
    · exact kept.liveEntries_cancel there
    · exact (((kept.cancels box).asks w.next .exclusive).unlinkDead.releases w.next).tokens
    · have different : other ≠ box := fun same => unlinked (same ▸ there)
      exact Registry.mailbox?_update_of_ne w.state different Mailbox.cancel

/-- **The law of removal.** In every world that can be reached a removal succeeds if the id is
registered, and also if its listener has departed and is still linked; otherwise it fails at once.
Where no such listener is linked, it succeeds for exactly the ids that are there when asked for. -/
theorem removal_goes_by_token {capacity : Nat} {w : Site M} (reached : Reached capacity w)
    (id : ListenerId) :
    Removal w id ∧ (w.state.contains id = true ↔ w.state.Registered id) ∧
      (w.state.Departed id → w.state.contains id = false) := by
  have kept := reached.wellKept
  refine ⟨removal kept reached.numbered id, contains_iff_registered w.state id, ?_⟩
  rintro ⟨box, b, there, known, -, gone⟩
  rw [Bool.eq_false_iff, Ne, contains_iff_registered]
  rintro ⟨other, also, b', known', -, present⟩
  rw [kept.eq_of_mem also there, known] at known'
  cases known'
  rw [present] at gone
  cases gone

/-- A listener is added and its receiver is dropped. -/
def departing : List (Deed Nat) :=
  [.start (.operation (.begin (.add ⟨1⟩))), .run 0, .run 0, .outside (.drop 0)]

/-- Nobody is told that the listener is there, and yet it can be removed. -/
theorem departed_listener_is_removed :
    let w : Site Nat := (vacant 1).applyAll machine departing
    Reached 1 w ∧ w.state.contains ⟨1⟩ = false ∧
      ((called w ⟨1⟩).run machine w.next).result? w.next = some removed := by
  have reached : Reached 1 ((vacant 1 : Site Nat).applyAll machine departing) := ⟨departing, rfl⟩
  have departed : ((vacant 1 : Site Nat).applyAll machine departing).state.Departed ⟨1⟩ :=
    ⟨0, { dropped := true }, by decide, rfl, rfl, rfl⟩
  obtain ⟨removal, -, absent⟩ := removal_goes_by_token reached ⟨1⟩
  exact ⟨reached, absent departed, (removal.done (Or.inr departed) rfl).1⟩

end RegistryTask

end HardwareSigner
