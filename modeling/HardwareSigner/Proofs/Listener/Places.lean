import HardwareSigner.Proofs.Listener.Registrations

/-!
# Waiting for a place

A dispatch that finds a mailbox full waits in line there, and nobody else does (`Registry.Parked`).
With one dispatch at a time the line has at most one task in it, so a place that is free is free for
the dispatch.

> `Operation.Phase.Steps.senders`: what a step makes of those who wait in a mailbox.
> `RegistryTask.visits_run_iff`: a dispatch that has come to a listener stays with it in its next
> step exactly if the listener is live, its mailbox is full and the registry has not been shut down.
-/

namespace HardwareSigner

namespace Registry

variable {M : Type}

/-- The tasks that wait for a place in a mailbox, in order of arrival. -/
def senders (r : Registry M) (box : MailboxId) : List TaskId :=
  ((r.mailbox? box).map Mailbox.senders).getD []

/-- A listener that cannot be served now: it is live, but there is no place in its mailbox, and the
registry has not been shut down. -/
structure Blocks (box : MailboxId) (r : Registry M) : Prop where
  live : r.live box = true
  full : r.pending box = r.capacity
  unshut : r.shutdown = false

section

variable (r : Registry M) (box : MailboxId)

theorem senders_update_self (change : Mailbox M → Mailbox M) :
    (r.update box change).senders box =
      ((r.mailbox? box).map (Mailbox.senders ∘ change)).getD [] := by
  unfold senders
  rw [mailbox?_update_self, Option.map_map]

variable {box} in
theorem senders_update_of_ne {other : MailboxId} (different : other ≠ box)
    (change : Mailbox M → Mailbox M) : (r.update box change).senders other = r.senders other := by
  unfold senders
  rw [mailbox?_update_of_ne r different]

theorem senders_update (change : Mailbox M → Mailbox M)
    (same : ∀ b, (change b).senders = b.senders) (other : MailboxId) :
    (r.update box change).senders other = r.senders other := by
  by_cases here : other = box
  · rw [here, senders_update_self]
    unfold senders
    cases r.mailbox? box with
    | none => rfl
    | some b => exact same b
  · exact senders_update_of_ne r here change

theorem senders_leave (task : TaskId) (other : MailboxId) :
    (r.update box (·.leave task)).senders other =
      if box = other then (r.senders other).filter (· != task) else r.senders other := by
  by_cases here : box = other
  · rw [if_pos here, here, senders_update_self]
    unfold senders
    cases r.mailbox? other <;> rfl
  · rw [if_neg here]
    exact senders_update_of_ne r (Ne.symm here) _

theorem senders_cancelAll (box : MailboxId) : r.cancelAll.senders box = r.senders box :=
  List.foldlRecOn (motive := fun (after : Registry M) => after.senders box = r.senders box) r.tokens
    _ rfl fun after same token _ =>
      (senders_update after token.2 Mailbox.cancel (fun _ => rfl) box).trans same

theorem senders_offerAll (event : Event M) (box : MailboxId) :
    (r.offerAll event).2.senders box = r.senders box :=
  List.foldlRecOn (motive := fun (after : Registry M) => after.senders box = r.senders box) _ _ rfl
    fun after same listener _ =>
      (senders_update after listener (·.accept event) (fun _ => rfl) box).trans same

/-- Nobody waits yet in a mailbox that has just been linked. -/
theorem senders_link (id : ListenerId) (box : MailboxId) :
    (r.link id).2.senders box = r.senders box := by
  rcases link_cases r id with refused | ⟨after, linked, mailboxes, -, -⟩
  · rw [refused]
    rfl
  · rw [linked]
    unfold senders mailbox?
    rw [mailboxes]
    by_cases known : box < r.mailboxes.length
    · rw [List.getElem?_append_left known]
    · have unknown := Nat.le_of_not_lt known
      rw [List.getElem?_append_right unknown, List.getElem?_eq_none unknown,
        List.getElem?_singleton]
      split <;> rfl

theorem senders_act (act : Act) (box : MailboxId) : (r.act act).senders box = r.senders box := by
  cases act with
  | take other =>
    show (((r.receive? other).map Prod.snd).getD r).senders box = _
    unfold receive?
    split
    next => rfl
    next event rest found =>
      obtain ⟨b, there, takes⟩ := Option.bind_eq_some_iff.mp found
      by_cases here : box = other
      · subst here
        show (r.update box fun _ => rest).senders box = _
        rw [senders_update_self]
        unfold senders
        rw [there]
        unfold Mailbox.take? at takes
        split at takes
        next => cases takes
        next =>
          obtain ⟨-, rfl⟩ := Prod.mk.inj (Option.some.inj takes)
          rfl
      · exact senders_update_of_ne r here _
  | drain other => exact senders_update r other Mailbox.drained (fun _ => rfl) box
  | drop other => exact senders_update r other Mailbox.drop (fun _ => rfl) box
  | shutdown => rfl

end

section

variable {r : Registry M} {box : MailboxId}

/-- A place is free for somebody new if there are more than there are tasks that wait for one. -/
theorem hasRoom_iff (live : r.live box = true) :
    r.hasRoom box = true ↔ r.pending box + (r.senders box).length < r.capacity := by
  unfold Registry.live at live
  unfold hasRoom pending senders
  cases there : r.mailbox? box with
  | none => rw [there] at live; cases live
  | some b => exact decide_eq_true_iff

/-- The only task that waits in a mailbox is roused by a free place. -/
theorem roused_iff {task : TaskId} (alone : r.senders box = [task]) :
    Operation.Phase.roused r task box = true ↔
      r.shutdown = true ∨ r.live box = false ∨ r.pending box < r.capacity := by
  unfold senders at alone
  unfold Operation.Phase.roused pending
  cases there : r.mailbox? box with
  | none => rw [there] at alone; cases alone
  | some b =>
    rw [there] at alone
    have only : b.senders = [task] := alone
    have first : b.admits r.capacity task = decide (b.size < r.capacity) := by
      unfold Mailbox.admits
      rw [only, show [task].idxOf? task = some 0 by simp [List.idxOf?, List.findIdx?_cons]]
      rfl
    simp only [Option.map_some, Option.getD_some, first, Bool.or_eq_true, Bool.not_eq_true',
      decide_eq_true_iff, or_assoc]

end

end Registry

namespace Operation

namespace Phase

variable {M : Type}

/-- The listener that a dispatch has come to, with the event and with those that come after it. -/
def slot? : Phase M → Option (Event M × MailboxId × List MailboxId)
  | .offering event (box :: rest) _ _ => some (event, box, rest)
  | .parked event box rest _ _ => some (event, box, rest)
  | _ => none

/-- The mailbox in which a task waits for a place. -/
def waitsAt? : Phase M → Option MailboxId
  | .parked _ box _ _ _ => some box
  | _ => none

theorem offers_of_waitsAt {phase : Phase M} {box : MailboxId} (waits : phase.waitsAt? = some box) :
    phase.offers = true := by
  cases phase with
  | parked => rfl
  | _ => cases waits

section

variable {phase : Phase M} {event : Event M} {box : MailboxId} {rest : List MailboxId}

/-- A dispatch comes to a listener and may have to wait there. -/
theorem slot?_eq_some (slot : phase.slot? = some (event, box, rest)) :
    ∃ delivered stale, phase = .offering event (box :: rest) delivered stale ∨
      phase = .parked event box rest delivered stale := by
  cases phase with
  | offering told all delivered stale =>
    cases all with
    | nil => cases slot
    | cons next others =>
      cases slot
      exact ⟨delivered, stale, Or.inl rfl⟩
  | parked told next others delivered stale =>
    cases slot
    exact ⟨delivered, stale, Or.inr rfl⟩
  | _ => cases slot

theorem offers_of_slot (slot : phase.slot? = some (event, box, rest)) : phase.offers = true := by
  obtain ⟨delivered, stale, rfl | rfl⟩ := slot?_eq_some slot <;> rfl

/-- Whoever goes on to the next listener does not come to this one again. -/
theorem slot?_rest_ne (told : Event M) (delivered : Nat) (stale : Bool) :
    (Phase.offering told rest delivered stale).slot? ≠ some (event, box, rest) := by
  cases rest with
  | nil => exact fun same => by cases same
  | cons next others =>
    intro same
    have shorter : others = next :: others :=
      (Prod.mk.inj (Prod.mk.inj (Option.some.inj same)).2).2
    exact absurd (congrArg List.length shorter) (Nat.ne_of_lt (Nat.lt_succ_self _))

end

section

variable {task : TaskId} {phase : Phase M} {next : Phase M ⊕ Answer} {r after : Registry M}

theorem waitsAt?_of_asks {operation : Operation M} {mode : LockMode} {next : Phase M}
    (asks : operation.Asks mode next) : next.waitsAt? = none := by
  cases asks <;> rfl

theorem WrapsUp.senders {delivered : Nat} {stale : Bool}
    (wraps : WrapsUp task delivered r stale next after) (box : MailboxId) :
    after.senders box = r.senders box ∧ next.getLeft?.bind waitsAt? = none := by
  cases wraps <;> exact ⟨rfl, rfl⟩

theorem Faces.senders {event : Event M} {listener : MailboxId} {rest : List MailboxId}
    {delivered : Nat} {stale : Bool} {left : Registry M}
    (faces : Faces task event listener rest delivered stale r phase left) (box : MailboxId) :
    left.senders box = if phase.waitsAt? = some box then (r.senders box).filter (· != task)
      else r.senders box := by
  cases faces with
  | comes => rfl
  | waited =>
    show _ = if some listener = some box then _ else _
    simp only [Option.some.injEq]
    exact Registry.senders_leave r listener task box

/-- A task that is not parked any more has left the line in its mailbox, and one that parks has
joined it. -/
theorem Steps.senders (steps : Steps task r phase next after) (box : MailboxId) :
    after.senders box =
      (if phase.waitsAt? = some box then (r.senders box).filter (· != task) else r.senders box) ++
        if next.getLeft?.bind waitsAt? = some box then [task] else [] := by
  have quiet : after.senders box = r.senders box → phase.waitsAt? = none →
      next.getLeft?.bind Phase.waitsAt? = none → after.senders box =
        (if phase.waitsAt? = some box then (r.senders box).filter (· != task)
          else r.senders box) ++ if next.getLeft?.bind Phase.waitsAt? = some box then [task]
            else [] := by
    intro same before behind
    rw [before, behind, same]
    exact (List.append_nil _).symm
  cases steps with
  | asks asks => exact quiet rfl rfl (waitsAt?_of_asks asks)
  | @cancels id listener there =>
    exact quiet (Registry.senders_update r listener Mailbox.cancel (fun _ => rfl) box) rfl rfl
  | cancelsAll => exact quiet (Registry.senders_cancelAll r box) rfl rfl
  | links id => exact quiet (Registry.senders_link r id box) rfl rfl
  | wrapsUp wraps => exact quiet (wraps.senders box).1 rfl (wraps.senders box).2
  | passes faces dead => exact (faces.senders box).trans (List.append_nil _).symm
  | quits faces shut => exact (faces.senders box).trans (List.append_nil _).symm
  | @gives event listener _ _ _ _ left faces live unshut room =>
    refine (Registry.senders_update left listener (·.accept event) (fun _ => rfl) box).trans ?_
    exact (faces.senders box).trans (List.append_nil _).symm
  | @parks event listener rest delivered stale live unshut full =>
    show _ = r.senders box ++ if some listener = some box then [task] else []
    simp only [Option.some.injEq]
    by_cases here : listener = box
    · rw [if_pos here, here, Registry.senders_update_self]
      unfold Registry.senders
      unfold Registry.live at live
      rw [here] at live
      cases there : r.mailbox? box with
      | none => rw [there] at live; cases live
      | some b => rfl
    · rw [if_neg here, List.append_nil]
      exact Registry.senders_update_of_ne r (Ne.symm here) _
  | tries wraps =>
    refine quiet ?_ rfl (wraps.senders box).2
    exact (wraps.senders box).1.trans (Registry.senders_offerAll r _ box)
  | _ => exact quiet rfl rfl rfl

/-- A dispatch stays with the listener that it has come to only to wait for a place there. -/
theorem Steps.stays_iff (steps : Steps task r phase next after) {event : Event M} {box : MailboxId}
    {rest : List MailboxId} (slot : phase.slot? = some (event, box, rest)) :
    next.getLeft?.bind slot? = some (event, box, rest) ↔
      phase.waitsAt? = none ∧ r.live box = true ∧ r.shutdown = false ∧ r.hasRoom box = false := by
  have leaves : ∀ {told delivered stale},
      (Phase.offering told rest delivered stale).slot? ≠ some (event, box, rest) :=
    fun {told delivered stale} => slot?_rest_ne told delivered stale
  obtain ⟨delivered, stale, rfl | rfl⟩ := slot?_eq_some slot
  · cases steps with
    | passes faces dead =>
      cases faces
      refine iff_of_false leaves fun ⟨_, live, _⟩ => ?_
      rw [dead] at live
      cases live
    | quits faces shut =>
      cases faces
      refine iff_of_false (fun same => nomatch same) fun ⟨_, _, unshut, _⟩ => ?_
      rw [unshut] at shut
      cases shut
    | gives faces live unshut room =>
      cases faces
      refine iff_of_false leaves fun ⟨_, _, _, full⟩ => ?_
      rw [room rfl] at full
      cases full
    | parks live unshut full => exact iff_of_true rfl ⟨rfl, live, unshut, full⟩
  · -- Whoever has waited goes on.
    refine iff_of_false ?_ fun ⟨waits, _⟩ => by cases waits
    cases steps with
    | passes faces dead => cases faces; exact leaves
    | quits faces shut => exact fun same => nomatch same
    | gives faces live unshut room => cases faces; exact leaves

end

end Phase

end Operation

namespace Registry

open Operation (Phase)

variable {M : Type}

/-- Those who wait in a mailbox are the tasks that are parked there. -/
structure Parked (work : Work (Phase M)) (r : Registry M) : Prop where
  mem : ∀ box task, task ∈ r.senders box ↔ (work task).bind Phase.waitsAt? = some box
  once : ∀ box, (r.senders box).Nodup

theorem parked_empty (capacity : Nat) :
    Parked (fun _ => none) (empty capacity : Registry M) where
  mem _ _ := iff_of_false List.not_mem_nil fun same => nomatch same
  once _ := List.nodup_nil

namespace Parked

variable {work : Work (Phase M)} {r after : Registry M} {task : TaskId} {phase : Phase M}

/-- Nobody has come to wait anywhere or has stopped waiting. -/
theorem set (parked : Parked work r) (same : ∀ box, after.senders box = r.senders box)
    {next? : Option (Phase M)} (before : (work task).bind Phase.waitsAt? = none)
    (behind : next?.bind Phase.waitsAt? = none) : Parked (Work.set work task next?) after where
  mem box other := by
    rw [same, parked.mem]
    by_cases here : other = task
    · rw [here, Work.set_self, before, behind]
    · rw [Work.set_of_ne _ _ _ here]
  once box := by
    rw [same]
    exact parked.once box

/-- Who has left the place where it waited waits nowhere. -/
theorem not_mem_others (parked : Parked work r) (there : work task = some phase)
    (box : MailboxId) :
    task ∉ if phase.waitsAt? = some box then (r.senders box).filter (· != task)
      else r.senders box := by
  split
  next => simp
  next elsewhere =>
    rw [parked.mem, there]
    exact elsewhere

theorem step (parked : Parked work r) (there : work task = some phase) :
    Parked (Work.set work task (phase.step task r).1.getLeft?) (phase.step task r).2 where
  mem box other := by
    rw [(phase.steps task r).senders box]
    by_cases here : other = task
    · subst here
      rw [Work.set_self, List.mem_append]
      rw [or_iff_right (parked.not_mem_others there box)]
      split
      next comes => exact iff_of_true (List.mem_singleton_self _) comes
      next goes => exact iff_of_false List.not_mem_nil goes
    · rw [Work.set_of_ne _ _ _ here, ← parked.mem, List.mem_append]
      have alone : other ∉ if (phase.step task r).1.getLeft?.bind Phase.waitsAt? = some box
          then [task] else [] := by
        split
        next => exact fun same => here (List.mem_singleton.mp same)
        next => exact List.not_mem_nil
      rw [or_iff_left alone]
      split
      next => simp [here]
      next => rfl
  once box := by
    rw [(phase.steps task r).senders box, List.nodup_append]
    refine ⟨?_, ?_, ?_⟩
    · split
      · exact (parked.once box).filter _
      · exact parked.once box
    · split
      · exact List.nodup_singleton task
      · exact List.nodup_nil
    · intro first before second behind
      split at behind
      next =>
        rw [List.mem_singleton.mp behind]
        rintro rfl
        exact parked.not_mem_others there box before
      next => cases behind

end Parked

/-! ## One dispatch at a time -/

section

variable {work : Work (Phase M)} {r : Registry M} {task : TaskId} {phase : Phase M}

/-- Nobody waits anywhere while somebody dispatches without waiting. -/
theorem Parked.senders_eq_nil (parked : Parked work r) (sound : Sound work r)
    (there : work task = some phase) (offers : phase.offers = true) (goes : phase.waitsAt? = none)
    (box : MailboxId) : r.senders box = [] := by
  rw [List.eq_nil_iff_forall_not_mem]
  intro other waits
  obtain ⟨found, at_work, parks⟩ := Option.bind_eq_some_iff.mp ((parked.mem box other).mp waits)
  have same := sound.single other task found phase at_work there (Phase.offers_of_waitsAt parks)
    offers
  rw [same, there] at at_work
  cases at_work
  rw [goes] at parks
  cases parks

/-- Where somebody waits he waits alone. -/
theorem Parked.senders_eq_singleton (parked : Parked work r) (sound : Sound work r)
    (there : work task = some phase) {box : MailboxId} (waits : phase.waitsAt? = some box) :
    r.senders box = [task] := by
  have mine : task ∈ r.senders box := (parked.mem box task).mpr (by rw [there]; exact waits)
  have only : ∀ other ∈ r.senders box, other = task := by
    intro other also
    obtain ⟨found, at_work, parks⟩ := Option.bind_eq_some_iff.mp ((parked.mem box other).mp also)
    exact sound.single other task found phase at_work there (Phase.offers_of_waitsAt parks)
      (Phase.offers_of_waitsAt waits)
  have once := parked.once box
  cases line : r.senders box with
  | nil => rw [line] at mine; cases mine
  | cons first others =>
    rw [line] at only once
    obtain rfl := only first List.mem_cons_self
    have nobody : others = [] := by
      rw [List.eq_nil_iff_forall_not_mem]
      intro other also
      obtain rfl := only other (List.mem_cons_of_mem _ also)
      exact (List.nodup_cons.mp once).1 also
    rw [nobody]

end

end Registry

namespace RegistryTask

open Operation (Phase)
open Registry (Parked Sound Blocks)

variable {M : Type} {w : Site M} {task : TaskId}

theorem parked_effect {began took : List (TaskId × Event M)} {work : Work (Phase M)}
    {r : Registry M} (parked : Parked (operations w) w.state)
    (effect : Effect w began took work r) : Parked work r := by
  cases effect with
  | same => exact parked
  | begins operation fresh alone early =>
    exact parked.set (fun _ => rfl) (by rw [fresh]; rfl) rfl
  | steps task phase there => exact parked.step there
  | leaves task phase there idle =>
    refine parked.set (fun box => ?_) ?_ rfl
    · cases phase with
      | parked => cases idle
      | _ => rfl
    · rw [there]
      cases phase with
      | parked => cases idle
      | _ => rfl
  | acts act =>
    refine ⟨fun box other => ?_, fun box => ?_⟩ <;> rw [Registry.senders_act]
    · exact parked.mem box other
    · exact parked.once box

/-! ## Coming to a listener -/

/-- A dispatch has the lock and has come to a listener: it has not served it, nor the `rest`. -/
def Visits (task : TaskId) (event : Event M) (box : MailboxId) (rest : List MailboxId)
    (w : Site M) : Prop :=
  (operations w task).bind Phase.slot? = some (event, box, rest)

section

variable {event : Event M} {box : MailboxId} {rest : List MailboxId}

theorem Visits.exists_phase (visits : Visits task event box rest w) :
    ∃ phase, operations w task = some phase ∧ phase.slot? = some (event, box, rest) :=
  Option.bind_eq_some_iff.mp visits

theorem operations_run {phase : Phase M} (there : operations w task = some phase)
    (ready : w.ready machine task = true) :
    operations (w.run machine task) task = (phase.step task w.state).1.getLeft? := by
  unfold operations
  rw [phase?_run_operation there ready]
  cases (phase.step task w.state).1 <;> rfl

theorem ready_eq {phase : Phase M} (there : operations w task = some phase) :
    w.ready machine task = phase.ready task w.state := by
  unfold World.ready
  rw [phase?_of_operations there]
  rfl

/-- **Backpressure is the only reason to wait.** -/
theorem visits_run_iff (parked : Parked (operations w) w.state)
    (sound : Sound (operations w) w.state)
    (bounded : w.state.pending box ≤ w.state.capacity) (visits : Visits task event box rest w) :
    Visits task event box rest (w.run machine task) ↔ Blocks box w.state := by
  obtain ⟨phase, there, slot⟩ := visits.exists_phase
  have stays := (phase.steps task w.state).stays_iff slot
  have offers := Phase.offers_of_slot slot
  have turn : w.ready machine task = true → (Visits task event box rest (w.run machine task) ↔
      (phase.step task w.state).1.getLeft?.bind Phase.slot? = some (event, box, rest)) := by
    intro ready
    unfold Visits
    rw [operations_run there ready]
  obtain ⟨delivered, stale, rfl | rfl⟩ := Phase.slot?_eq_some slot
  · -- Nobody waits in the mailbox, so a free place can be had.
    have nobody := parked.senders_eq_nil sound there offers rfl box
    rw [turn (ready_of_operations there rfl), stays]
    constructor
    · rintro ⟨-, live, unshut, full⟩
      have none := mt (Registry.hasRoom_iff live).mpr (Bool.eq_false_iff.mp full)
      rw [nobody] at none
      exact ⟨live, Nat.le_antisymm bounded (Nat.le_of_not_lt none), unshut⟩
    · rintro ⟨live, full, unshut⟩
      refine ⟨rfl, live, unshut, Bool.eq_false_iff.mpr fun room => ?_⟩
      have free := (Registry.hasRoom_iff live).mp room
      rw [nobody, full] at free
      exact Nat.lt_irrefl _ free
  · have alone := parked.senders_eq_singleton sound there (rfl : Phase.waitsAt? _ = some box)
    have roused := Registry.roused_iff alone
    cases ready : w.ready machine task with
    | false =>
      rw [World.run_of_not_ready ready]
      refine iff_of_true visits ?_
      rw [ready_eq there] at ready
      have asleep := mt roused.mpr (Bool.eq_false_iff.mp ready)
      rw [not_or, not_or] at asleep
      exact ⟨Bool.not_eq_false _ ▸ asleep.2.1,
        Nat.le_antisymm bounded (Nat.le_of_not_lt asleep.2.2), Bool.eq_false_iff.mpr asleep.1⟩
    | true =>
      rw [turn ready, stays]
      refine iff_of_false (fun ⟨waits, _⟩ => by cases waits) fun ⟨live, full, unshut⟩ => ?_
      rw [ready_eq there] at ready
      rcases roused.mp ready with shut | dead | free
      · rw [unshut] at shut
        cases shut
      · rw [live] at dead
        cases dead
      · exact absurd full (Nat.ne_of_lt free)

/-- A dispatch that is parked can take its next step exactly if it goes on with it. -/
theorem ready_iff_leaves (visits : Visits task event box rest w)
    {delivered : Nat} {stale : Bool}
    (parks : operations w task = some (.parked event box rest delivered stale)) :
    w.ready machine task = true ↔ ¬ Visits task event box rest (w.run machine task) := by
  cases ready : w.ready machine task with
  | false =>
    rw [World.run_of_not_ready ready]
    exact iff_of_false Bool.false_ne_true fun gone => gone visits
  | true =>
    refine iff_of_true rfl fun stays => ?_
    unfold Visits at stays
    rw [operations_run parks ready, (Phase.steps task w.state _).stays_iff rfl] at stays
    cases stays.1

end

end RegistryTask

end HardwareSigner
