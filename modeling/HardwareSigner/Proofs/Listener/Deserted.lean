import HardwareSigner.Proofs.Listener.Holding

/-!
# A registry on which nobody is at work

Whoever stands in line for a registry, or waits in one of its mailboxes, is at work on it
(`Registry.Manned`). That goes for every world that can be reached, also if operations are given up
on the way. So where nobody is at work the lock is free and nobody waits for a place, and whoever
comes finds room exactly in the mailboxes that are not full.

> `RegistryTask.Reached.manned`: it goes for every world that can be reached.
> `Registry.Manned.free`, `Registry.Manned.hasRoom_iff`: what follows where nobody is at work.
-/

namespace HardwareSigner

/-- Whoever stands in line after a step has a place there, if that was so before it. -/
theorem Operation.Phase.Shifts.stands_of_mem {task : TaskId} {l l' : Lock} {stood stands : Bool}
    (shifts : Shifts task l stood stands l') (before : task ∈ l.line → stood = true)
    (there : task ∈ l'.line) : stands = true := by
  cases shifts with
  | stays => exact before there
  | comes mode => rfl
  | goes => exact absurd rfl (Lock.mem_line_release.mp there).2
  | again => rfl

namespace Registry

open Operation (Phase)

variable {M : Type}

/-- Whoever stands in line or waits in a mailbox is at work, and does so for a reason. -/
structure Manned (work : Work (Phase M)) (r : Registry M) : Prop where
  line : ∀ task ∈ r.lock.line, (work task).any Phase.stands = true
  senders : ∀ box, ∀ task ∈ r.senders box, (work task).bind Phase.waitsAt? = some box

theorem manned_empty (capacity : Nat) : Manned (fun _ => none) (empty capacity : Registry M) where
  line _ there := by cases there
  senders _ _ there := by cases there

namespace Manned

variable {work : Work (Phase M)} {r : Registry M} {task : TaskId} {phase : Phase M}

/-- Somebody new comes to work. -/
theorem start (manned : Manned work r) (fresh : work task = none) (phase? : Option (Phase M)) :
    Manned (work.set task phase?) r where
  line other there := by
    have stands := manned.line other there
    have different : other ≠ task := by
      rintro rfl
      rw [fresh] at stands
      cases stands
    rw [Work.set_of_ne _ _ _ different]
    exact stands
  senders box other there := by
    have waits := manned.senders box other there
    have different : other ≠ task := by
      rintro rfl
      rw [fresh] at waits
      cases waits
    rw [Work.set_of_ne _ _ _ different]
    exact waits

/-- Who has left the place where it waited waits nowhere. -/
theorem eq_of_mem (manned : Manned work r) (there : work task = some phase) {box : MailboxId}
    {other : TaskId}
    (waits : other ∈ if phase.waitsAt? = some box then (r.senders box).filter (· != task)
      else r.senders box) : other ≠ task ∧ other ∈ r.senders box := by
  split at waits
  next =>
    obtain ⟨before, different⟩ := List.mem_filter.mp waits
    exact ⟨bne_iff_ne.mp different, before⟩
  next elsewhere =>
    refine ⟨?_, waits⟩
    rintro rfl
    have here := manned.senders box other waits
    rw [there] at here
    exact elsewhere here

theorem step (manned : Manned work r) (there : work task = some phase) :
    Manned (work.set task (phase.step task r).1.getLeft?) (phase.step task r).2 where
  line other inLine := by
    have shifts := (phase.steps task r).shifts
    by_cases same : other = task
    · subst same
      rw [Work.set_self]
      refine shifts.stands_of_mem (fun before => ?_) inLine
      have stands := manned.line other before
      rwa [there] at stands
    · rw [Work.set_of_ne _ _ _ same]
      exact manned.line other ((shifts.mem_line.2 other same).mp inLine)
  senders box other waits := by
    rw [(phase.steps task r).senders box, List.mem_append] at waits
    rcases waits with before | joins
    · obtain ⟨different, before⟩ := manned.eq_of_mem there before
      rw [Work.set_of_ne _ _ _ different]
      exact manned.senders box other before
    · split at joins
      next parks =>
        rw [List.mem_singleton.mp joins, Work.set_self]
        exact parks
      next => cases joins

/-- Whoever is given up leaves every place where it stood. -/
theorem leave (manned : Manned work r) (there : work task = some phase) :
    Manned (work.set task none) (phase.release task r) where
  line other inLine := by
    rw [Phase.lock_release, Lock.mem_line_release] at inLine
    rw [Work.set_of_ne _ _ _ inLine.2]
    exact manned.line other inLine.1
  senders box other waits := by
    rw [Phase.senders_release] at waits
    obtain ⟨different, before⟩ := manned.eq_of_mem there waits
    rw [Work.set_of_ne _ _ _ different]
    exact manned.senders box other before

theorem act (manned : Manned work r) (act : Act) : Manned work (r.act act) where
  line task there := by
    rw [lock_act] at there
    exact manned.line task there
  senders box task there := by
    rw [senders_act] at there
    exact manned.senders box task there

section

variable (manned : Manned work r) (idle : ∀ task, work task = none)

include manned idle

/-- Where nobody is at work nobody has the lock or waits for it. -/
theorem free : r.lock = {} := by
  have nobody : r.lock.line = [] := by
    rw [List.eq_nil_iff_forall_not_mem]
    intro task there
    have stands := manned.line task there
    rw [idle] at stands
    cases stands
  exact congrArg Lock.mk (List.map_eq_nil_iff.mp nobody)

/-- A live listener has room unless its mailbox is full. -/
theorem hasRoom_iff {box : MailboxId} (live : r.live box = true) :
    r.hasRoom box = true ↔ r.pending box < r.capacity := by
  have nobody : r.senders box = [] := by
    rw [List.eq_nil_iff_forall_not_mem]
    intro task there
    have waits := manned.senders box task there
    rw [idle] at waits
    cases waits
  rw [Registry.hasRoom_iff live, nobody, List.length_nil, Nat.add_zero]

end

end Manned

end Registry

namespace RegistryTask

open Operation (Phase)
open Registry (Manned)

variable {M : Type} {w : Site M}

theorem manned_effect {began took : List (TaskId × Event M)} {work : Work (Phase M)}
    {r : Registry M} (manned : Manned (operations w) w.state)
    (effect : Effect w began took work r) : Manned work r := by
  cases effect with
  | same => exact manned
  | begins operation fresh => exact manned.start fresh _
  | steps task phase there => exact manned.step there
  | leaves task phase there => exact manned.leave there
  | acts act => exact manned.act act

theorem manned_apply (numbered : w.Numbered) (manned : Manned (operations w) w.state)
    (deed : Deed M) : Manned (operations (w.apply machine deed)) (w.apply machine deed).state := by
  cases deed with
  | start found =>
    have next := operations_of_phase? (World.phase?_start numbered found)
    show Manned (operations (w.start found)) w.state
    rw [next]
    exact manned.start (operations_of_none numbered.phase?_next) _
  | run task => exact manned_effect manned (effect_run task)
  | abandon task =>
    have next := operations_of_phase? (World.phase?_abandon machine w task)
    show Manned (operations (w.abandon machine task)) (w.abandon machine task).state
    rw [next, Option.bind_none]
    cases at_work : w.phase? task with
    | none =>
      rw [World.abandon_of_none at_work, Work.set_same (operations_of_none at_work)]
      exact manned
    | some found =>
      rw [World.abandon_of_phase at_work]
      cases found with
      | operation phase => exact manned.leave (operations_of_some at_work)
      | receive waiting =>
        have idle : operations w task = none := operations_of_some at_work
        rw [Work.set_same idle]
        exact manned
  | outside act => exact manned.act act
  | wait ms => exact manned

theorem Reached.manned {capacity : Nat} (reached : Reached capacity w) :
    Manned (operations w) w.state := by
  have start : (vacant capacity : Site M).Numbered ∧
      Manned (operations (vacant capacity : Site M)) (vacant capacity : Site M).state :=
    ⟨World.numbered_ofState _, Registry.manned_empty capacity⟩
  have apply : ∀ (w : Site M) (deed : Deed M), w.Numbered ∧ Manned (operations w) w.state →
      (w.apply machine deed).Numbered ∧
        Manned (operations (w.apply machine deed)) (w.apply machine deed).state :=
    fun _ deed both => ⟨both.1.apply machine deed, manned_apply both.1 both.2 deed⟩
  exact (reached.keeps apply start).2

end RegistryTask

end HardwareSigner
