import HardwareSigner.Proofs.Listener.Turns

/-!
# What those who share a registry leave as it is

Whoever works on a registry, and however they come and go: who waits in a mailbox is parked there
(`Registry.Parked`), and a mailbox holds as many events as at the beginning.

> `Registry.Moves.parked`, `Registry.Moves.capacity`: every move keeps both.
-/

namespace HardwareSigner

namespace Operation.Phase

variable {M : Type} {task : TaskId} {r after : Registry M} {phase : Phase M}
  {next : Phase M ⊕ Answer}

/-- A task that is given up waits in no mailbox any more. -/
theorem senders_release (phase : Phase M) (task : TaskId) (r : Registry M) (box : MailboxId) :
    (phase.release task r).senders box =
      if phase.waitsAt? = some box then (r.senders box).filter (· != task) else r.senders box := by
  cases phase with
  | parked event listener rest delivered stale =>
    show (r.update listener (·.leave task)).senders box = if some listener = some box then _ else _
    simp only [Option.some.injEq]
    exact Registry.senders_leave r listener task box
  | _ => rfl

theorem capacity_release (phase : Phase M) (task : TaskId) (r : Registry M) :
    (phase.release task r).capacity = r.capacity := by
  cases phase <;> rfl

theorem WrapsUp.capacity {delivered : Nat} {stale : Bool}
    (wraps : WrapsUp task delivered r stale next after) : after.capacity = r.capacity := by
  cases wraps <;> rfl

theorem Faces.capacity {event : Event M} {listener : MailboxId} {rest : List MailboxId}
    {delivered : Nat} {stale : Bool} {left : Registry M}
    (faces : Faces task event listener rest delivered stale r phase left) :
    left.capacity = r.capacity := by
  cases faces <;> rfl

theorem Steps.capacity (steps : Steps task r phase next after) : after.capacity = r.capacity := by
  cases steps with
  | cancelsAll =>
    exact List.foldlRecOn (motive := fun (after : Registry M) => after.capacity = _) r.tokens _ rfl
      fun _ same _ _ => same
  | links id =>
    show (r.link id).2.capacity = _
    unfold Registry.link
    simp only
    split <;> rfl
  | wrapsUp wraps => exact wraps.capacity
  | passes faces dead => exact faces.capacity
  | quits faces shut =>
    have same := faces.capacity
    exact same
  | gives faces live unshut room =>
    have same := faces.capacity
    exact same
  | tries wraps =>
    refine wraps.capacity.trans ?_
    exact List.foldlRecOn (motive := fun (after : Registry M) => after.capacity = _) _ _ rfl
      fun _ same _ _ => same
  | _ => rfl

end Operation.Phase

namespace Registry

open Operation (Phase)

variable {M : Type} {work work' : Work (Phase M)} {r r' : Registry M} {task : TaskId}

/-- A task that is given up leaves the line that it stood in. -/
theorem Parked.leave (parked : Parked work r) {phase : Phase M} (there : work task = some phase) :
    Parked (Work.set work task none) (phase.release task r) where
  mem box other := by
    rw [Phase.senders_release]
    by_cases here : other = task
    · rw [here, Work.set_self]
      exact iff_of_false (parked.not_mem_others there box) fun none => nomatch none
    · rw [Work.set_of_ne _ _ _ here, ← parked.mem]
      split
      next => simp [here]
      next => rfl
  once box := by
    rw [Phase.senders_release]
    split
    · exact (parked.once box).filter _
    · exact parked.once box

namespace Moves

variable {going' : Prop} {took : List (TaskId × Event M)} {tried : List (Event M)}

theorem parked (moves : Moves going' work r took tried work' r') (parked : Parked work r) :
    Parked work' r' := by
  cases moves with
  | same => exact parked
  | begins task operation fresh => exact parked.set (fun _ => rfl) (by rw [fresh]; rfl) rfl
  | steps task phase there => exact parked.step there
  | follows task phase there finished operation =>
    have stepped := parked.step there
    rw [finished] at stepped
    have begun : Parked (Work.set (Work.set work task none) task (some (.begin operation)))
        (phase.step task r).2 :=
      stepped.set (fun _ => rfl) (by rw [Work.set_self]; rfl) rfl
    rwa [Work.set_set] at begun
  | leaves task phase there stops => exact parked.leave there
  | acts act =>
    refine ⟨fun box other => ?_, fun box => ?_⟩ <;> rw [senders_act]
    · exact parked.mem box other
    · exact parked.once box
  | unlinks shut => exact ⟨parked.mem, parked.once⟩

theorem capacity (moves : Moves going' work r took tried work' r') : r'.capacity = r.capacity := by
  cases moves with
  | same => rfl
  | begins => rfl
  | steps task phase there => exact (phase.steps task r).capacity
  | follows task phase there finished operation => exact (phase.steps task r).capacity
  | leaves task phase there stops => exact Phase.capacity_release phase task r
  | acts act =>
    obtain ⟨mailboxes, shut, same, -⟩ := r.act_eq act
    rw [same]
  | unlinks => rfl

end Moves

end Registry

end HardwareSigner
