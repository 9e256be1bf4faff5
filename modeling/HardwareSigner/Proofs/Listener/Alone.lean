import HardwareSigner.Proofs.Listener.Removal
import HardwareSigner.Proofs.Listener.Deserted

/-!
# An operation that has a registry for itself

An operation is begun, and until it is done nobody else does anything (`RegistryTask.alone`). With
each step it has less before it (`Operation.Phase.left`), so it comes to its end, if it is ready for
each of its steps (`Operation.Track`).

> `Operation.Phase.Steps.left_lt`: every step of every operation brings it nearer to its end.
> `RegistryTask.alone_cases`: an operation on its track is under way or has been answered.
> `RegistryTask.alone_of_track`: it has been answered after two turns for each listener, and four.
-/

namespace HardwareSigner

namespace Operation

variable {M : Type}

namespace Phase

/-- How many steps a task may still take if the same listeners remain linked. A listener costs a
dispatch at most two: it may have to wait for a place before it serves it. -/
def left (r : Registry M) : Phase M → Nat
  | .begin _ => 2 * r.boxes.length + 4
  | .dispatching _ => 2 * r.boxes.length + 3
  | .offering _ rest _ _ => 2 * rest.length + 2
  | .parked _ _ rest _ _ => 2 * rest.length + 3
  | .trying _ => 2
  | .adding _ | .removing | .asking _ | .counting | .pruning _ | .clearing => 1

section

variable {task : TaskId} {r after : Registry M} {phase next : Phase M}

theorem left_pos (phase : Phase M) (r : Registry M) : 0 < phase.left r := by
  cases phase <;> exact Nat.succ_pos _

theorem left_of_asks {operation : Operation M} {mode : LockMode} (asks : operation.Asks mode next)
    (r : Registry M) : next.left r ≤ 2 * r.boxes.length + 3 := by
  cases asks with
  | dispatch event => exact Nat.le_refl _
  | tryDispatch event => exact Nat.le_add_left 2 _
  | _ => exact Nat.le_add_left 1 _

theorem WrapsUp.left {delivered : Nat} {stale : Bool}
    (wraps : WrapsUp task delivered r stale (.inl next) after) : next.left after = 1 := by
  cases wraps
  rfl

theorem Faces.left {event : Event M} {listener : MailboxId} {rest : List MailboxId}
    {delivered : Nat} {stale : Bool} {now : Registry M}
    (faces : Faces task event listener rest delivered stale r phase now) :
    2 * rest.length + 2 < phase.left r := by
  cases faces with
  | comes => exact Nat.lt_add_of_pos_right (Nat.succ_pos 1)
  | waited => exact Nat.lt_succ_self _

/-- Whoever goes on has less before him. -/
theorem Steps.left_lt (steps : Steps task r phase (.inl next) after) :
    next.left after < phase.left r := by
  cases steps with
  | asks asks => exact Nat.lt_succ_of_le (left_of_asks asks r)
  | cancels there => exact Nat.le_add_left 2 _
  | cancelsAll => exact Nat.le_add_left 2 _
  | takes event => exact Nat.lt_succ_self _
  | wrapsUp wraps => exact wraps.left ▸ Nat.lt_succ_self 1
  | passes faces dead => exact faces.left
  | gives faces live unshut room => exact faces.left
  | parks live unshut full => exact Nat.lt_succ_self _
  | tries wraps => exact wraps.left ▸ Nat.lt_succ_self 1

end

end Phase

/-- What is so of an operation from its beginning until it is answered: it is ready for its next
step, and with this step it stays on its track or is answered. -/
structure Track (task : TaskId) (operation : Operation M) (r : Registry M) (answer : Answer)
    (last : Registry M) (On : Phase M → Registry M → Prop) : Prop where
  begins : On (.begin operation) r
  ready : ∀ {phase now}, On phase now → phase.ready task now = true
  step : ∀ {phase now}, On phase now →
    (∃ next after, phase.step task now = (.inl next, after) ∧ On next after) ∨
      phase.step task now = (.inr answer, last)

end Operation

namespace World

variable {σ π ρ : Type} {w : World σ π ρ}

theorem ne_of_phase?_none (fresh : w.phase? w.next = none) {entry : TaskId × π}
    (there : entry ∈ w.tasks) : entry.1 ≠ w.next := fun same =>
  bne_iff_ne.mp (List.lookup_eq_none_iff.mp fresh entry there) same.symm

/-- A task that has just come goes on: it might as well have come later. -/
theorem goOn_start (fresh : w.phase? w.next = none) (phase next : π) :
    (w.start phase).goOn w.next next = w.start next := by
  have others : (w.tasks.map fun entry => if entry.1 = w.next then (w.next, next) else entry) =
      w.tasks :=
    (List.map_congr_left fun entry there => if_neg (ne_of_phase?_none fresh there)).trans
      (List.map_id _)
  unfold goOn start
  simp only
  rw [List.map_append, others, List.map_singleton, if_pos rfl]

/-- A task that has just come leaves again. -/
theorem leave_start (fresh : w.phase? w.next = none) (phase : π) :
    (w.start phase).leave w.next = { w with next := w.next + 1 } := by
  have others : (w.tasks.filter fun entry => entry.1 != w.next) = w.tasks :=
    List.filter_eq_self.mpr fun entry there => bne_iff_ne.mpr (ne_of_phase?_none fresh there)
  unfold leave start
  simp only
  rw [List.filter_append, others, List.filter_cons_of_neg (by simp), List.filter_nil,
    List.append_nil]

end World

namespace RegistryTask

open Operation (Phase Track)

variable {M : Type}

/-- An operation has been begun and its task has been given some turns, and nothing else has
happened. -/
def alone (w : Site M) (operation : Operation M) (turns : Nat) : Site M :=
  (w.start (.operation (.begin operation))).applyAll machine (List.replicate turns (.run w.next))

/-- A further task has come and has got so far, and nothing else has happened but what it has
done. -/
def joined (w : Site M) (phase : Phase M) (now : Registry M) : Site M :=
  World.start { w with state := now } (.operation phase)

/-- A further task has come and has been answered, and nothing else has happened but what it has
done. -/
def answered (w : Site M) (answer : Operation.Answer) (after : Registry M) : Site M :=
  { w with
    state := after
    results := w.results ++ [(w.next, .operation answer)]
    next := w.next + 1 }

theorem alone_succ (w : Site M) (operation : Operation M) (turns : Nat) :
    alone w operation (turns + 1) = (alone w operation turns).run machine w.next := by
  unfold alone
  rw [List.replicate_succ', World.applyAll_snoc]
  rfl

section

variable {w : Site M} (fresh : w.phase? w.next = none) {phase : Phase M} {now after : Registry M}

include fresh

theorem phase?_joined : (joined w phase now).phase? w.next = some (.operation phase) := by
  show (w.tasks ++ [(w.next, RegistryTask.operation phase)]).lookup w.next = _
  rw [List.lookup_append, show w.tasks.lookup w.next = none from fresh, List.lookup_cons_self]
  rfl

theorem run_joined (ready : phase.ready w.next now = true) :
    (joined w phase now).run machine w.next =
      match phase.step w.next now with
      | (.inl next, after) => joined w next after
      | (.inr answer, after) => answered w answer after := by
  rw [World.run_of_ready (phase?_joined fresh) ready]
  show World.stepped machine (joined w phase now) w.next (.operation phase) = _
  have turn : machine.step w.next (joined w phase now).clock (.operation phase)
      (joined w phase now).state =
        { next := (phase.step w.next now).1.map .operation .operation,
          state := (phase.step w.next now).2 } := rfl
  unfold World.stepped
  rw [turn]
  rcases phase.step w.next now with ⟨next | answer, after⟩
  · exact World.goOn_start (w := { w with state := after }) fresh _ _
  · have left := World.leave_start (w := { w with state := after }) fresh (.operation phase)
    show World.finish (World.start { w with state := after } (.operation phase)) w.next _ = _
    unfold World.finish
    rw [left]
    rfl

end

section

variable {w : Site M} {operation : Operation M} {answer : Operation.Answer} {last : Registry M}
  {On : Phase M → Registry M → Prop}
  (track : Track w.next operation w.state answer last On) (fresh : w.phase? w.next = none)

include track fresh

/-- While nobody comes between, an operation is on its track and has less before it with every turn,
or it has been answered and there is nothing left to do for its task. -/
theorem alone_cases (turns : Nat) :
    (∃ phase now, On phase now ∧ phase.left now + turns ≤ 2 * w.state.boxes.length + 4 ∧
        alone w operation turns = joined w phase now) ∨
      alone w operation turns = answered w answer last := by
  induction turns with
  | zero => exact Or.inl ⟨_, _, track.begins, Nat.le_refl _, rfl⟩
  | succ turns ih =>
    rw [alone_succ]
    rcases ih with ⟨phase, now, on, few, there⟩ | done
    · rw [there, run_joined fresh (track.ready on)]
      rcases track.step on with ⟨next, after, turn, onward⟩ | turn
      · have fewer : next.left after < phase.left now := by
          have steps := phase.steps w.next now
          rw [turn] at steps
          exact steps.left_lt
        exact Or.inl ⟨next, after, onward, by omega, by rw [turn]⟩
      · exact Or.inr (by rw [turn])
    · rw [done]
      exact Or.inr (World.run_of_none fresh)

/-- It needs no more than two turns for each listener, and four. -/
theorem alone_of_track {turns : Nat} (enough : 2 * w.state.boxes.length + 4 ≤ turns) :
    alone w operation turns = answered w answer last := by
  refine (alone_cases track fresh turns).resolve_left ?_
  rintro ⟨phase, now, -, few, -⟩
  have more := phase.left_pos now
  omega

end

end RegistryTask

end HardwareSigner
