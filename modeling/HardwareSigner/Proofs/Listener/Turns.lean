import HardwareSigner.Proofs.Listener.Line
import HardwareSigner.Proofs.Listener.Places

/-!
# Getting the lock

Only a dispatch keeps the lock for longer than one step. While nobody dispatches, whoever stands in
line for the lock needs no more than that those before him take their next steps, each once
(`RegistryTask.Granting`): one after the other gets the lock, does what he wants to do and leaves.

> `RegistryTask.granting_of_calm`: so it is in every world in which nobody dispatches.
> `RegistryTask.granting_of_writes`: it remains so for whoever comes to change the registry.
-/

namespace HardwareSigner

namespace Lock

variable {l : Lock} {task : TaskId}

/-- Whoever stands in line is the first, or stands behind the first. -/
theorem ahead_cases (there : task ∈ l.line) :
    (∃ mode rest, l.queue = (task, mode) :: rest) ∨
      ∃ first mode rest, l.queue = (first, mode) :: rest ∧ first ≠ task ∧
        l.ahead task = first :: Lock.ahead ⟨rest⟩ task := by
  obtain ⟨queue⟩ := l
  cases queue with
  | nil => cases there
  | cons place rest =>
    obtain ⟨first, mode⟩ := place
    by_cases here : first = task
    · exact Or.inl ⟨mode, rest, by rw [here]⟩
    · refine Or.inr ⟨first, mode, rest, rfl, here, ?_⟩
      have apart : (first != task) = true := bne_iff_ne.mpr here
      simp only [ahead, List.takeWhile_cons, apart, if_true, List.map_cons]

/-- When the first leaves, those who stood behind him remain. -/
theorem queue_release_first {first : TaskId} {mode : LockMode} {rest : List (TaskId × LockMode)}
    (queue : l.queue = (first, mode) :: rest) (once : l.line.Nodup) :
    (l.release first).queue = rest := by
  unfold line at once
  rw [queue, List.map_cons, List.nodup_cons] at once
  unfold release
  rw [queue, List.filter_cons_of_neg (by simp), List.filter_eq_self]
  intro place there
  rw [bne_iff_ne]
  rintro rfl
  exact once.1 (List.mem_map.mpr ⟨place, there, rfl⟩)

end Lock

namespace Operation

/-- The operations that change who is linked. -/
inductive Writes {M : Type} : Operation M → Prop
  | add (id : ListenerId) : Writes (.add id)
  | remove (id : ListenerId) : Writes (.remove id)
  | clear : Writes .clear

namespace Phase

variable {M : Type}

/-- Whether a task needs the lock for one step only, after which it is done. -/
def brief : Phase M → Bool
  | .adding _ | .removing | .asking _ | .counting | .pruning _ | .clearing => true
  | _ => false

/-- In whatever place of the line a task stands, it stands there once. -/
theorem Shifts.nodup {task : TaskId} {l l' : Lock} {stood stands : Bool}
    (shifts : Shifts task l stood stands l') (mine : task ∈ l.line ↔ stood = true)
    (once : l.line.Nodup) : l'.line.Nodup := by
  have joins : ∀ {l : Lock} (mode : LockMode), task ∉ l.line → l.line.Nodup →
      (l.request task mode).line.Nodup := by
    intro l mode absent once
    unfold Lock.line Lock.request
    rw [List.map_append, List.nodup_append]
    refine ⟨once, List.nodup_singleton task, fun first before second behind => ?_⟩
    rw [List.mem_singleton.mp behind]
    rintro rfl
    exact absent before
  have left : (l.release task).line.Nodup := once.sublist (List.filter_sublist.map Prod.fst)
  cases shifts with
  | stays => exact once
  | comes mode => exact joins mode (fun there => Bool.false_ne_true (mine.mp there)) once
  | goes => exact left
  | again => exact joins _ (fun there => (Lock.mem_line_release.mp there).2 rfl) left

/-- Who stands in line without having to dispatch anything needs the lock for one step only. -/
theorem brief_of_stands {phase : Phase M} (stands : phase.stands = true)
    (idle : phase.offers = false) (early : phase.late = false) : phase.brief = true := by
  cases phase with
  | begin => cases stands
  | dispatching => cases idle
  | offering => cases idle
  | parked => cases idle
  | trying => cases early
  | clearing => cases early
  | _ => rfl

section

variable {phase : Phase M} (brief : phase.brief = true) (task : TaskId) (r : Registry M)

include brief

theorem ready_of_brief : phase.ready task r = r.lock.granted task := by
  cases phase <;> first | rfl | cases brief

/-- After its step it is done and has left the line. -/
theorem step_of_brief : (phase.step task r).1.getLeft? = none ∧
    (phase.step task r).2.lock = r.lock.release task := by
  cases phase with
  | adding id => exact ⟨rfl, congrArg (·.release task) (lock_link id r)⟩
  | removing => exact ⟨rfl, rfl⟩
  | asking id => exact ⟨rfl, rfl⟩
  | counting => exact ⟨rfl, rfl⟩
  | pruning delivered => exact ⟨rfl, rfl⟩
  | clearing => exact ⟨rfl, rfl⟩
  | _ => cases brief

end

/-- Whoever comes to change the registry goes in line for one step, or has nothing to do. -/
theorem brief_of_writes {operation : Operation M} (writes : operation.Writes) (task : TaskId)
    (r : Registry M) : ∀ next ∈ ((Phase.begin operation).step task r).1.getLeft?,
      next.brief = true := by
  cases writes with
  | add id =>
    rintro next ⟨⟩
    rfl
  | remove id =>
    show ∀ next ∈ (start task (.remove id) r).1.getLeft?, _
    simp only [start]
    split
    next => exact fun next goesOn => by cases goesOn
    next =>
      rintro next ⟨⟩
      rfl
  | clear =>
    rintro next ⟨⟩
    rfl

end Phase

end Operation

namespace Registry

open Operation (Phase)

variable {M : Type}

/-- Exactly those stand in line who have begun to work on the registry, each once. -/
structure Lined (work : Work (Phase M)) (r : Registry M) : Prop where
  inLine : InLine work r
  once : r.lock.line.Nodup

theorem lined_empty (capacity : Nat) : Lined (fun _ => none) (empty capacity : Registry M) where
  inLine _ := iff_of_false List.not_mem_nil Bool.false_ne_true
  once := List.nodup_nil

theorem Moves.lined {going' : Prop} {took : List (TaskId × Event M)} {tried : List (Event M)}
    {work work' : Work (Phase M)} {r r' : Registry M}
    (moves : Moves going' work r took tried work' r') (lined : Lined work r) : Lined work' r' where
  inLine := moves.requeues.inLine lined.inLine
  once := by
    cases moves.requeues with
    | rests same =>
      rw [same]
      exact lined.once
    | shifts task next? shifts adding clearing => exact shifts.nodup (lined.inLine task) lined.once

end Registry

namespace RegistryTask

open Operation (Phase)
open Registry (Lined Moves)

variable {M : Type} {w : Site M} {task : TaskId}

/-- What an action makes of a registry is a move. -/
theorem moves_of_effect {began took : List (TaskId × Event M)} {work : Work (Phase M)}
    {r : Registry M} (effect : Effect w began took work r) :
    ∃ tried, Moves (r.shutdown = false) (operations w) w.state took tried work r := by
  cases effect with
  | same => exact ⟨[], .same⟩
  | begins operation fresh alone early => exact ⟨[], .begins w.next operation fresh⟩
  | steps task phase there => exact ⟨phase.tries, .steps task phase there⟩
  | leaves task phase there idle => exact ⟨[], .leaves task phase there fun _ => idle⟩
  | acts act => exact ⟨[], .acts act⟩

theorem lined_effect {began took : List (TaskId × Event M)} {work : Work (Phase M)}
    {r : Registry M} (lined : Lined (operations w) w.state) (effect : Effect w began took work r) :
    Lined work r := by
  obtain ⟨tried, moves⟩ := moves_of_effect effect
  exact moves.lined lined

/-! ## Nobody dispatches -/

/-- Whoever stands in line needs the lock for one step only. -/
def Calm (w : Site M) : Prop :=
  ∀ task phase, operations w task = some phase → phase.stands = true → phase.brief = true

/-- Whoever stands in line can take his next step when those before him have taken theirs. -/
def Granting (w : Site M) : Prop :=
  ∀ task ∈ w.state.lock.line,
    (w.applyAll machine ((w.state.lock.ahead task).map .run)).ready machine task = true

theorem calm_of_idle (idle : ∀ task phase, operations w task = some phase → phase.offers = false)
    (early : ∀ task phase, operations w task = some phase → phase.late = false) : Calm w :=
  fun task phase there stands =>
    Phase.brief_of_stands stands (idle task phase there) (early task phase there)

theorem Calm.exists_phase (calm : Calm w) (lined : Lined (operations w) w.state)
    (inLine : task ∈ w.state.lock.line) :
    ∃ phase, operations w task = some phase ∧ phase.brief = true := by
  have stands := (lined.inLine task).mp inLine
  cases there : operations w task with
  | none => rw [there] at stands; cases stands
  | some phase =>
    rw [there] at stands
    exact ⟨phase, rfl, calm task phase there stands⟩

/-- All operations after a step of one. -/
theorem operations_run_eq {phase : Phase M} (there : operations w task = some phase)
    (ready : w.ready machine task = true) : operations (w.run machine task) =
      Work.set (operations w) task (phase.step task w.state).1.getLeft? := by
  rw [operations_of_phase? (World.phase?_run_of_spawned_none (phase?_of_operations there)
    (ready_operation there ready) rfl)]
  exact congrArg (Work.set _ task) (operation?_map_step _)

/-- The first in line takes his step and has left the line. -/
theorem Calm.run (calm : Calm w) (lined : Lined (operations w) w.state) {mode : LockMode}
    {rest : List (TaskId × LockMode)} (first : w.state.lock.queue = (task, mode) :: rest) :
    Calm (w.run machine task) ∧ (w.run machine task).state.lock = ⟨rest⟩ := by
  have inLine : task ∈ w.state.lock.line := by
    unfold Lock.line
    rw [first]
    exact List.mem_cons_self
  obtain ⟨phase, there, brief⟩ := calm.exists_phase lined inLine
  have ready : w.ready machine task = true := by
    rw [ready_eq there, Phase.ready_of_brief brief]
    exact Lock.granted_of_first first
  obtain ⟨done, lock⟩ := Phase.step_of_brief brief task w.state
  constructor
  · intro other found at_work
    rw [operations_run_eq there ready, done] at at_work
    rcases Work.set_cases _ _ _ at_work with ⟨-, ⟨⟩⟩ | ⟨-, before⟩
    exact calm other found before
  · rw [state_run_operation there ready, lock]
    exact congrArg Lock.mk (Lock.queue_release_first first lined.once)

/-- Where nobody dispatches the lock is given to one after the other. -/
theorem granting_of_calm (calm : Calm w) (lined : Lined (operations w) w.state) : Granting w := by
  intro task inLine
  -- The induction is on those before the task: with each step the first of them leaves.
  generalize waiting : w.state.lock.ahead task = others
  induction others generalizing w with
  | nil =>
    rcases Lock.ahead_cases inLine with ⟨mode, rest, first⟩ | ⟨first, mode, rest, -, -, ahead⟩
    · obtain ⟨phase, there, brief⟩ := calm.exists_phase lined inLine
      show w.ready machine task = true
      rw [ready_eq there, Phase.ready_of_brief brief]
      exact Lock.granted_of_first first
    · rw [ahead] at waiting
      cases waiting
  | cons other others ih =>
    rcases Lock.ahead_cases inLine with ⟨mode, rest, first⟩ |
      ⟨first, mode, rest, queue, different, ahead⟩
    · unfold Lock.ahead at waiting
      rw [first, List.takeWhile_cons_of_neg (by simp)] at waiting
      cases waiting
    · rw [ahead] at waiting
      obtain ⟨rfl, rest⟩ := List.cons.inj waiting
      obtain ⟨calm', lock⟩ := calm.run lined queue
      have lined' := lined_effect lined (effect_run first)
      have behind : task ∈ (w.run machine first).state.lock.line := by
        unfold Lock.line at inLine ⊢
        rw [queue] at inLine
        rw [lock]
        exact (List.mem_cons.mp inLine).resolve_left (Ne.symm different)
      exact ih calm' lined' behind ((congrArg (Lock.ahead · task) lock).trans rest)

/-- So it is given to whoever comes to change the registry. -/
theorem granting_of_writes (calm : Calm w) (lined : Lined (operations w) w.state)
    (numbered : w.Numbered) {operation : Operation M} (writes : operation.Writes) :
    Granting ((w.start (.operation (.begin operation))).run machine w.next) := by
  have fresh := operations_of_none numbered.phase?_next
  have started : operations (w.start (.operation (.begin operation))) =
      Work.set (operations w) w.next (some (.begin operation)) :=
    operations_of_phase? (World.phase?_start numbered _)
  have there : operations (w.start (.operation (.begin operation))) w.next =
      some (.begin operation) := by
    rw [started, Work.set_self]
  have begins : Moves (w.state.shutdown = false) (operations w) w.state [] []
      (operations (w.start (.operation (.begin operation)))) w.state := by
    rw [started]
    exact .begins w.next operation fresh
  refine granting_of_calm (fun other phase at_work => ?_)
    (lined_effect (begins.lined lined) (effect_run w.next))
  rw [operations_run_eq there (ready_of_operations there rfl), started, Work.set_set] at at_work
  rcases Work.set_cases _ _ _ at_work with ⟨-, now⟩ | ⟨-, before⟩
  · exact fun _ => Phase.brief_of_writes writes w.next w.state phase now
  · exact calm other phase before

end RegistryTask

end HardwareSigner
