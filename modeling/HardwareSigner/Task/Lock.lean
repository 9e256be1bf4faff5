/-!
# Fair locks

A lock may be shared by many tasks or held by one alone. It is granted strictly in the order in
which it was asked for: who asks to share it waits behind everybody who has asked for it alone, even
if the lock is only shared at the moment.

> `Lock.granted_of_first`: whoever stands first in line has the lock.
> `Lock.first_of_granted`: whoever has it for himself stands first in line.
-/

namespace HardwareSigner

/-- Tasks are numbered in the order in which they are started. -/
abbrev TaskId := Nat

/-- How a task asks for a lock. -/
inductive LockMode
  | shared | exclusive
  deriving DecidableEq, Repr

/-- A lock: those who hold it or wait for it, in order of arrival. A task asks at most once. -/
structure Lock where
  queue : List (TaskId × LockMode) := []
  deriving DecidableEq, Repr

namespace Lock

/-- Joins the queue. -/
def request (l : Lock) (task : TaskId) (mode : LockMode) : Lock := ⟨l.queue ++ [(task, mode)]⟩

/-- Leaves the queue, whether the lock was held or waited for. -/
def release (l : Lock) (task : TaskId) : Lock := ⟨l.queue.filter fun place => place.1 != task⟩

/-- Whether the task holds the lock: nobody stands before it, or it shares the lock and so does
everybody before it. -/
def granted (l : Lock) (task : TaskId) : Bool :=
  match l.queue.lookup task with
  | none => false
  | some .exclusive => (l.queue.head?.map Prod.fst) == some task
  | some .shared =>
    (l.queue.takeWhile fun place => place.1 != task).all fun place => place.2 == .shared

/-- Whoever stands first in line has the lock. -/
theorem granted_of_first {l : Lock} {task : TaskId} {mode : LockMode}
    {rest : List (TaskId × LockMode)} (first : l.queue = (task, mode) :: rest) :
    l.granted task = true := by
  unfold granted
  rw [first, List.lookup_cons_self]
  cases mode with
  | exclusive => simp
  | shared => simp

/-- Whoever has the lock for himself stands first in line. -/
theorem first_of_granted {l : Lock} {task : TaskId}
    (alone : l.queue.lookup task = some .exclusive) (granted : l.granted task = true) :
    ∃ rest, l.queue = (task, .exclusive) :: rest := by
  obtain ⟨queue⟩ := l
  cases queue with
  | nil => cases alone
  | cons place rest =>
    obtain ⟨id, mode⟩ := place
    have same : id = task := by simpa [Lock.granted, alone] using granted
    subst same
    rw [List.lookup_cons_self] at alone
    cases alone
    exact ⟨rest, rfl⟩

/-! ## Looking for a place -/

theorem mem_of_lookup {τ : Type} {queue : List (TaskId × τ)} {task : TaskId} {mode : τ}
    (found : queue.lookup task = some mode) : (task, mode) ∈ queue := by
  induction queue with
  | nil => simp at found
  | cons place rest ih =>
    obtain ⟨id, other⟩ := place
    rw [List.lookup_cons] at found
    split at found
    · next same =>
      have : task = id := by simpa using same
      simp_all
    · exact List.mem_cons_of_mem _ (ih found)

theorem lookup_filter {τ : Type} {queue : List (TaskId × τ)} {task other : TaskId}
    (different : other ≠ task) :
    (queue.filter fun place => place.1 != other).lookup task = queue.lookup task := by
  induction queue with
  | nil => rfl
  | cons place rest ih =>
    obtain ⟨id, mode⟩ := place
    by_cases same : id = other
    · subst same
      have apart : (task == id) = false := by simpa using different.symm
      simp [List.lookup_cons, apart, ih]
    · simp [List.lookup_cons, same, ih]

theorem takeWhile_filter {queue : List (TaskId × LockMode)} {task other : TaskId}
    (different : other ≠ task) :
    ((queue.filter fun place => place.1 != other).takeWhile fun place => place.1 != task) =
      (queue.takeWhile fun place => place.1 != task).filter fun place => place.1 != other := by
  induction queue with
  | nil => rfl
  | cons place rest ih =>
    by_cases gone : place.1 = other
    · simp [gone, different, ih]
    · by_cases here : place.1 = task <;> simp [gone, here, ih, different.symm]

end Lock

end HardwareSigner
