import HardwareSigner.Task.World

/-!
# Runs and what is seen of them

A run is a list of actions. Two things are said about runs here. `World.Obeys` says that every
action of a run may be done where it is done, by some rule. `World.history` collects what is seen of
a run, action by action, for instance who has got hold of a lock.

> `World.keeps_run`: what every action keeps that obeys the rule, every run keeps that does, also if
> it is about the history of the run.

To follow a run it is enough to know what each task is doing. `World.phase?` says so, and the second
half of this file says what each action makes of it (`phase?_run`, `phase?_start`,
`phase?_abandon`), provided that new tasks get new numbers (`World.Numbered`).
-/

namespace HardwareSigner

/-- What each task is doing, if it is at work. -/
abbrev Work (π : Type) := TaskId → Option π

/-- The same work, except for one task. -/
def Work.set {π : Type} (work : Work π) (task : TaskId) (phase? : Option π) : Work π :=
  fun other => if other = task then phase? else work other

namespace Work

variable {π : Type} (work : Work π) (task : TaskId) (phase? : Option π)

@[simp] theorem set_self : work.set task phase? task = phase? := if_pos rfl

theorem set_of_ne {other : TaskId} (different : other ≠ task) :
    work.set task phase? other = work other := if_neg different

/-- What a task does after one task's work has changed. -/
theorem set_cases {other : TaskId} {phase : π} (found : work.set task phase? other = some phase) :
    (other = task ∧ phase? = some phase) ∨ (other ≠ task ∧ work other = some phase) := by
  by_cases same : other = task
  · subst same
    rw [set_self] at found
    exact Or.inl ⟨rfl, found⟩
  · rw [set_of_ne work task phase? same] at found
    exact Or.inr ⟨same, found⟩

variable {work task phase?} in
theorem set_same (there : work task = phase?) : work.set task phase? = work := by
  funext other
  by_cases same : other = task
  · rw [same, set_self, there]
  · exact set_of_ne work task _ same

@[simp] theorem set_set (later? : Option π) :
    (work.set task phase?).set task later? = work.set task later? := by
  funext other
  by_cases same : other = task
  · rw [same, set_self, set_self]
  · rw [set_of_ne _ _ _ same, set_of_ne _ _ _ same, set_of_ne _ _ _ same]

/-- At most one task is at something. -/
def Single (work : Work π) (is : π → Bool) : Prop :=
  ∀ task other phase phase', work task = some phase → work other = some phase' →
    is phase = true → is phase' = true → task = other

namespace Single

variable {work work' : Work π} {is : π → Bool} {task newcomer : TaskId} {next? : Option π}

/-- If a task is at it, or nobody is, then nobody else is. -/
theorem alone (single : Single work is)
    (was : (∃ phase, work task = some phase ∧ is phase = true) ∨
      ∀ other phase, work other = some phase → is phase = false)
    {other : TaskId} {phase : π} (different : other ≠ task) (there : work other = some phase) :
    is phase = false := by
  rcases was with ⟨mine, at_task, isMine⟩ | nobody
  · rw [Bool.eq_false_iff]
    intro also
    exact different (single other task phase mine there at_task also isMine)
  · exact nobody other phase there

/-- One task leaves what it was at, and one, which may be the same, begins something. It is not at
what somebody else is at. -/
theorem move (single : Single work is)
    (moved : ∀ other phase, work' other = some phase →
      (other = newcomer ∧ next? = some phase) ∨ (other ≠ task ∧ work other = some phase))
    (alone : ∀ next ∈ next?, is next = true → ∀ other phase, other ≠ task →
      work other = some phase → is phase = false) : Single work' is := by
  intro one other phase phase' there there' first second
  rcases moved one phase there with ⟨rfl, now⟩ | ⟨different, before⟩ <;>
    rcases moved other phase' there' with ⟨rfl, now'⟩ | ⟨different', before'⟩
  · rfl
  · rw [alone phase now first other phase' different' before'] at second
    cases second
  · rw [alone phase' now' second one phase different before] at first
    cases first
  · exact single one other phase phase' before before' first second

end Single

end Work

namespace World

variable {α β σ π ρ : Type}

/-- Every action of a run may be done where it is done. -/
def Obeys (m : Machine α σ π ρ) (rule : World σ π ρ → Action α π → Prop) :
    World σ π ρ → List (Action α π) → Prop
  | _, [] => True
  | w, action :: rest => rule w action ∧ Obeys m rule (w.apply m action) rest

def decidableObeys (m : Machine α σ π ρ) (rule : World σ π ρ → Action α π → Prop)
    [∀ w action, Decidable (rule w action)] (w : World σ π ρ) :
    (actions : List (Action α π)) → Decidable (w.Obeys m rule actions)
  | [] => .isTrue trivial
  | action :: rest =>
    have := decidableObeys m rule (w.apply m action) rest
    inferInstanceAs (Decidable (rule w action ∧ (w.apply m action).Obeys m rule rest))

instance (m : Machine α σ π ρ) (rule : World σ π ρ → Action α π → Prop)
    [∀ w action, Decidable (rule w action)] (w : World σ π ρ) (actions : List (Action α π)) :
    Decidable (w.Obeys m rule actions) :=
  decidableObeys m rule w actions

/-- What is seen of a run: for one action after the other what `seen` says of it. -/
def history (m : Machine α σ π ρ) (seen : World σ π ρ → Action α π → List β) :
    World σ π ρ → List (Action α π) → List β
  | _, [] => []
  | w, action :: rest => seen w action ++ history m seen (w.apply m action) rest

section

variable {m : Machine α σ π ρ} {rule : World σ π ρ → Action α π → Prop}
  {seen : World σ π ρ → Action α π → List β} {w : World σ π ρ}

theorem obeys_append {before after : List (Action α π)} :
    w.Obeys m rule (before ++ after) ↔
      w.Obeys m rule before ∧ (w.applyAll m before).Obeys m rule after := by
  induction before generalizing w with
  | nil => exact (true_and _).symm ▸ Iff.rfl
  | cons action rest ih =>
    rw [List.cons_append, Obeys, ih, Obeys, and_assoc]
    rfl

/-- Whoever obeys a stricter rule obeys this one. -/
theorem Obeys.mono {stricter : World σ π ρ → Action α π → Prop}
    (weaker : ∀ w action, stricter w action → rule w action) {actions : List (Action α π)}
    (obeys : w.Obeys m stricter actions) : w.Obeys m rule actions := by
  induction actions generalizing w with
  | nil => exact obeys
  | cons action rest ih => exact ⟨weaker w action obeys.1, ih obeys.2⟩

theorem Obeys.and {other : World σ π ρ → Action α π → Prop} {actions : List (Action α π)}
    (obeys : w.Obeys m rule actions) (obeys' : w.Obeys m other actions) :
    w.Obeys m (fun w action => rule w action ∧ other w action) actions := by
  induction actions generalizing w with
  | nil => exact trivial
  | cons action rest ih => exact ⟨⟨obeys.1, obeys'.1⟩, ih obeys.2 obeys'.2⟩

theorem history_append (before after : List (Action α π)) :
    w.history m seen (before ++ after) =
      w.history m seen before ++ (w.applyAll m before).history m seen after := by
  induction before generalizing w with
  | nil => rfl
  | cons action rest ih =>
    rw [List.cons_append, history, ih, history, List.append_assoc]
    rfl

theorem applyAll_snoc (before : List (Action α π)) (action : Action α π) :
    w.applyAll m (before ++ [action]) = (w.applyAll m before).apply m action :=
  applyAll_append m w before [action]

theorem history_snoc (before : List (Action α π)) (action : Action α π) :
    w.history m seen (before ++ [action]) =
      w.history m seen before ++ seen (w.applyAll m before) action := by
  rw [history_append, history, history, List.append_nil]

/-- What is seen of a run is seen of one of its actions. -/
theorem mem_history {actions : List (Action α π)} {found : β} :
    found ∈ w.history m seen actions ↔ ∃ before action after,
      actions = before ++ action :: after ∧ found ∈ seen (w.applyAll m before) action := by
  constructor
  · intro there
    induction actions generalizing w with
    | nil => cases there
    | cons action rest ih =>
      rcases List.mem_append.mp there with now | later
      · exact ⟨[], action, rest, rfl, now⟩
      · obtain ⟨before, found, after, rfl, seen⟩ := ih later
        exact ⟨action :: before, found, after, rfl, seen⟩
  · intro there
    obtain ⟨before, action, after, rfl, now⟩ := there
    rw [history_append, history]
    exact List.mem_append_right _ (List.mem_append_left _ now)

/-- What is so before a run, and still is after every action that obeys the rule, is so after every
run that does. It may be about all that has been done and seen. -/
@[elab_as_elim]
theorem keeps_run {P : List (Action α π) → Prop} (start : P [])
    (step : ∀ before action, w.Obeys m rule before → rule (w.applyAll m before) action →
      P before → P (before ++ [action]))
    {actions : List (Action α π)} (obeys : w.Obeys m rule actions) : P actions := by
  -- The induction is on what is still to be done; what has been done grows at its end.
  have onward : ∀ rest before, P before → w.Obeys m rule (before ++ rest) → P (before ++ rest) := by
    intro rest
    induction rest with
    | nil =>
      intro before kept _
      rw [List.append_nil]
      exact kept
    | cons action rest ih =>
      intro before kept obeys
      obtain ⟨earlier, now, -⟩ := obeys_append.mp obeys
      have next := ih (before ++ [action]) (step before action earlier now kept)
      rw [List.append_assoc] at next
      exact next obeys
  exact onward actions [] start obeys

end

/-! ## What everybody is doing -/

theorem lookup_cons_of_ne {τ : Type} {id task : TaskId} (different : task ≠ id) (value : τ)
    (entries : List (TaskId × τ)) : ((id, value) :: entries).lookup task = entries.lookup task := by
  rw [List.lookup_cons, beq_false_of_ne different]

theorem lookup_filter_self {τ : Type} (entries : List (TaskId × τ)) (task : TaskId) :
    (entries.filter fun entry => entry.1 != task).lookup task = none := by
  rw [List.lookup_eq_none_iff]
  intro entry there
  have different : entry.1 ≠ task := bne_iff_ne.mp (List.mem_filter.mp there).2
  exact bne_iff_ne.mpr (Ne.symm different)

theorem lookup_replace_self {τ : Type} (entries : List (TaskId × τ)) (task : TaskId) (value : τ) :
    (entries.map fun entry => if entry.1 = task then (task, value) else entry).lookup task =
      (entries.lookup task).map fun _ => value := by
  induction entries with
  | nil => rfl
  | cons entry rest ih =>
    obtain ⟨id, phase⟩ := entry
    rw [List.map_cons]
    by_cases here : id = task
    · rw [if_pos here, here, List.lookup_cons_self, List.lookup_cons_self]
      rfl
    · rw [if_neg here, lookup_cons_of_ne (Ne.symm here), lookup_cons_of_ne (Ne.symm here), ih]

theorem lookup_replace_of_ne {τ : Type} {task other : TaskId} (different : other ≠ task)
    (entries : List (TaskId × τ)) (value : τ) :
    (entries.map fun entry => if entry.1 = task then (task, value) else entry).lookup other =
      entries.lookup other := by
  induction entries with
  | nil => rfl
  | cons entry rest ih =>
    obtain ⟨id, phase⟩ := entry
    rw [List.map_cons]
    by_cases here : id = task
    · rw [if_pos here, here, lookup_cons_of_ne different, lookup_cons_of_ne different, ih]
    · rw [if_neg here]
      by_cases found : other = id
      · rw [found, List.lookup_cons_self, List.lookup_cons_self]
      · rw [lookup_cons_of_ne found, lookup_cons_of_ne found, ih]

variable {m : Machine α σ π ρ} {w : World σ π ρ}

theorem phase?_leave (w : World σ π ρ) (task : TaskId) :
    (w.leave task).phase? = Work.set w.phase? task none := by
  funext other
  by_cases same : other = task
  · rw [same, Work.set_self]
    exact lookup_filter_self w.tasks task
  · rw [Work.set_of_ne _ _ _ same]
    exact Lock.lookup_filter (Ne.symm same)

theorem phase?_goOn {task : TaskId} {phase : π} (there : w.phase? task = some phase) (next : π) :
    (w.goOn task next).phase? = Work.set w.phase? task (some next) := by
  funext other
  by_cases same : other = task
  · rw [same, Work.set_self]
    refine (lookup_replace_self w.tasks task next).trans ?_
    rw [show w.tasks.lookup task = some phase from there]
    rfl
  · rw [Work.set_of_ne _ _ _ same]
    exact lookup_replace_of_ne same w.tasks next

/-- Numbers are given out in order: the next one has not been used, and who has finished is no
longer at work. -/
structure Numbered (w : World σ π ρ) : Prop where
  working : ∀ task phase, w.phase? task = some phase → task < w.next
  finished : ∀ task result, w.result? task = some result → task < w.next ∧ w.phase? task = none

theorem numbered_ofState (state : σ) : (ofState state : World σ π ρ).Numbered where
  working _ _ there := by cases there
  finished _ _ there := by cases there

theorem Numbered.phase?_next (numbered : w.Numbered) : w.phase? w.next = none := by
  cases there : w.phase? w.next with
  | none => rfl
  | some phase => exact absurd (numbered.working _ _ there) (Nat.lt_irrefl _)

theorem phase?_start (numbered : w.Numbered) (phase : π) :
    (w.start phase).phase? = Work.set w.phase? w.next (some phase) := by
  funext other
  show (w.tasks ++ [(w.next, phase)]).lookup other = _
  rw [List.lookup_append]
  by_cases same : other = w.next
  · rw [same, Work.set_self, show w.tasks.lookup w.next = none from numbered.phase?_next,
      List.lookup_cons_self]
    rfl
  · rw [Work.set_of_ne _ _ _ same, lookup_cons_of_ne same]
    exact Option.or_none

/-! ## What an action makes of it -/

theorem run_of_none {task : TaskId} (none : w.phase? task = none) : w.run m task = w := by
  rw [run, none]

theorem run_of_unready {task : TaskId} {phase : π} (there : w.phase? task = some phase)
    (waits : m.ready task w.clock phase w.state = false) : w.run m task = w := by
  rw [run, there]
  simp only [waits, Bool.false_eq_true, if_false]

theorem run_of_not_ready {task : TaskId} (waits : w.ready m task = false) : w.run m task = w := by
  unfold ready at waits
  cases there : w.phase? task with
  | none => exact run_of_none there
  | some phase =>
    rw [there] at waits
    exact run_of_unready there waits

theorem exists_phase_of_ready {task : TaskId} (ready : w.ready m task = true) :
    ∃ phase, w.phase? task = some phase ∧ m.ready task w.clock phase w.state = true := by
  unfold World.ready at ready
  cases there : w.phase? task with
  | none => rw [there] at ready; cases ready
  | some phase => rw [there] at ready; exact ⟨phase, rfl, ready⟩

/-- A step that a task is not ready for does nothing. -/
theorem run_cases (m : Machine α σ π ρ) (w : World σ π ρ) (task : TaskId) :
    w.run m task = w ∨
    ∃ phase, w.phase? task = some phase ∧ m.ready task w.clock phase w.state = true := by
  cases there : w.phase? task with
  | none => exact Or.inl (run_of_none there)
  | some phase =>
    cases ready : m.ready task w.clock phase w.state with
    | false => exact Or.inl (run_of_unready there ready)
    | true => exact Or.inr ⟨phase, rfl, ready⟩

section

variable {task : TaskId} {phase : π}

/-- The world after a step, whoever it starts being left out. -/
def stepped (m : Machine α σ π ρ) (w : World σ π ρ) (task : TaskId) (phase : π) : World σ π ρ :=
  let turn := m.step task w.clock phase w.state
  match turn.next with
  | .inl phase => { w with state := turn.state }.goOn task phase
  | .inr result => { w with state := turn.state }.finish task result

theorem run_of_ready (there : w.phase? task = some phase)
    (ready : m.ready task w.clock phase w.state = true) :
    w.run m task =
      match (m.step task w.clock phase w.state).spawned? with
      | none => w.stepped m task phase
      | some started => (w.stepped m task phase).start started := by
  rw [run, there]
  simp only [ready, if_true]
  rfl

theorem state_stepped (m : Machine α σ π ρ) (w : World σ π ρ) (task : TaskId) (phase : π) :
    (w.stepped m task phase).state = (m.step task w.clock phase w.state).state := by
  unfold stepped
  simp only
  split <;> rfl

theorem next_stepped (m : Machine α σ π ρ) (w : World σ π ρ) (task : TaskId) (phase : π) :
    (w.stepped m task phase).next = w.next := by
  unfold stepped
  simp only
  split <;> rfl

theorem phase?_stepped (m : Machine α σ π ρ) (there : w.phase? task = some phase) :
    (w.stepped m task phase).phase? =
      Work.set w.phase? task (m.step task w.clock phase w.state).next.getLeft? := by
  unfold stepped
  simp only
  split
  next next same => rw [same]; exact phase?_goOn there next
  next result same => rw [same]; exact phase?_leave w task

theorem result?_stepped (m : Machine α σ π ρ) (w : World σ π ρ) (task : TaskId) (phase : π)
    (other : TaskId) :
    (w.stepped m task phase).result? other =
      (w.result? other).or
        (if other = task then (m.step task w.clock phase w.state).next.getRight? else none) := by
  unfold stepped
  simp only
  split
  next next same =>
    rw [same]
    show w.result? other = _
    split <;> exact Option.or_none.symm
  next result same =>
    rw [same]
    show (w.results ++ [(task, result)]).lookup other = _
    rw [List.lookup_append]
    by_cases found : other = task
    · rw [if_pos found, found, List.lookup_cons_self]
      rfl
    · rw [if_neg found, lookup_cons_of_ne found]
      rfl

theorem Numbered.stepped (numbered : w.Numbered) (m : Machine α σ π ρ)
    (there : w.phase? task = some phase) : (w.stepped m task phase).Numbered where
  working other found at_work := by
    rw [phase?_stepped m there] at at_work
    rw [next_stepped]
    rcases Work.set_cases _ _ _ at_work with ⟨rfl, -⟩ | ⟨-, earlier⟩
    · exact numbered.working _ _ there
    · exact numbered.working _ _ earlier
  finished other result finished := by
    rw [next_stepped, phase?_stepped m there]
    rw [result?_stepped] at finished
    by_cases same : other = task
    · subst same
      refine ⟨numbered.working _ _ there, ?_⟩
      rw [Work.set_self]
      cases earlier : w.result? other with
      | some found =>
        rw [(numbered.finished _ _ earlier).2] at there
        cases there
      | none =>
        rw [earlier, if_pos rfl] at finished
        cases next : (m.step other w.clock phase w.state).next with
        | inl phase => rw [next] at finished; cases finished
        | inr result => rfl
    · rw [if_neg same, Option.or_none] at finished
      rw [Work.set_of_ne _ _ _ same]
      exact numbered.finished _ _ finished

theorem Numbered.start (numbered : w.Numbered) (phase : π) : (w.start phase).Numbered where
  working other found at_work := by
    rw [phase?_start numbered] at at_work
    rcases Work.set_cases _ _ _ at_work with ⟨rfl, -⟩ | ⟨-, earlier⟩
    · exact Nat.lt_succ_self _
    · exact Nat.lt_succ_of_lt (numbered.working _ _ earlier)
  finished other result finished := by
    obtain ⟨below, none⟩ := numbered.finished other result finished
    refine ⟨Nat.lt_succ_of_lt below, ?_⟩
    rw [phase?_start numbered, Work.set_of_ne _ _ _ (Nat.ne_of_lt below)]
    exact none

theorem state_run (there : w.phase? task = some phase)
    (ready : m.ready task w.clock phase w.state = true) :
    (w.run m task).state = (m.step task w.clock phase w.state).state := by
  rw [run_of_ready there ready]
  split <;> exact state_stepped m w task phase

/-- What everybody is doing after a step. -/
theorem phase?_run (numbered : w.Numbered) (there : w.phase? task = some phase)
    (ready : m.ready task w.clock phase w.state = true) :
    (w.run m task).phase? =
      Work.set (Work.set w.phase? task (m.step task w.clock phase w.state).next.getLeft?) w.next
        (m.step task w.clock phase w.state).spawned? := by
  have stepped := numbered.stepped m there
  rw [run_of_ready there ready]
  cases (m.step task w.clock phase w.state).spawned? with
  | none =>
    show (w.stepped m task phase).phase? = _
    rw [← phase?_stepped m there]
    funext other
    by_cases same : other = w.next
    · rw [same, Work.set_self, ← next_stepped m w task phase]
      exact stepped.phase?_next
    · rw [Work.set_of_ne _ _ _ same]
  | some started =>
    show ((w.stepped m task phase).start started).phase? = _
    rw [phase?_start stepped, phase?_stepped m there, next_stepped]

/-- What somebody is doing after a step of his own. -/
theorem phase?_run_self (numbered : w.Numbered) (there : w.phase? task = some phase)
    (ready : m.ready task w.clock phase w.state = true) :
    (w.run m task).phase? task = (m.step task w.clock phase w.state).next.getLeft? := by
  rw [phase?_run numbered there ready,
    Work.set_of_ne _ _ _ (Nat.ne_of_lt (numbered.working task phase there)), Work.set_self]

/-- Who is at work has no result yet. -/
theorem Numbered.result?_of_phase (numbered : w.Numbered) (there : w.phase? task = some phase) :
    w.result? task = none := by
  cases finished : w.result? task with
  | none => rfl
  | some result => cases there.symm.trans (numbered.finished task result finished).2

/-- What everybody is doing after a step that starts nobody. -/
theorem phase?_run_of_spawned_none (there : w.phase? task = some phase)
    (ready : m.ready task w.clock phase w.state = true)
    (nobody : (m.step task w.clock phase w.state).spawned? = none) :
    (w.run m task).phase? =
      Work.set w.phase? task (m.step task w.clock phase w.state).next.getLeft? := by
  rw [run_of_ready there ready, nobody]
  exact phase?_stepped m there

theorem result?_run (there : w.phase? task = some phase)
    (ready : m.ready task w.clock phase w.state = true) (other : TaskId) :
    (w.run m task).result? other =
      (w.result? other).or
        (if other = task then (m.step task w.clock phase w.state).next.getRight? else none) := by
  rw [run_of_ready there ready, ← result?_stepped]
  split <;> rfl

end

theorem abandon_of_none {task : TaskId} (none : w.phase? task = none) : w.abandon m task = w := by
  rw [abandon, none]

theorem abandon_of_phase {task : TaskId} {phase : π} (there : w.phase? task = some phase) :
    w.abandon m task = { w.leave task with state := m.release task phase w.state } := by
  rw [abandon, there]

theorem phase?_abandon (m : Machine α σ π ρ) (w : World σ π ρ) (task : TaskId) :
    (w.abandon m task).phase? = Work.set w.phase? task none := by
  cases there : w.phase? task with
  | none =>
    rw [abandon_of_none there]
    funext other
    by_cases same : other = task
    · rw [same, there, Work.set_self]
    · rw [Work.set_of_ne _ _ _ same]
  | some phase =>
    rw [abandon_of_phase there]
    exact phase?_leave w task

theorem next_abandon (m : Machine α σ π ρ) (w : World σ π ρ) (task : TaskId) :
    (w.apply m (.abandon task)).next = w.next := by
  show (w.abandon m task).next = _
  unfold abandon
  split <;> rfl

theorem result?_abandon (m : Machine α σ π ρ) (w : World σ π ρ) (task other : TaskId) :
    (w.apply m (.abandon task)).result? other = w.result? other := by
  show (w.abandon m task).result? other = _
  unfold abandon
  split <;> rfl

theorem Numbered.apply (numbered : w.Numbered) (m : Machine α σ π ρ) (action : Action α π) :
    (w.apply m action).Numbered := by
  cases action with
  | start phase => exact numbered.start phase
  | run task =>
    show (w.run m task).Numbered
    rcases run_cases m w task with same | ⟨phase, there, ready⟩
    · rw [same]
      exact numbered
    · rw [run_of_ready there ready]
      split
      next => exact numbered.stepped m there
      next started _ => exact (numbered.stepped m there).start started
  | abandon task =>
    refine ⟨fun other phase at_work => ?_, fun other result finished => ?_⟩ <;>
      rw [next_abandon]
    · -- Whoever is at work afterwards was at work before.
      have now : (w.abandon m task).phase? other = some phase := at_work
      rw [phase?_abandon] at now
      rcases Work.set_cases _ _ _ now with ⟨-, gone⟩ | ⟨-, earlier⟩
      · cases gone
      · exact numbered.working _ _ earlier
    · have before : w.result? other = some result :=
        (result?_abandon m w task other).symm.trans finished
      obtain ⟨below, none⟩ := numbered.finished _ _ before
      refine ⟨below, ?_⟩
      show (w.abandon m task).phase? other = _
      rw [phase?_abandon]
      by_cases same : other = task
      · rw [same, Work.set_self]
      · rw [Work.set_of_ne _ _ _ same, none]
  | outside act => exact ⟨numbered.working, numbered.finished⟩
  | wait ms => exact ⟨numbered.working, numbered.finished⟩

/-- Numbers are not given out twice. -/
theorem next_le_apply (m : Machine α σ π ρ) (w : World σ π ρ) (action : Action α π) :
    w.next ≤ (w.apply m action).next := by
  cases action with
  | start phase => exact Nat.le_succ _
  | run task =>
    show w.next ≤ (w.run m task).next
    rcases run_cases m w task with same | ⟨phase, there, ready⟩
    · exact Nat.le_of_eq (congrArg next same).symm
    · rw [run_of_ready there ready]
      split
      · exact Nat.le_of_eq (next_stepped m w task phase).symm
      · show w.next ≤ (w.stepped m task phase).next + 1
        rw [next_stepped]
        exact Nat.le_succ _
  | abandon task => exact Nat.le_of_eq (next_abandon m w task).symm
  | outside act => exact Nat.le_refl _
  | wait ms => exact Nat.le_refl _

/-- Whoever neither takes a step nor is given up is doing what he did. -/
theorem phase?_apply_of_old (numbered : w.Numbered) {m : Machine α σ π ρ} {action : Action α π}
    {task : TaskId} (old : task < w.next) (unrun : action ≠ .run task)
    (kept : action ≠ .abandon task) : (w.apply m action).phase? task = w.phase? task := by
  have before : task ≠ w.next := Nat.ne_of_lt old
  cases action with
  | start started =>
    show (w.start started).phase? task = _
    rw [phase?_start numbered, Work.set_of_ne _ _ _ before]
  | run other =>
    have different : task ≠ other := fun same => unrun (same ▸ rfl)
    show (w.run m other).phase? task = _
    rcases run_cases m w other with same | ⟨found, at_work, ready⟩
    · rw [same]
    · rw [phase?_run numbered at_work ready, Work.set_of_ne _ _ _ before,
        Work.set_of_ne _ _ _ different]
  | abandon other =>
    have different : task ≠ other := fun same => kept (same ▸ rfl)
    show (w.abandon m other).phase? task = _
    rw [phase?_abandon, Work.set_of_ne _ _ _ different]
  | outside act => rfl
  | wait ms => rfl

/-- Whoever is at work goes on as before, unless he takes a step or is given up. -/
theorem phase?_apply_of_other (numbered : w.Numbered) {m : Machine α σ π ρ} {action : Action α π}
    {task : TaskId} {phase : π} (there : w.phase? task = some phase) (unrun : action ≠ .run task)
    (kept : action ≠ .abandon task) : (w.apply m action).phase? task = some phase :=
  (phase?_apply_of_old numbered (numbered.working task phase there) unrun kept).trans there

/-- Whoever has finished stays so. -/
theorem result?_apply {task : TaskId} {result : ρ} (finished : w.result? task = some result)
    (action : Action α π) : (w.apply m action).result? task = some result := by
  cases action with
  | start phase => exact finished
  | run other =>
    show (w.run m other).result? task = some result
    rcases run_cases m w other with same | ⟨phase, there, ready⟩
    · rw [same]
      exact finished
    · rw [result?_run there ready, finished]
      rfl
  | abandon other => exact (result?_abandon m w other task).trans finished
  | outside act => exact finished
  | wait ms => exact finished

end World

end HardwareSigner
