import HardwareSigner.Proofs.Listener.Moves

/-!
# The line for the registry

Whoever works on a registry stands in line for its lock, from its first step to its last
(`Registry.InLine`). So a task that has asked for the lock to unlink everybody gets it only after
all those who had asked before it. Whoever links a listener after that has asked later.

> `Registry.Awaits.keeps`: as long as such a task waits, those ahead of it stay ahead.
> `Registry.Awaits.swept`: when it gets the lock, all who still have somebody to link are late.
-/

namespace HardwareSigner

namespace Lock

/-- Who stands in line. -/
def line (l : Lock) : List TaskId := l.queue.map Prod.fst

/-- Who stands in line before a task. -/
def ahead (l : Lock) (task : TaskId) : List TaskId :=
  (l.queue.takeWhile fun place => place.1 != task).map Prod.fst

variable {l : Lock} {task other one : TaskId}

theorem mem_line_request (mode : LockMode) :
    other ∈ (l.request task mode).line ↔ other ∈ l.line ∨ other = task := by
  unfold line request
  rw [List.map_append, List.mem_append, List.map_singleton, List.mem_singleton]

theorem mem_line_release : other ∈ (l.release task).line ↔ other ∈ l.line ∧ other ≠ task := by
  unfold line release
  simp only [List.mem_map, List.mem_filter, bne_iff_ne]
  constructor
  · rintro ⟨place, ⟨there, different⟩, rfl⟩
    exact ⟨⟨place, there, rfl⟩, different⟩
  · rintro ⟨⟨place, there, rfl⟩, different⟩
    exact ⟨place, ⟨there, different⟩, rfl⟩

theorem mem_line_of_lookup {mode : LockMode} (found : l.queue.lookup task = some mode) :
    task ∈ l.line :=
  List.mem_map.mpr ⟨_, mem_of_lookup found, rfl⟩

/-- Who asks for the lock stands behind everybody. -/
theorem ahead_request_self (absent : task ∉ l.line) (mode : LockMode) :
    (l.request task mode).ahead task = l.line := by
  have all : ∀ place ∈ l.queue, (place.1 != task) = true := by
    intro place there
    rw [bne_iff_ne]
    rintro rfl
    exact absent (List.mem_map.mpr ⟨place, there, rfl⟩)
  unfold ahead request line
  rw [List.takeWhile_append_of_pos all, List.takeWhile_cons_of_neg (by simp), List.append_nil]

/-- Whoever asks later stands behind. -/
theorem ahead_request (there : task ∈ l.line) (mode : LockMode) :
    (l.request other mode).ahead task = l.ahead task := by
  obtain ⟨place, member, same⟩ := List.mem_map.mp there
  -- Looking from the front one comes to the task before one comes to the new place.
  have stops : (l.queue.takeWhile fun place => place.1 != task).length ≠ l.queue.length := by
    intro whole
    have all := (List.takeWhile_prefix fun place : TaskId × LockMode =>
      place.1 != task).eq_of_length whole
    rw [← all] at member
    have before := List.all_eq_true.mp List.all_takeWhile _ member
    exact bne_iff_ne.mp before same
  unfold ahead request
  rw [List.takeWhile_append, if_neg stops]

theorem mem_ahead_release (different : other ≠ task) :
    one ∈ (l.release other).ahead task ↔ one ∈ l.ahead task ∧ one ≠ other := by
  unfold ahead release
  simp only [takeWhile_filter different, List.mem_map, List.mem_filter, bne_iff_ne]
  constructor
  · rintro ⟨place, ⟨there, apart⟩, rfl⟩
    exact ⟨⟨place, there, rfl⟩, apart⟩
  · rintro ⟨⟨place, there, rfl⟩, apart⟩
    exact ⟨place, ⟨there, apart⟩, rfl⟩

/-- Nobody stands before a task that has the lock for itself. -/
theorem ahead_of_granted (alone : l.queue.lookup task = some .exclusive)
    (granted : l.granted task = true) : l.ahead task = [] := by
  obtain ⟨rest, first⟩ := first_of_granted alone granted
  unfold ahead
  rw [first, List.takeWhile_cons_of_neg (by simp)]
  rfl

theorem lookup_request (there : task ∈ l.line) (mode : LockMode) :
    (l.request other mode).queue.lookup task = l.queue.lookup task := by
  unfold request
  rw [List.lookup_append]
  cases found : l.queue.lookup task with
  | some mode => rfl
  | none =>
    obtain ⟨place, member, same⟩ := List.mem_map.mp there
    have apart := List.lookup_eq_none_iff.mp found place member
    exact absurd (beq_iff_eq.mpr same.symm) (by simpa using apart)

end Lock

namespace Operation

namespace Phase

variable {M : Type}

/-- Whether a task stands in line. -/
def stands : Phase M → Bool
  | .begin _ => false
  | _ => true

/-- Whether a task has a listener to link. -/
def adds : Phase M → Bool
  | .begin (.add _) | .adding _ => true
  | _ => false

/-- What a step makes of the place of a task in line, which has one before or after it as the two
flags say. -/
inductive Shifts (task : TaskId) (l : Lock) : Bool → Bool → Lock → Prop
  | stays (stands : Bool) : Shifts task l stands stands l
  | comes (mode : LockMode) : Shifts task l false true (l.request task mode)
  | goes (stood : Bool) : Shifts task l stood false (l.release task)
  | again : Shifts task l true true ((l.release task).request task .exclusive)

theorem Shifts.mem_line {task : TaskId} {l l' : Lock} {stood stands : Bool}
    (shifts : Shifts task l stood stands l') :
    ((task ∈ l.line ↔ stood = true) → (task ∈ l'.line ↔ stands = true)) ∧
      ∀ other, other ≠ task → (other ∈ l'.line ↔ other ∈ l.line) := by
  cases shifts with
  | stays => exact ⟨id, fun _ _ => Iff.rfl⟩
  | comes mode =>
    refine ⟨fun _ => iff_of_true ((Lock.mem_line_request mode).mpr (Or.inr rfl)) rfl, ?_⟩
    intro other different
    rw [Lock.mem_line_request, or_iff_left different]
  | goes =>
    refine ⟨fun _ => iff_of_false (fun there => (Lock.mem_line_release.mp there).2 rfl)
      Bool.false_ne_true, fun other different => ?_⟩
    rw [Lock.mem_line_release, and_iff_left different]
  | again =>
    refine ⟨fun _ => iff_of_true ((Lock.mem_line_request _).mpr (Or.inr rfl)) rfl, ?_⟩
    intro other different
    rw [Lock.mem_line_request, or_iff_left different, Lock.mem_line_release,
      and_iff_left different]

/-- The place in line of a task that waits, and of those before it, when somebody else moves. -/
theorem Shifts.waits {task closer : TaskId} {l l' : Lock} {stood stands : Bool}
    (shifts : Shifts task l stood stands l') (other : task ≠ closer) (there : closer ∈ l.line) :
    l'.queue.lookup closer = l.queue.lookup closer ∧
      ∀ one, one ≠ task → one ∈ l.ahead closer → one ∈ l'.ahead closer := by
  have remains : closer ∈ (l.release task).line := Lock.mem_line_release.mpr ⟨there, other.symm⟩
  have left : (l.release task).queue.lookup closer = l.queue.lookup closer :=
    Lock.lookup_filter other
  have before : ∀ one, one ≠ task → one ∈ l.ahead closer → one ∈ (l.release task).ahead closer :=
    fun one apart ahead => (Lock.mem_ahead_release other).mpr ⟨ahead, apart⟩
  cases shifts with
  | stays => exact ⟨rfl, fun _ _ ahead => ahead⟩
  | comes mode =>
    refine ⟨Lock.lookup_request there mode, fun one _ ahead => ?_⟩
    rw [Lock.ahead_request there]
    exact ahead
  | goes => exact ⟨left, before⟩
  | again =>
    refine ⟨(Lock.lookup_request remains _).trans left, fun one apart ahead => ?_⟩
    rw [Lock.ahead_request remains]
    exact before one apart ahead

theorem lock_cancelAll (r : Registry M) : r.cancelAll.lock = r.lock :=
  List.foldlRecOn (motive := fun (after : Registry M) => after.lock = r.lock) r.tokens _ rfl
    fun _ same _ _ => same

theorem lock_offerAll (event : Event M) (r : Registry M) : (r.offerAll event).2.lock = r.lock :=
  List.foldlRecOn (motive := fun (after : Registry M) => after.lock = r.lock) _ _ rfl
    fun _ same _ _ => same

theorem lock_link (id : ListenerId) (r : Registry M) : (r.link id).2.lock = r.lock := by
  unfold Registry.link
  simp only
  split <;> rfl

variable {task : TaskId} {phase : Phase M} {next : Phase M ⊕ Answer} {r after : Registry M}

theorem WrapsUp.shifts {delivered : Nat} {stale : Bool} {l : Lock}
    (wraps : WrapsUp task delivered r stale next after) (same : r.lock = l) :
    Shifts task l true (next.getLeft?.any stands) after.lock := by
  cases wraps with
  | ends => exact same ▸ .goes true
  | prunes => exact same ▸ .again

theorem WrapsUp.prunes_of_left {delivered : Nat} {stale : Bool} {later : Phase M}
    (wraps : WrapsUp task delivered r stale (.inl later) after) : later = .pruning delivered := by
  cases wraps
  rfl

theorem Faces.stands {event : Event M} {box : MailboxId} {rest : List MailboxId} {delivered : Nat}
    {stale : Bool} (faces : Faces task event box rest delivered stale r phase after) :
    phase.stands = true ∧ after.lock = r.lock := by
  cases faces <;> exact ⟨rfl, rfl⟩

/-- Every step leaves the place of its task as it has to be. -/
theorem Steps.shifts (steps : Steps task r phase next after) :
    Shifts task r.lock phase.stands (next.getLeft?.any stands) after.lock := by
  cases steps with
  | asks asks => cases asks <;> exact .comes _
  | misses unknown => exact .stays false
  | cancels there => exact .comes .exclusive
  | cancelsAll =>
    show Shifts task r.lock false true (r.cancelAll.lock.request task .exclusive)
    rw [lock_cancelAll]
    exact .comes .exclusive
  | links id =>
    show Shifts task r.lock true false ((r.link id).2.lock.release task)
    rw [lock_link]
    exact .goes true
  | takes event => exact .stays true
  | wrapsUp wraps => exact wraps.shifts rfl
  | passes faces dead =>
    obtain ⟨stands, same⟩ := faces.stands
    rw [stands, same]
    exact .stays true
  | quits faces shut =>
    obtain ⟨stands, same⟩ := faces.stands
    show Shifts task r.lock _ false (_ : Lock)
    rw [stands]
    exact same ▸ .goes true
  | gives faces live unshut room =>
    obtain ⟨stands, same⟩ := faces.stands
    rw [stands]
    exact same ▸ .stays true
  | parks => exact .stays true
  | tries wraps => exact wraps.shifts (lock_offerAll _ r)
  | _ => exact .goes true

theorem lock_release (phase : Phase M) (task : TaskId) (r : Registry M) :
    (phase.release task r).lock = r.lock.release task := by
  cases phase <;> rfl

/-- A task that waits to link a listener has just begun with it. -/
theorem Steps.of_adding {id : ListenerId} (steps : Steps task r phase (.inl (.adding id)) after) :
    phase = .begin (.add id) := by
  cases steps with
  | asks asks =>
    cases asks
    rfl
  | wrapsUp wraps => cases wraps.prunes_of_left
  | tries wraps => cases wraps.prunes_of_left

/-- So has a task that waits to unlink everybody. -/
theorem Steps.of_clearing (steps : Steps task r phase (.inl .clearing) after) :
    phase = .begin .clear := by
  cases steps with
  | asks asks => cases asks
  | cancelsAll => rfl
  | wrapsUp wraps => cases wraps.prunes_of_left
  | tries wraps => cases wraps.prunes_of_left

/-- No step leads back to the beginning. -/
theorem Steps.not_begin {operation : Operation M} :
    ¬ Steps task r phase (.inl (.begin operation)) after := by
  intro steps
  cases steps with
  | asks asks => cases asks
  | wrapsUp wraps => cases wraps.prunes_of_left
  | tries wraps => cases wraps.prunes_of_left

end Phase

end Operation

namespace Registry

open Operation (Phase)

variable {M : Type}

/-- Exactly those stand in line who have begun to work on the registry. -/
def InLine (work : Work (Phase M)) (r : Registry M) : Prop :=
  ∀ task, task ∈ r.lock.line ↔ (work task).any Phase.stands = true

/-- What a move makes of the line. -/
inductive Requeues (work : Work (Phase M)) (r r' : Registry M) : Work (Phase M) → Prop
  | rests (same : r'.lock = r.lock) : Requeues work r r' work
  | shifts (task : TaskId) (next? : Option (Phase M))
      (shifts : Phase.Shifts task r.lock ((work task).any Phase.stands) (next?.any Phase.stands)
        r'.lock)
      (adding : ∀ id, next? = some (.adding id) → work task = some (.begin (.add id)))
      (clearing : next? = some .clearing → work task = some (.begin .clear)) :
      Requeues work r r' (work.set task next?)

theorem lock_act (r : Registry M) (act : Act) : (r.act act).lock = r.lock := by
  obtain ⟨mailboxes, shut, same, -⟩ := r.act_eq act
  rw [same]

section

variable {going' : Prop} {took : List (TaskId × Event M)} {tried : List (Event M)}
  {work work' : Work (Phase M)} {r r' : Registry M}

theorem Moves.requeues (moves : Moves going' work r took tried work' r') :
    Requeues work r r' work' := by
  have stepped : ∀ {task : TaskId} {phase : Phase M}, work task = some phase →
      Phase.Shifts task r.lock ((work task).any Phase.stands)
        ((phase.step task r).1.getLeft?.any Phase.stands) (phase.step task r).2.lock := by
    intro task phase there
    rw [there]
    exact (phase.steps task r).shifts
  cases moves with
  | same => exact .rests rfl
  | begins task operation fresh =>
    refine .shifts task _ ?_ (fun id same => nomatch same) fun same => nomatch same
    rw [fresh]
    exact .stays false
  | steps task phase there =>
    have steps := phase.steps task r
    refine .shifts task _ (stepped there) (fun id adding => ?_) fun clearing => ?_
    · rw [Sum.getLeft?_eq_some_iff.mp adding] at steps
      rw [there, steps.of_adding]
    · rw [Sum.getLeft?_eq_some_iff.mp clearing] at steps
      rw [there, steps.of_clearing]
  | follows task phase there finished operation =>
    have shifts := stepped there
    rw [finished] at shifts
    exact .shifts task _ shifts (fun id same => nomatch same) fun same => nomatch same
  | leaves task phase there stops =>
    refine .shifts task none ?_ (fun id same => nomatch same) fun same => nomatch same
    rw [Phase.lock_release]
    exact .goes _
  | acts act => exact .rests (lock_act r act)
  | unlinks shut => exact .rests rfl

/-- Whatever move is made, the line is as it has to be. -/
theorem Requeues.inLine (requeues : Requeues work r r' work') (inLine : InLine work r) :
    InLine work' r' := by
  cases requeues with
  | rests same =>
    intro other
    rw [same]
    exact inLine other
  | shifts task next? shifts adding clearing =>
    obtain ⟨mine, others⟩ := shifts.mem_line
    intro other
    by_cases same : other = task
    · rw [same, Work.set_self]
      exact mine (inLine task)
    · rw [Work.set_of_ne _ _ _ same, others other same]
      exact inLine other

/-! ## Waiting to unlink everybody -/

/-- Only who is `late` still has a listener to link. -/
def Swept (late : TaskId → Prop) (work : Work (Phase M)) : Prop :=
  ∀ task phase, work task = some phase → phase.adds = true → late task

/-- A task waits to unlink everybody. Whoever still has a listener to link stands before it in line,
or is late. -/
structure Awaits (late : TaskId → Prop) (closer : TaskId) (work : Work (Phase M))
    (r : Registry M) : Prop where
  clears : work closer = some .clearing
  alone : r.lock.queue.lookup closer = some .exclusive
  ahead : ∀ task id, work task = some (.adding id) → late task ∨ task ∈ r.lock.ahead closer
  begun : ∀ task id, work task = some (.begin (.add id)) → late task

theorem eq_of_adds {phase : Phase M} (adds : phase.adds = true) :
    ∃ id, phase = .begin (.add id) ∨ phase = .adding id := by
  cases phase with
  | begin operation =>
    cases operation with
    | add id => exact ⟨id, Or.inl rfl⟩
    | _ => cases adds
  | adding id => exact ⟨id, Or.inr rfl⟩
  | _ => cases adds

variable {late : TaskId → Prop} {closer : TaskId}

/-- Who asks for the lock to unlink everybody. Late are those who have not asked yet. -/
theorem awaits_of_clear (inLine : InLine work r) (clear : work closer = some (.begin .clear)) :
    Awaits (fun task => ∃ id, work task = some (.begin (.add id))) closer
      (work.set closer (some .clearing)) (r.cancelAll.asks closer .exclusive) := by
  have absent : closer ∉ r.lock.line := by
    rw [inLine closer, clear]
    exact Bool.false_ne_true
  have queue : (r.cancelAll.asks closer .exclusive).lock = r.lock.request closer .exclusive :=
    congrArg (·.request closer .exclusive) (Phase.lock_cancelAll r)
  refine ⟨Work.set_self _ _ _, ?_, fun task id adding => ?_, fun task id begun => ?_⟩
  · rw [queue]
    unfold Lock.request
    rw [List.lookup_append, List.lookup_eq_none_iff.mpr, List.lookup_cons_self]
    · rfl
    · intro place there
      rw [bne_iff_ne]
      rintro rfl
      exact absent (List.mem_map.mpr ⟨place, there, rfl⟩)
  · rcases Work.set_cases _ _ _ adding with ⟨-, same⟩ | ⟨-, there⟩
    · cases same
    · rw [queue, Lock.ahead_request_self absent, inLine task, there]
      exact Or.inr rfl
  · rcases Work.set_cases _ _ _ begun with ⟨-, same⟩ | ⟨-, there⟩
    · cases same
    · exact ⟨id, there⟩

/-- While the task waits, those before it stay before it, and nobody new is let in. -/
theorem Awaits.keeps (awaits : Awaits late closer work r) (requeues : Requeues work r r' work')
    (unmet : ∀ task id, work' task = some (.begin (.add id)) → work task = some (.begin (.add id)))
    (still : work' closer = some .clearing) : Awaits late closer work' r' := by
  cases requeues with
  | rests same =>
    refine ⟨still, ?_, ?_, fun task id begun => awaits.begun task id (unmet task id begun)⟩
    · rw [same]
      exact awaits.alone
    · rw [same]
      exact awaits.ahead
  | shifts task next? shifts adding clearing =>
    -- It is somebody else who moves: a step of the task itself would end its waiting.
    have other : task ≠ closer := by
      rintro rfl
      rw [Work.set_self] at still
      cases awaits.clears.symm.trans (clearing still)
    obtain ⟨place, before⟩ := shifts.waits other (Lock.mem_line_of_lookup awaits.alone)
    refine ⟨still, place.trans awaits.alone, fun one id there => ?_,
      fun task id begun => awaits.begun task id (unmet task id begun)⟩
    rcases Work.set_cases _ _ _ there with ⟨rfl, now⟩ | ⟨apart, earlier⟩
    · -- Who asks only now stands behind, but has been late all along.
      exact Or.inl (awaits.begun one id (adding id now))
    · exact (awaits.ahead one id earlier).imp_right (before one apart)

/-- When the task has the lock, only who is late still has a listener to link. -/
theorem Awaits.swept (awaits : Awaits late closer work r) (granted : r.lock.granted closer = true) :
    Swept late work := by
  intro task phase there adds
  obtain ⟨id, rfl | rfl⟩ := eq_of_adds adds
  · exact awaits.begun task id there
  · refine (awaits.ahead task id there).resolve_right fun before => ?_
    rw [Lock.ahead_of_granted awaits.alone granted] at before
    cases before

/-- Nobody new is let in afterwards. -/
theorem Swept.keeps (swept : Swept late work) (requeues : Requeues work r r' work')
    (unmet : ∀ task id, work' task = some (.begin (.add id)) →
      work task = some (.begin (.add id))) : Swept late work' := by
  intro task phase there adds
  obtain ⟨id, rfl | rfl⟩ := eq_of_adds adds
  · exact swept task _ (unmet task id there) rfl
  · cases requeues with
    | rests same => exact swept task _ there rfl
    | shifts mover next? shifts adding clearing =>
      rcases Work.set_cases _ _ _ there with ⟨rfl, now⟩ | ⟨-, earlier⟩
      · exact swept task _ (adding id now) rfl
      · exact swept task _ earlier rfl

end

end Registry

end HardwareSigner
