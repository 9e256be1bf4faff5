import HardwareSigner.Proofs.Listener.Deeds

/-!
# The order of delivery

In a run of a registry one dispatch is begun after the other, while listeners are added and removed,
receivers take events and are dropped, and the registry may be shut down, all in any order.

> `RegistryTask.delivered_in_order`: from the time that a mailbox has been linked it is given, in
> their order and without a gap, the events of the dispatches that take the lock from then on, all
> that are completed while its listener lives and the registry is not shut down, and nothing
> afterwards; and that is what its receiver is handed.
-/

namespace HardwareSigner

namespace RegistryTask

open Operation (Phase)
open Operation.Phase (Owing)
open Registry (Sound Served)

variable {M : Type}

/-! ## Dispatches take the lock in their order -/

/-- The dispatches that have been begun and have not taken the lock: at most one. -/
structure Waits (work : Work (Phase M)) (waiting : List (TaskId × Event M)) : Prop where
  one : waiting.length ≤ 1
  mem : ∀ task event, (task, event) ∈ waiting ↔ ∃ phase ∈ work task, event ∈ phase.awaits

section

variable {w : Site M} {began took waiting : List (TaskId × Event M)} {work : Work (Phase M)}
  {r : Registry M}

/-- A task goes on with what it waited for, and nothing else. -/
theorem Waits.set (waits : Waits work waiting) (task : TaskId) {next? : Option (Phase M)}
    (same : ∀ event, (∃ phase ∈ next?, event ∈ phase.awaits) ↔
      ∃ phase ∈ work task, event ∈ phase.awaits) : Waits (Work.set work task next?) waiting where
  one := waits.one
  mem other event := by
    rw [waits.mem]
    by_cases here : other = task
    · rw [here, Work.set_self]
      exact (same event).symm
    · rw [Work.set_of_ne _ _ _ here]

theorem Waits.eq_nil (waits : Waits work waiting)
    (nobody : ∀ task phase, work task = some phase → phase.offers = false) : waiting = [] := by
  rw [List.eq_nil_iff_forall_not_mem]
  rintro ⟨task, event⟩ there
  obtain ⟨phase, found, awaits⟩ := (waits.mem task event).mp there
  have quiet := nobody task phase found
  rw [Phase.offers_of_awaits awaits] at quiet
  cases quiet

theorem Waits.eq_singleton (waits : Waits work waiting) {task : TaskId} {event : Event M}
    (there : (task, event) ∈ waiting) : waiting = [(task, event)] := by
  cases waiting with
  | nil => cases there
  | cons first rest =>
    have short := waits.one
    rw [List.length_cons] at short
    have none : rest = [] := List.length_eq_zero_iff.mp (by omega)
    rw [none] at there ⊢
    rw [List.mem_singleton.mp there]

/-- Whoever goes on from a phase in which he does not wait for the lock to one in which he does not,
or begins or leaves so, changes nothing. -/
theorem Waits.set_of_nil (waits : Waits work waiting) (task : TaskId) {next? : Option (Phase M)}
    (before : ∀ phase ∈ work task, phase.awaits = []) (after : ∀ phase ∈ next?, phase.awaits = []) :
    Waits (Work.set work task next?) waiting := by
  refine waits.set task fun event => iff_of_false ?_ ?_
  · rintro ⟨phase, there, awaits⟩
    rw [after phase there] at awaits
    cases awaits
  · rintro ⟨phase, there, awaits⟩
    rw [before phase there] at awaits
    cases awaits

theorem waits_begin (waits : Waits work waiting) {task : TaskId} (fresh : work task = none)
    {operation : Operation M} (alone : (Phase.begin operation).offers = true →
      ∀ task phase, work task = some phase → phase.offers = false) :
    ∃ later, Waits (Work.set work task (some (.begin operation))) later ∧
      waiting ++ (Phase.begin operation).awaits.map (fun event => (task, event)) = later := by
  have idle : (Phase.begin operation).awaits = [] → ∃ later,
      Waits (Work.set work task (some (.begin operation))) later ∧
        waiting ++ (Phase.begin operation).awaits.map (fun event => (task, event)) = later := by
    intro quiet
    refine ⟨waiting, waits.set_of_nil task (fun phase there => ?_) ?_, ?_⟩
    · rw [fresh] at there
      cases there
    · rintro phase ⟨⟩
      exact quiet
    · rw [quiet]
      exact List.append_nil _
  cases operation with
  | dispatch event =>
    -- A dispatch is begun only when no other still has something to dispatch, so it waits alone.
    have nobody := alone rfl
    refine ⟨[(task, event)], ⟨Nat.le_refl 1, fun other told => ?_⟩, ?_⟩
    · by_cases here : other = task
      · rw [here, Work.set_self, List.mem_singleton]
        constructor
        · intro same
          obtain ⟨-, rfl⟩ := Prod.mk.inj same
          exact ⟨_, rfl, List.mem_singleton_self told⟩
        · rintro ⟨phase, ⟨⟩, awaits⟩
          rw [List.mem_singleton.mp awaits]
      · rw [Work.set_of_ne _ _ _ here, List.mem_singleton]
        refine iff_of_false (fun same => here (Prod.mk.inj same).1) ?_
        rintro ⟨phase, there, awaits⟩
        have quiet := nobody other phase there
        rw [Phase.offers_of_awaits awaits] at quiet
        cases quiet
    · rw [waits.eq_nil nobody]
      rfl
  | _ => exact idle rfl

theorem waits_step (waits : Waits work waiting) (sound : Sound work r) {task : TaskId}
    {phase : Phase M} (there : work task = some phase) :
    ∃ later, Waits (Work.set work task (phase.step task r).1.getLeft?) later ∧
      waiting = phase.takes.map (fun event => (task, event)) ++ later := by
  have idle : phase.awaits = [] → phase.takes = [] → ∃ later,
      Waits (Work.set work task (phase.step task r).1.getLeft?) later ∧
        waiting = phase.takes.map (fun event => (task, event)) ++ later := by
    intro quiet untold
    refine ⟨waiting, waits.set_of_nil task (fun found same => ?_) fun next goesOn => ?_, ?_⟩
    · rw [there] at same
      obtain rfl := Option.some.inj same
      exact quiet
    · rw [List.eq_nil_iff_forall_not_mem]
      intro event awaits
      rw [(sound.follows there goesOn).awaits event awaits] at quiet
      cases quiet
    · rw [untold]
      rfl
  cases phase with
  | begin operation =>
    cases operation with
    | dispatch event =>
      refine ⟨waiting, waits.set task fun told => ?_, rfl⟩
      rw [there]
      constructor
      · rintro ⟨next, ⟨⟩, awaits⟩
        exact ⟨_, rfl, awaits⟩
      · rintro ⟨before, ⟨⟩, awaits⟩
        exact ⟨_, rfl, awaits⟩
    | _ => exact idle rfl rfl
  | dispatching event =>
    have mine : (task, event) ∈ waiting :=
      (waits.mem task event).mpr ⟨_, there, List.mem_singleton_self event⟩
    have only := waits.eq_singleton mine
    refine ⟨[], ⟨Nat.zero_le 1, fun other told => iff_of_false List.not_mem_nil ?_⟩, only⟩
    by_cases here : other = task
    · rw [here, Work.set_self]
      rintro ⟨next, ⟨⟩, awaits⟩
      cases awaits
    · rw [Work.set_of_ne _ _ _ here, ← waits.mem, only, List.mem_singleton]
      exact fun same => here (Prod.mk.inj same).1
  | _ => exact idle rfl rfl

/-- A dispatch that takes the lock is the one that was begun last. -/
theorem waits_effect (sound : Sound (operations w) w.state) (waits : Waits (operations w) waiting)
    (effect : Effect w began took work r) :
    ∃ later, Waits work later ∧ waiting ++ began = took ++ later := by
  cases effect with
  | same => exact ⟨waiting, waits, List.append_nil _⟩
  | begins operation fresh alone early => exact waits_begin waits fresh alone
  | steps task phase there =>
    rw [List.append_nil]
    exact waits_step waits sound there
  | leaves task phase there idle =>
    refine ⟨waiting, waits.set_of_nil task (fun found same => ?_) ?_, List.append_nil _⟩
    · rw [there] at same
      obtain rfl := Option.some.inj same
      rw [List.eq_nil_iff_forall_not_mem]
      intro event awaits
      rw [Phase.offers_of_awaits awaits] at idle
      cases idle
    · rintro phase ⟨⟩
  | acts act => exact ⟨waiting, waits, List.append_nil _⟩

/-- Dispatches take the lock in the order in which they are begun. -/
theorem order_run {w : Site M} (kept : Kept w) {waiting : List (TaskId × Event M)}
    (waits : Waits (operations w) waiting) {deeds : List (Deed M)}
    (obeys : w.Obeys machine InTurn deeds) :
    ∃ later, Waits (operations (w.applyAll machine deeds)) later ∧
      waiting ++ w.history machine begun deeds = w.history machine takes deeds ++ later := by
  refine World.keeps_run ⟨waiting, waits, List.append_nil _⟩ ?_ obeys
  rintro before deed earlier inTurn ⟨later, waits, order⟩
  have kept := kept_run kept earlier
  obtain ⟨now, waits, next⟩ := waits_effect kept.sound waits (effect kept.numbered inTurn)
  rw [World.applyAll_snoc, World.history_snoc, World.history_snoc]
  refine ⟨now, waits, ?_⟩
  rw [← List.append_assoc, order, List.append_assoc, next, List.append_assoc]

end

/-! ## The law -/

/-- What is said of a mailbox that was linked when the world was `w`, when the actions `after` have
followed. -/
structure DeliveredInOrder (box : MailboxId) (w : Site M) (after : List (Deed M)) : Prop where
  /-- The mailbox has been given a block of the dispatched events. It begins with the first dispatch
  that takes the lock after the mailbox was linked. -/
  block : (w.applyAll machine after).state.accepted box <+:
    (w.history machine takes after).map Prod.snd
  /-- All dispatches that are completed while its listener lives and the registry is not shut down
  are in the block. -/
  complete : ∀ middle rest index task event, after = middle ++ rest →
    (w.history machine takes after)[index]? = some (task, event) →
    ((w.applyAll machine middle).result? task).isSome = true →
    (w.applyAll machine middle).state.live box = true →
    (w.applyAll machine middle).state.shutdown = false →
    index < ((w.applyAll machine after).state.accepted box).length
  /-- After that it is given nothing more. -/
  closed : ∀ middle rest, after = middle ++ rest →
    Closed box (w.applyAll machine middle).state →
    (w.applyAll machine after).state.accepted box = (w.applyAll machine middle).state.accepted box
  /-- What it has been given is what its receiver has been handed and what still waits. -/
  handed : w.history machine (hands box) after ++ (w.applyAll machine after).state.queued box =
    (w.applyAll machine after).state.accepted box

section

variable {w : Site M} {box : MailboxId} {deeds : List (Deed M)}

theorem receives_run (kept : Kept w) {told : List (TaskId × Event M)}
    (receives : Receives box told (operations w) w.state)
    (obeys : w.Obeys machine InTurn deeds) :
    Receives box (told ++ w.history machine takes deeds) (operations (w.applyAll machine deeds))
      (w.applyAll machine deeds).state := by
  refine World.keeps_run (by rw [World.history, List.append_nil]; exact receives) ?_ obeys
  intro before deed earlier inTurn receives
  have kept := kept_run kept earlier
  rw [World.applyAll_snoc, World.history_snoc, ← List.append_assoc]
  exact receives_effect kept receives (effect kept.numbered inTurn)

theorem closed_run (kept : Kept w) (known : box < w.state.mailboxes.length)
    (obeys : w.Obeys machine InTurn deeds) :
    w.state.accepted box <+: (w.applyAll machine deeds).state.accepted box ∧
      (Closed box w.state → Closed box (w.applyAll machine deeds).state ∧
        (w.applyAll machine deeds).state.accepted box = w.state.accepted box) := by
  refine World.keeps_run ⟨List.prefix_refl _, fun closed => ⟨closed, rfl⟩⟩ ?_ obeys
  rintro before deed earlier inTurn ⟨growing, ended⟩
  have kept' := kept_run kept earlier
  obtain ⟨grows, ends⟩ := closed_effect kept' (known_run kept known earlier)
    (effect kept'.numbered inTurn)
  rw [World.applyAll_snoc]
  refine ⟨growing.trans grows, fun closed => ?_⟩
  obtain ⟨closed, same⟩ := ended closed
  obtain ⟨closed, still⟩ := ends closed
  exact ⟨closed, still.trans same⟩

theorem taken_history (kept : Kept w) (known : box < w.state.mailboxes.length)
    (obeys : w.Obeys machine InTurn deeds) :
    (w.applyAll machine deeds).state.taken box =
      w.state.taken box ++ w.history machine (hands box) deeds := by
  refine World.keeps_run (List.append_nil _).symm ?_ obeys
  intro before deed earlier inTurn same
  rw [World.applyAll_snoc, World.history_snoc, taken_apply _ (known_run kept known earlier), same,
    List.append_assoc]

/-- Whoever has finished does not take the lock any more. -/
theorem not_takes_of_result? {task : TaskId} {answer : Answer M} (kept : Kept w)
    (finished : w.result? task = some answer) (obeys : w.Obeys machine InTurn deeds)
    (event : Event M) :
    (task, event) ∉ w.history machine takes deeds ∧
      (w.applyAll machine deeds).result? task = some answer := by
  refine World.keeps_run ⟨List.not_mem_nil, finished⟩ ?_ obeys
  rintro before deed earlier inTurn ⟨untaken, finished⟩
  have gone := operations_of_none ((kept_run kept earlier).numbered.finished task answer finished).2
  rw [World.applyAll_snoc, World.history_snoc, List.mem_append]
  refine ⟨?_, World.result?_apply finished deed⟩
  rintro (taken | now)
  · exact untaken taken
  · cases deed with
    | run other =>
      unfold takes at now
      simp only at now
      split at now
      next =>
        split at now
        next phase there =>
          obtain ⟨told, -, same⟩ := List.mem_map.mp now
          rw [(Prod.mk.inj same).1, gone] at there
          cases there
        next => cases now
      next => cases now
    | _ => cases now

/-- A dispatch that owes the mailbox nothing any more, although it is open, has served it. -/
theorem served_of_settled {told : List (TaskId × Event M)}
    (receives : Receives box told (operations w) w.state) {index : Nat} {task : TaskId}
    {event : Event M} (there : told[index]? = some (task, event))
    (settled : ∀ event, ¬ Owing (operations w task) box event) (live : w.state.live box = true)
    (unshut : w.state.shutdown = false) : index < (w.state.accepted box).length := by
  obtain ⟨below, at_index⟩ := List.getElem?_eq_some_iff.mp there
  by_cases owed : ∃ other event, Owing (operations w other) box event
  · obtain ⟨other, last, owing⟩ := owed
    obtain ⟨before, all, accepted⟩ := receives.owing unshut live other last owing
    rw [accepted, List.length_map]
    refine Nat.lt_of_not_le fun beyond => ?_
    -- Only the last dispatch may still owe the event, and this one owes nothing.
    subst all
    rw [List.getElem?_append_right beyond, List.getElem?_singleton] at there
    split at there
    · obtain ⟨rfl, -⟩ := Prod.mk.inj (Option.some.inj there)
      exact settled last owing
    · cases there
  · have nobody : ∀ other event, ¬ Owing (operations w other) box event :=
      fun other event owing => owed ⟨other, event, owing⟩
    rw [receives.settled unshut live nobody, List.length_map]
    exact below

/-- A dispatch that has been completed while the mailbox was open has served it. -/
theorem served_of_result? (kept : Kept w) {told : List (TaskId × Event M)}
    (receives : Receives box told (operations w) w.state) {index : Nat} {task : TaskId}
    {event : Event M} (there : told[index]? = some (task, event)) {answer : Answer M}
    (finished : w.result? task = some answer) (live : w.state.live box = true)
    (unshut : w.state.shutdown = false) : index < (w.state.accepted box).length := by
  refine served_of_settled receives there (fun event owing => ?_) live unshut
  rw [operations_of_none (kept.numbered.finished _ _ finished).2] at owing
  exact Phase.not_owing_none box event owing

end

/-- The world right after a listener has been linked. -/
theorem linked_run {w : Site M} (kept : Kept w) {adder : TaskId} {box : MailboxId}
    (fresh : w.result? adder = none)
    (added : (w.run machine adder).result? adder = some (.operation (.added (.ok box)))) :
    Receives box [] (operations (w.run machine adder)) (w.run machine adder).state := by
  rcases World.run_cases machine w adder with same | ⟨found, at_work, ready⟩
  · rw [same, fresh] at added
    cases added
  · rw [World.result?_run at_work ready, fresh, if_pos rfl, Option.none_or] at added
    cases found with
    | receive waiting =>
      obtain ⟨receipt, after, polled⟩ := exists_of_ready ready
      rw [step_receive polled] at added
      cases added
    | operation phase =>
      have answer : (phase.step adder w.state).1 = .inr (.added (.ok box)) := by
        have added : ((phase.step adder w.state).1.map RegistryTask.operation
          (Answer.operation (M := M))).getRight? = some (.operation (.added (.ok box))) := added
        cases next : (phase.step adder w.state).1 with
        | inl phase => rw [next] at added; cases added
        | inr answer => rw [next] at added; cases added; rfl
      obtain ⟨id, rfl, links⟩ := (phase.steps adder w.state).adding_of_added answer
      have there := operations_of_some at_work
      have next := operations_of_phase? (World.phase?_run_of_spawned_none at_work ready rfl)
      rw [next, World.state_run at_work ready]
      exact Served.link kept.sound there links rfl

theorem accepted_of_receives {box : MailboxId} {work : Work (Phase M)} {r : Registry M}
    (linked : Receives box [] work r) : r.accepted box = [] := by
  obtain ⟨given, none, accepted⟩ := linked.block
  rw [accepted, List.prefix_nil.mp none]
  rfl

theorem delivered_run {w : Site M} {box : MailboxId} {after : List (Deed M)} (kept : Kept w)
    (linked : Receives box [] (operations w) w.state) (obeys : w.Obeys machine InTurn after) :
    DeliveredInOrder box w after where
  block := by
    obtain ⟨given, first, accepted⟩ := (receives_run kept linked obeys).block
    rw [accepted, List.append_nil]
    exact first.map Prod.snd
  complete middle rest index task event split there finished live unshut := by
    subst split
    obtain ⟨before, behind⟩ := World.obeys_append.mp obeys
    obtain ⟨answer, finished⟩ := Option.isSome_iff_exists.mp finished
    have kept' := kept_run kept before
    have receives := receives_run kept linked before
    rw [World.history_append] at there
    -- The dispatch has been completed in the middle, so it has not taken the lock afterwards.
    have early : index < (w.history machine takes middle).length := by
      refine Nat.lt_of_not_le fun beyond => ?_
      rw [List.getElem?_append_right beyond] at there
      exact (not_takes_of_result? kept' finished behind event).1 (List.mem_of_getElem? there)
    rw [List.getElem?_append_left early] at there
    have served := served_of_result? kept' receives there finished live unshut
    rw [World.applyAll_append]
    exact Nat.lt_of_lt_of_le served (closed_run kept' receives.known behind).1.length_le
  closed middle rest split closed := by
    subst split
    obtain ⟨before, behind⟩ := World.obeys_append.mp obeys
    rw [World.applyAll_append]
    have known := (receives_run kept linked before).known
    exact ((closed_run (kept_run kept before) known behind).2 closed).2
  handed := by
    have nothing : w.state.taken box = [] := by
      have none := accepted_of_receives linked
      rw [Registry.accepted_eq] at none
      exact (List.append_eq_nil_iff.mp none).1
    rw [Registry.accepted_eq, taken_history kept linked.known obeys, nothing]
    rfl

/-- A registry without listeners, on which nobody is at work. -/
abbrev vacant (capacity : Nat) : Site M := World.ofState (Registry.empty capacity)

theorem order_of_vacant {capacity : Nat} {deeds : List (Deed M)}
    (obeys : (vacant capacity).Obeys machine InTurn deeds) :
    ∃ waiting, (vacant capacity).history machine begun deeds =
      (vacant capacity).history machine takes deeds ++ waiting := by
  have waits : Waits (operations (vacant capacity : Site M)) [] := by
    refine ⟨Nat.zero_le 1, fun task event => iff_of_false List.not_mem_nil ?_⟩
    rintro ⟨phase, there, -⟩
    cases there
  obtain ⟨waiting, -, order⟩ := order_run (kept_empty capacity) waits obeys
  exact ⟨waiting, order⟩

/-- **The law of delivery.** In every run in which dispatches follow one after the other they take
the lock in the order in which they are begun, and every listener that is added is given a block of
them, from the first that takes the lock after it was linked. -/
theorem delivered_in_order {capacity : Nat} {before after : List (Deed M)} {adder : TaskId}
    {box : MailboxId}
    (obeys : (vacant capacity).Obeys machine InTurn (before ++ [.run adder] ++ after))
    (fresh : ((vacant capacity).applyAll machine before).result? adder = none)
    (added : ((vacant capacity).applyAll machine (before ++ [.run adder])).result? adder =
      some (.operation (.added (.ok box)))) :
    (∃ waiting, (vacant capacity).history machine begun (before ++ [.run adder] ++ after) =
      (vacant capacity).history machine takes (before ++ [.run adder]) ++
        ((vacant capacity).applyAll machine (before ++ [.run adder])).history machine takes after ++
        waiting) ∧
      DeliveredInOrder box ((vacant capacity).applyAll machine (before ++ [.run adder])) after := by
  obtain ⟨earlier, later⟩ := World.obeys_append.mp obeys
  obtain ⟨waiting, order⟩ := order_of_vacant obeys
  have linked : ∀ w : Site M, w = (vacant capacity).applyAll machine (before ++ [.run adder]) →
      Receives box [] (operations w) w.state := by
    intro w same
    rw [World.applyAll_append] at same added
    rw [same]
    exact linked_run (kept_run (kept_empty capacity) (World.obeys_append.mp earlier).1) fresh added
  refine ⟨⟨waiting, ?_⟩, ?_⟩
  · rw [order, World.history_append]
  · exact delivered_run (kept_run (kept_empty capacity) earlier) (linked _ rfl) later

/-- A listener is added. -/
def adding : List (Deed Nat) := [.start (.operation (.begin (.add ⟨7⟩))), .run 0]

/-- Three dispatches come to a listener with one place. The first finds it free, the second waits
until it is free again, and while the third waits the listener is removed. -/
def telling : List (Deed Nat) :=
  [.start (.operation (.begin (.dispatch (.system .connected)))), .run 1, .run 1, .run 1, .run 1,
    .start (.operation (.begin (.dispatch (.system .endOfStream)))), .run 2, .run 2, .run 2,
    .outside (.take 0), .run 2, .run 2,
    .start (.operation (.begin (.dispatch (.system .disconnected)))), .run 3, .run 3, .run 3,
    .start (.operation (.begin (.remove ⟨7⟩))), .run 4, .run 3, .run 3, .run 4, .run 3]

theorem delivered_in_order_to_one_listener :
    let linked : Site Nat := (vacant 1).applyAll machine (adding ++ [.run 0])
    (vacant 1 : Site Nat).Obeys machine InTurn (adding ++ [.run 0] ++ telling) ∧
      DeliveredInOrder 0 linked telling ∧
      linked.history machine takes telling =
        [(1, .system .connected), (2, .system .endOfStream), (3, .system .disconnected)] ∧
      (linked.applyAll machine telling).state.accepted 0 =
        [.system .connected, .system .endOfStream] ∧
      linked.history machine (hands 0) telling = [.system .connected] ∧
      (linked.applyAll machine telling).state.entries = [] := by
  have obeys : (vacant 1 : Site Nat).Obeys machine InTurn (adding ++ [.run 0] ++ telling) :=
    ⟨trivial, trivial, trivial, rfl, trivial, trivial, trivial, trivial, rfl, trivial, trivial,
      trivial, trivial, trivial, trivial, rfl, trivial, trivial, trivial, trivial, trivial, trivial,
      trivial, trivial, trivial, trivial⟩
  exact ⟨obeys, (delivered_in_order obeys rfl rfl).2, rfl, rfl, rfl, rfl⟩

end RegistryTask

end HardwareSigner
