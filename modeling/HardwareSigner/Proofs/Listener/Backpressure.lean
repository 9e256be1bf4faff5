import HardwareSigner.Proofs.Listener.Removal
import HardwareSigner.Proofs.Listener.Turns

/-!
# Backpressure

A dispatch holds the lock while it waits for a place in a mailbox, so nobody may be needed to get it
going again who needs the lock himself. Here this is said of every world that is reached with one
dispatch at a time.

> `RegistryTask.waits_only_for_places`: a dispatch stays with a listener only because its mailbox is
> full. It goes on when an event is taken out, when the receiver is dropped, when the listener is
> being removed and when the registry is shut down. In the last three cases the mailbox is given
> nothing more; after a removal or a drop all others are served, and after a shutdown nobody is, and
> the lock is there for those who wait for it.
-/

namespace HardwareSigner

namespace Operation.Phase

variable {M : Type} {task : TaskId} {phase : Phase M} {next : Phase M ⊕ Answer}
  {r after : Registry M} {event : Event M} {box : MailboxId} {rest : List MailboxId}

/-- A dispatch passes over a listener that has died. -/
theorem Steps.passes_dead (steps : Steps task r phase next after)
    (slot : phase.slot? = some (event, box, rest)) (dead : r.live box = false)
    (unshut : r.shutdown = false) :
    ∃ delivered, next = .inl (.offering event rest delivered true) := by
  have alive : r.live box ≠ true := Bool.eq_false_iff.mp dead
  have shuts : r.shutdown ≠ true := Bool.eq_false_iff.mp unshut
  obtain ⟨delivered, stale, rfl | rfl⟩ := slot?_eq_some slot
  · cases steps with
    | passes faces _ => cases faces; exact ⟨delivered, rfl⟩
    | quits faces shut => exact absurd shut shuts
    | gives faces live _ _ => cases faces; exact absurd live alive
    | parks live _ _ => exact absurd live alive
  · cases steps with
    | passes faces _ => cases faces; exact ⟨delivered, rfl⟩
    | quits faces shut => exact absurd shut shuts
    | gives faces live _ _ => cases faces; exact absurd live alive

/-- A dispatch that comes to a live listener after a shutdown is over. -/
theorem Steps.quits_shut (steps : Steps task r phase next after)
    (slot : phase.slot? = some (event, box, rest)) (live : r.live box = true)
    (shut : r.shutdown = true) : ∃ delivered, next = .inr (.delivered delivered) := by
  have alive : r.live box ≠ false := by rw [live]; exact Bool.false_ne_true.symm
  have goes : r.shutdown ≠ false := by rw [shut]; exact Bool.false_ne_true.symm
  obtain ⟨delivered, stale, rfl | rfl⟩ := slot?_eq_some slot
  · cases steps with
    | passes faces dead => cases faces; exact absurd dead alive
    | quits faces _ => exact ⟨_, rfl⟩
    | gives faces _ unshut _ => exact absurd unshut goes
    | parks _ unshut _ => exact absurd unshut goes
  · cases steps with
    | passes faces dead => cases faces; exact absurd dead alive
    | quits faces _ => exact ⟨_, rfl⟩
    | gives faces _ unshut _ => exact absurd unshut goes

end Operation.Phase

namespace RegistryTask

open Operation (Phase)
open Operation.Phase (Owing)
open Registry (Parked Sound Blocks Lined)

variable {M : Type} {w : Site M} {task : TaskId} {event : Event M} {box : MailboxId}
  {rest : List MailboxId} {capacity : Nat}

/-! ## One dispatch at a time -/

/-- A world that is reached from an empty registry with one dispatch at a time. -/
def Orderly (capacity : Nat) (w : Site M) : Prop :=
  ∃ deeds, (vacant capacity).Obeys machine InTurn deeds ∧
    (vacant capacity).applyAll machine deeds = w

namespace Orderly

variable (orderly : Orderly capacity w)

include orderly

theorem run {deeds : List (Deed M)} (obeys : w.Obeys machine InTurn deeds) :
    Orderly capacity (w.applyAll machine deeds) := by
  obtain ⟨before, earlier, rfl⟩ := orderly
  exact ⟨before ++ deeds, World.obeys_append.mpr ⟨earlier, obeys⟩, World.applyAll_append ..⟩

theorem apply {deed : Deed M} (inTurn : InTurn w deed) : Orderly capacity (w.apply machine deed) :=
  have obeys : w.Obeys machine InTurn [deed] := ⟨inTurn, trivial⟩
  orderly.run obeys

theorem reached : Reached capacity w := by
  obtain ⟨deeds, -, same⟩ := orderly
  exact ⟨deeds, same⟩

theorem kept : Kept w := by
  obtain ⟨deeds, obeys, rfl⟩ := orderly
  exact kept_run (kept_empty capacity) obeys

/-- What holds of an empty registry and what every action keeps. -/
theorem keeps {P : Site M → Prop} (start : P (vacant capacity))
    (step : ∀ w deed, Orderly capacity w → InTurn w deed → P w → P (w.apply machine deed)) :
    P w := by
  obtain ⟨deeds, obeys, rfl⟩ := orderly
  refine World.keeps_run start (fun before deed earlier inTurn holds => ?_) obeys
  rw [World.applyAll_snoc]
  exact step _ deed ⟨before, earlier, rfl⟩ inTurn holds

theorem parked : Parked (operations w) w.state :=
  orderly.keeps (Registry.parked_empty capacity) fun _ _ before inTurn parked =>
    parked_effect parked (effect before.kept.numbered inTurn)

theorem lined : Lined (operations w) w.state :=
  orderly.keeps (Registry.lined_empty capacity) fun _ _ before inTurn lined =>
    lined_effect lined (effect before.kept.numbered inTurn)

/-- Every mailbox is given what has been told since it was linked. -/
theorem receives : ∀ box < w.state.mailboxes.length,
    ∃ told, Receives box told (operations w) w.state := by
  refine orderly.keeps (P := fun w => ∀ box < w.state.mailboxes.length,
    ∃ told, Receives box told (operations w) w.state) (fun box known => ?_) ?_
  · cases known
  · intro w deed before inTurn receives box known
    have effect := effect before.kept.numbered inTurn
    by_cases old : box < w.state.mailboxes.length
    · obtain ⟨told, receives⟩ := receives box old
      exact ⟨_, receives_effect before.kept receives effect⟩
    · obtain ⟨tried, moves⟩ := moves_of_effect effect
      obtain ⟨-, -, linked⟩ := moves.linked before.kept.sound (Nat.le_of_not_lt old) known id
      exact ⟨[], linked⟩

theorem pending_le (box : MailboxId) : w.state.pending box ≤ w.state.capacity := by
  have kept := orderly.reached.wellKept
  rw [kept.capacity]
  exact kept.bounded box

theorem visits_run_iff (visits : Visits task event box rest w) :
    Visits task event box rest (w.run machine task) ↔ Blocks box w.state :=
  RegistryTask.visits_run_iff orderly.parked orderly.kept.sound (orderly.pending_le box) visits

/-- A dispatch can take a step and go on with it, unless the listener cannot be served now. -/
theorem goes_on (visits : Visits task event box rest w) (free : ¬ Blocks box w.state) :
    w.ready machine task = true ∧ ¬ Visits task event box rest (w.run machine task) := by
  have leaves := mt (orderly.visits_run_iff visits).mp free
  obtain ⟨phase, there, slot⟩ := visits.exists_phase
  refine ⟨?_, leaves⟩
  obtain ⟨delivered, stale, rfl | rfl⟩ := Phase.slot?_eq_some slot
  · exact ready_of_operations there rfl
  · exact (ready_iff_leaves visits there).mpr leaves

end Orderly

/-! ## What gets a dispatch going -/

/-- The listener of a mailbox dies: its receiver is dropped, or somebody begins to remove it. -/
inductive Kills (box : MailboxId) (w : Site M) : Deed M → Prop
  | drops : Kills box w (.outside (.drop box))
  | removes {remover : TaskId} {id : ListenerId} (linked : (id, box) ∈ w.state.entries)
    (begins : operations w remover = some (.begin (.remove id))) : Kills box w (.run remover)

/-- What may get a dispatch going that waits for a place in a mailbox. -/
inductive Rouses (box : MailboxId) (w : Site M) : Deed M → Prop
  /-- The receiver is handed something. -/
  | hands {deed : Deed M} (some : hands box w deed ≠ []) : Rouses box w deed
  | kills {deed : Deed M} (kills : Kills box w deed) : Rouses box w deed
  | shuts : Rouses box w (.outside .shutdown)

/-- Whatever hands a receiver something is done from outside the operations. -/
theorem act_of_hands {deed : Deed M} (some : hands box w deed ≠ []) :
    InTurn w deed ∧ operations (w.apply machine deed) = operations w ∧
      ∃ act, (w.apply machine deed).state = w.state.act act := by
  cases deed with
  | start found => exact absurd rfl some
  | abandon other => exact absurd rfl some
  | wait ms => exact absurd rfl some
  | outside act => exact ⟨trivial, rfl, act, rfl⟩
  | run other =>
    refine ⟨trivial, ?_⟩
    unfold hands at some
    dsimp only at some
    split at some
    next waiting at_work =>
      split at some
      next told after polled =>
        have ready : machine.ready other w.clock (.receive waiting) w.state = true := by
          show (waiting.poll w.clock w.state).isSome = true
          rw [polled]
          rfl
        have turn := step_receive polled other
        have idle : operations w other = none := operations_of_some at_work
        constructor
        · show operations (w.run machine other) = _
          rw [operations_of_phase?
            (World.phase?_run_of_spawned_none at_work ready (by rw [turn])), turn]
          exact Work.set_same idle
        · refine ⟨.take waiting.box, ?_⟩
          show (w.run machine other).state = _
          rw [World.state_run at_work ready, turn]
          rcases Receiving.poll_cases polled with ⟨event, received, -⟩ | ⟨-, nothing⟩
          · show after = ((w.state.receive? waiting.box).map Prod.snd).getD w.state
            rw [received]
            rfl
          · cases nothing
      next => exact absurd rfl some
    next => exact absurd rfl some

theorem known_of_live {r : Registry M} (live : r.live box = true) :
    box < r.mailboxes.length := by
  refine Nat.lt_of_not_le fun unknown => ?_
  unfold Registry.live Registry.mailbox? at live
  rw [List.getElem?_eq_none unknown] at live
  cases live

/-- A mailbox out of which something is taken has a place. -/
theorem pending_lt_of_hands (known : box < w.state.mailboxes.length) {deed : Deed M}
    (some : hands box w deed ≠ []) :
    (w.apply machine deed).state.pending box < w.state.pending box := by
  obtain ⟨-, -, act, acted⟩ := act_of_hands some
  have taken := taken_apply w known deed
  have accepted : (w.apply machine deed).state.accepted box = w.state.accepted box := by
    rw [acted]
    exact (Registry.spares_act w.state act box).accepted
  -- What has been handed out is what waits no longer.
  rw [Registry.accepted_eq, Registry.accepted_eq, taken, List.append_assoc] at accepted
  have queued := List.append_cancel_left accepted
  rw [Registry.pending_eq_length, Registry.pending_eq_length, ← queued, List.length_append]
  exact Nat.lt_add_of_pos_left (List.length_pos_iff.mpr some)

/-- Out of a mailbox that holds something, something can be taken. -/
theorem hands_take (holds : 0 < w.state.pending box) :
    hands box w (.outside (.take box)) ≠ [] := by
  have unfolded : hands box w (.outside (.take box)) =
      ((w.state.receive? box).map Prod.fst).toList := if_pos rfl
  rw [Registry.pending_eq_length] at holds
  obtain ⟨event, rest, waiting⟩ := List.exists_cons_of_length_pos holds
  rw [unfolded, Registry.map_receive?, waiting]
  exact List.cons_ne_nil _ _

section

variable (orderly : Orderly capacity w) (visits : Visits task event box rest w)
  (blocks : Blocks box w.state)

include orderly blocks

/-- A full mailbox is not empty. -/
theorem pending_pos_of_blocks : 0 < w.state.pending box := by
  rw [blocks.full, orderly.reached.wellKept.capacity]
  exact Nat.lt_of_lt_of_le Nat.one_pos (Nat.le_max_right capacity 1)

/-- Somebody has the id whose removal kills the listener. -/
theorem exists_id_of_blocks : ∃ id, (id, box) ∈ w.state.entries := by
  obtain ⟨told, receives⟩ := orderly.receives box (known_of_live blocks.live)
  obtain ⟨⟨id, other⟩, linked, same⟩ :=
    List.mem_map.mp (receives.linked blocks.unshut blocks.live)
  cases same
  exact ⟨id, linked⟩

theorem removable_of_blocks {id : ListenerId} (linked : (id, box) ∈ w.state.entries) :
    w.state.removable? id = some box := by
  obtain ⟨b, there, standing, -⟩ := (Registry.live_iff_serving _ _).mp blocks.live
  exact orderly.reached.wellKept.removable?_eq_some.mpr ⟨linked, b, there, standing⟩

/-- What is left of a world when a listener has been killed. -/
structure Killed (w : Site M) (task : TaskId) (box : MailboxId) (after : Site M) : Prop where
  same : operations after task = operations w task
  dead : after.state.live box = false
  unshut : after.state.shutdown = false
  spares : ∀ other, Registry.Spares other w.state after.state

include visits

theorem killed_of_kills {deed : Deed M} (kills : Kills box w deed) :
    InTurn w deed ∧ Killed w task box (w.apply machine deed) := by
  cases kills with
  | drops =>
    refine ⟨trivial, rfl, ?_, blocks.unshut, fun other => Registry.spares_drop w.state box other⟩
    show (w.state.update box Mailbox.drop).live box = false
    unfold Registry.live
    rw [Registry.mailbox?_update_self]
    cases w.state.mailbox? box with
    | none => rfl
    | some b => exact Bool.and_false _
  | @removes remover id linked begins =>
    obtain ⟨phase, there, slot⟩ := visits.exists_phase
    have different : task ≠ remover := by
      rintro rfl
      rw [begins] at there
      cases there
      cases slot
    have step : (Phase.begin (.remove id)).step remover w.state = _ :=
      step_of_removable (removable_of_blocks orderly blocks linked)
    have ready : w.ready machine remover = true := ready_of_operations begins rfl
    have state := (state_run_operation begins ready).trans (congrArg Prod.snd step)
    refine ⟨trivial, ?_, ?_, ?_, fun other => ?_⟩
    · show operations (w.run machine remover) task = _
      rw [operations_run_eq begins ready, Work.set_of_ne _ _ _ different]
    · show (w.run machine remover).state.live box = false
      rw [state]
      exact Registry.live_cancel_self w.state box
    · show (w.run machine remover).state.shutdown = false
      rw [state]
      exact blocks.unshut
    · show Registry.Spares other w.state (w.run machine remover).state
      rw [state]
      exact (Registry.spares_cancel w.state box other).trans
        (Registry.spares_asks _ other remover .exclusive)

/-- Whatever rouses a dispatch leaves it with the listener, which can now be seen to. -/
theorem roused_of_rouses {deed : Deed M} (rouses : Rouses box w deed) :
    InTurn w deed ∧ Visits task event box rest (w.apply machine deed) ∧
      ¬ Blocks box (w.apply machine deed).state := by
  cases rouses with
  | hands some =>
    obtain ⟨inTurn, same, -⟩ := act_of_hands some
    refine ⟨inTurn, ?_, fun still => ?_⟩
    · unfold Visits
      rw [same]
      exact visits
    · have fewer := pending_lt_of_hands (known_of_live blocks.live) some
      have capacity := (orderly.apply inTurn).reached.wellKept.capacity.trans
        orderly.reached.wellKept.capacity.symm
      rw [still.full, blocks.full, capacity] at fewer
      exact Nat.lt_irrefl _ fewer
  | kills kills =>
    obtain ⟨inTurn, killed⟩ := killed_of_kills orderly visits blocks kills
    refine ⟨inTurn, ?_, fun still => ?_⟩
    · unfold Visits
      rw [killed.same]
      exact visits
    · have live := still.live
      rw [killed.dead] at live
      cases live
  | shuts => exact ⟨trivial, visits, fun still => nomatch still.unshut⟩

end

/-! ## What follows -/

/-- A dispatch that is given nothing to wait for any more at one listener serves the others: when it
has nobody left to serve, each of them that is still live has been given the event next. -/
theorem serves_rest (orderly : Orderly capacity w) (visits : Visits task event box rest w)
    {deeds : List (Deed M)} (obeys : w.Obeys machine InTurn deeds)
    (settled : ∀ other event, ¬ Owing (operations (w.applyAll machine deeds) task) other event)
    (unshut : (w.applyAll machine deeds).state.shutdown = false) {other : MailboxId}
    (later : other ∈ rest) (live : (w.applyAll machine deeds).state.live other = true) :
    w.state.accepted other ++ [event] <+: (w.applyAll machine deeds).state.accepted other := by
  have kept := orderly.kept
  obtain ⟨phase, there, slot⟩ := visits.exists_phase
  have owes : phase.Owes other event := by
    obtain ⟨delivered, stale, rfl | rfl⟩ := Phase.slot?_eq_some slot <;>
      exact ⟨rfl, List.mem_cons_of_mem _ later⟩
  have owing : Owing (operations w task) other event := there ▸ Phase.owing_some.mpr owes
  have known : other < w.state.mailboxes.length := Nat.lt_of_not_le fun unknown =>
    kept.sound.not_owing unknown task event owing
  obtain ⟨told, receives⟩ := orderly.receives other known
  -- Whoever is live and not shut down in the end has been so all the time.
  have open' : w.state.live other = true ∧ w.state.shutdown = false := by
    have closed := mt (fun closed => ((closed_run kept known obeys).2 closed).1) fun ended => by
      rcases ended with dead | shut
      · rw [live] at dead; cases dead
      · rw [unshut] at shut; cases shut
    exact ⟨Bool.not_eq_false _ ▸ fun dead => closed (Or.inl dead),
      Bool.not_eq_true _ ▸ fun shut => closed (Or.inr shut)⟩
  obtain ⟨before, all, accepted⟩ := receives.owing open'.2 open'.1 task event owing
  have receives' := receives_run kept receives obeys
  have place : (told ++ w.history machine takes deeds)[before.length]? = some (task, event) := by
    rw [all, List.append_assoc, List.getElem?_append_right (Nat.le_refl _), Nat.sub_self]
    rfl
  have long := served_of_settled receives' place (settled other) live unshut
  obtain ⟨given, first, accepted'⟩ := receives'.block
  rw [List.append_nil] at accepted'
  rw [accepted', List.length_map] at long
  rw [accepted, accepted']
  -- The mailbox has been given a beginning of what was told, and this event is in it.
  have within : before ++ [(task, event)] <+: told ++ w.history machine takes deeds := by
    rw [all]
    exact List.prefix_append _ _
  have shorter : (before ++ [(task, event)]).length ≤ given.length := by
    rw [List.length_append]
    exact long
  have prior := (List.prefix_of_prefix_length_le within first shorter).map Prod.snd
  rw [List.map_append] at prior
  exact prior

/-- What comes of killing the listener at which a dispatch waits: nothing more is put into its
mailbox, and the dispatch goes on to the others and serves them. -/
structure PassesOver (task : TaskId) (event : Event M) (box : MailboxId) (rest : List MailboxId)
    (w after : Site M) : Prop where
  goesOn : ∃ delivered,
    operations (after.run machine task) task = some (.offering event rest delivered true)
  closed : ∀ deeds, after.Obeys machine InTurn deeds →
    (after.applyAll machine deeds).state.accepted box = w.state.accepted box
  serves : ∀ deeds, after.Obeys machine InTurn deeds →
    (∀ other event, ¬ Owing (operations (after.applyAll machine deeds) task) other event) →
    (after.applyAll machine deeds).state.shutdown = false →
    ∀ other ∈ rest, (after.applyAll machine deeds).state.live other = true →
      w.state.accepted other ++ [event] <+: (after.applyAll machine deeds).state.accepted other

/-- What comes of a shutdown while a dispatch waits: it is over with its next step, no mailbox is
given anything more, and everybody gets the lock who waits for it or comes to change the
registry. -/
structure GivesUp (task : TaskId) (w after : Site M) : Prop where
  returns : ∃ delivered,
    (after.run machine task).result? task = some (.operation (.delivered delivered))
  closed : ∀ deeds, after.Obeys machine InTurn deeds → ∀ other < w.state.mailboxes.length,
    (after.applyAll machine deeds).state.accepted other = w.state.accepted other
  unlocks : task ∉ (after.run machine task).state.lock.line ∧ Granting (after.run machine task) ∧
    ∀ operation : Operation M, operation.Writes →
      Granting (((after.run machine task).start (.operation (.begin operation))).run machine
        (after.run machine task).next)

section

variable (orderly : Orderly capacity w) (visits : Visits task event box rest w)
  (blocks : Blocks box w.state)

include orderly visits blocks

theorem passesOver_of_kills {deed : Deed M} (kills : Kills box w deed) :
    PassesOver task event box rest w (w.apply machine deed) := by
  obtain ⟨inTurn, killed⟩ := killed_of_kills orderly visits blocks kills
  obtain ⟨-, visits', free⟩ := roused_of_rouses orderly visits blocks (.kills kills)
  have orderly' := orderly.apply inTurn
  obtain ⟨phase, there, slot⟩ := visits'.exists_phase
  have known := known_of_live blocks.live
  refine ⟨?_, fun deeds obeys => ?_, fun deeds obeys settled unshut other later live => ?_⟩
  · have ready := (orderly'.goes_on visits' free).1
    obtain ⟨delivered, next⟩ :=
      (phase.steps task _).passes_dead slot killed.dead killed.unshut
    refine ⟨delivered, ?_⟩
    rw [operations_run there ready, next]
    rfl
  · have ended := (closed_run orderly'.kept ((killed.spares box).known known) obeys).2
      (Or.inl killed.dead)
    exact ended.2.trans (killed.spares box).accepted
  · rw [← (killed.spares other).accepted]
    exact serves_rest orderly' visits' obeys settled unshut later live

theorem givesUp_of_shutdown : GivesUp task w (w.apply machine (.outside .shutdown)) := by
  obtain ⟨inTurn, visits', free⟩ := roused_of_rouses orderly visits blocks .shuts
  have orderly' := orderly.apply inTurn
  have ready := (orderly'.goes_on visits' free).1
  obtain ⟨phase, there, slot⟩ := visits'.exists_phase
  obtain ⟨delivered, answers⟩ := (phase.steps task
    (w.apply machine (.outside .shutdown)).state).quits_shut slot blocks.live rfl
  -- The only task that had something to dispatch has gone.
  have gone := operations_run_eq there ready
  rw [answers] at gone
  have orderly'' : Orderly capacity ((w.apply machine (.outside .shutdown)).run machine task) :=
    orderly'.apply (show InTurn _ (.run task) from trivial)
  have calm : Calm ((w.apply machine (.outside .shutdown)).run machine task) := by
    refine calm_of_idle (fun other found at_work => ?_) orderly''.kept.early
    rw [gone] at at_work
    rcases Work.set_cases _ _ _ at_work with ⟨-, ⟨⟩⟩ | ⟨different, before⟩
    rw [Bool.eq_false_iff]
    intro offers
    exact different (orderly'.kept.sound.single other task found phase before there offers
      (Phase.offers_of_slot slot))
  refine ⟨⟨delivered, ?_⟩, fun deeds obeys other known => ?_, ?_, ?_, fun operation writes => ?_⟩
  · exact result?_run_operation orderly'.kept.numbered there ready answers
  · exact ((closed_run orderly'.kept known obeys).2 (Or.inr rfl)).2
  · rw [orderly''.lined.inLine task, gone, Work.set_self]
    exact Bool.false_ne_true
  · exact granting_of_calm calm orderly''.lined
  · exact granting_of_writes calm orderly''.lined orderly''.kept.numbered writes

end

/-- What is said of a dispatch that has come to a listener and has not served it, nor the `rest`. -/
structure Backpressure (task : TaskId) (event : Event M) (box : MailboxId) (rest : List MailboxId)
    (w : Site M) : Prop where
  /-- Its next step leaves it there exactly if the listener is live, its mailbox is full and the
  registry has not been shut down. -/
  stays : Visits task event box rest (w.run machine task) ↔ Blocks box w.state
  /-- If it is parked there, it cannot take a step at all exactly then. -/
  parked : ∀ delivered stale,
    operations w task = some (.parked event box rest delivered stale) →
    (w.ready machine task = false ↔ Blocks box w.state)
  /-- There is something to take out of the mailbox, and the listener has an id by which it can be
  removed. -/
  relieved : Blocks box w.state → Rouses box w (.outside (.take box)) ∧
    ∃ id, (id, box) ∈ w.state.entries
  /-- Whatever rouses it leaves it there, able to go on. -/
  roused : Blocks box w.state → ∀ deed, Rouses box w deed →
    Visits task event box rest (w.apply machine deed) ∧
      (w.apply machine deed).ready machine task = true ∧
      ¬ Visits task event box rest ((w.apply machine deed).run machine task)
  passesOver : Blocks box w.state → ∀ deed, Kills box w deed →
    PassesOver task event box rest w (w.apply machine deed)
  givesUp : Blocks box w.state → GivesUp task w (w.apply machine (.outside .shutdown))

/-- **Backpressure is the only reason why a dispatch waits.** This holds in every world that is
reached with one dispatch at a time, of every dispatch that has the lock and still has listeners to
serve. -/
theorem waits_only_for_places (orderly : Orderly capacity w)
    (visits : Visits task event box rest w) : Backpressure task event box rest w where
  stays := orderly.visits_run_iff visits
  parked delivered stale parks := by
    rw [← Bool.not_eq_true, ready_iff_leaves visits parks, Classical.not_not]
    exact orderly.visits_run_iff visits
  relieved blocks := ⟨.hands (hands_take (pending_pos_of_blocks orderly blocks)),
    exists_id_of_blocks orderly blocks⟩
  roused blocks deed rouses := by
    obtain ⟨inTurn, visits', free⟩ := roused_of_rouses orderly visits blocks rouses
    exact ⟨visits', (orderly.apply inTurn).goes_on visits' free⟩
  passesOver blocks deed kills := passesOver_of_kills orderly visits blocks kills
  givesUp blocks := givesUp_of_shutdown orderly visits blocks

/-- Two listeners with one place each have been given an event, which only the second has taken, and
another dispatch has come to the first. -/
def crowding : List (Deed Nat) :=
  [.start (.operation (.begin (.add ⟨1⟩))), .run 0, .run 0,
    .start (.operation (.begin (.add ⟨2⟩))), .run 1, .run 1,
    .start (.operation (.begin (.dispatch (.system .connected)))), .run 2, .run 2, .run 2, .run 2,
    .run 2, .outside (.take 1),
    .start (.operation (.begin (.dispatch (.system .endOfStream)))), .run 3, .run 3, .run 3]

/-- The dispatch waits for the first listener. When this one is dropped, the second is served. -/
theorem waits_for_a_place :
    let w : Site Nat := (vacant 1).applyAll machine crowding
    let dropped := w.apply machine (.outside (.drop 0))
    Orderly 1 w ∧ Visits 3 (.system .endOfStream) 0 [1] w ∧ Blocks 0 w.state ∧
      Backpressure 3 (.system .endOfStream) 0 [1] w ∧ w.ready machine 3 = false ∧
      PassesOver 3 (.system .endOfStream) 0 [1] w dropped ∧
      ((dropped.run machine 3).run machine 3).state.accepted 1 =
        [.system .connected, .system .endOfStream] := by
  intro w dropped
  have orderly : Orderly 1 w :=
    ⟨crowding, ⟨trivial, trivial, trivial, trivial, trivial, trivial, rfl, trivial, trivial,
      trivial, trivial, trivial, trivial, rfl, trivial, trivial, trivial, trivial⟩, rfl⟩
  have visits : Visits 3 (.system .endOfStream) 0 [1] w := rfl
  have blocks : Blocks 0 w.state := ⟨rfl, rfl, rfl⟩
  have law := waits_only_for_places orderly visits
  exact ⟨orderly, visits, blocks, law, (law.parked 0 false rfl).mpr blocks,
    law.passesOver blocks _ .drops, rfl⟩

end RegistryTask

end HardwareSigner
