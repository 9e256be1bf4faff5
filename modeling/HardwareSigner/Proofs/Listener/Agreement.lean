import HardwareSigner.Proofs.Listener.Alone
import HardwareSigner.Proofs.Listener.Uninterrupted

/-!
# Two ways to offer an event

A dispatch goes from listener to listener, waits where there is no place, and notices the dead as it
comes past them. Offering an event without waiting goes to everybody at once and looks for the dead
afterwards. Where nobody else is at work and nobody has to be waited for, it makes no difference
(`RegistryTask.dispatches_agree`): both come to `Registry.tell`, which gives the event to every live
listener that has a place and unlinks the dead, and both count whom they have served.

> `Registry.told_tell`: what that leaves behind.
> `Operation.Phase.Trying`: how far an operation has got that does not wait.
-/

namespace HardwareSigner

namespace Registry

variable {M : Type}

/-- A listener that can be served at once. -/
def servable (r : Registry M) (box : MailboxId) : Bool :=
  r.live box && decide (r.pending box < r.capacity)

/-- Of the linked listeners those that are `served` have been given an event, once and after all
that they had been given before. The dead have been unlinked and their tokens are forgotten. Nothing
else has changed. -/
structure Told (event : Event M) (served : MailboxId → Bool) (r after : Registry M) : Prop where
  given : ∀ box ∈ r.boxes, served box = true →
    after.mailbox? box = (r.mailbox? box).map (·.accept event)
  spared : ∀ box, (box ∈ r.boxes → served box = false) → after.mailbox? box = r.mailbox? box
  entries : after.entries = r.liveEntries
  tokens : after.tokens = r.liveEntries
  capacity : after.capacity = r.capacity
  lock : after.lock = r.lock
  shutdown : after.shutdown = r.shutdown

section

variable (r : Registry M) (event : Event M)

theorem give_asks (boxes : List MailboxId) (task : TaskId) (mode : LockMode) :
    (r.asks task mode).give event boxes = (r.give event boxes).asks task mode := by
  induction boxes generalizing r with
  | nil => rfl
  | cons box boxes ih => exact ih (r.update box (·.accept event))

theorem entries_give (boxes : List MailboxId) : (r.give event boxes).entries = r.entries :=
  List.foldlRecOn (motive := fun (after : Registry M) => after.entries = r.entries) boxes _ rfl
    fun _ same _ _ => same

theorem tokens_give (boxes : List MailboxId) : (r.give event boxes).tokens = r.tokens :=
  List.foldlRecOn (motive := fun (after : Registry M) => after.tokens = r.tokens) boxes _ rfl
    fun _ same _ _ => same

variable {r} in
theorem mailbox?_give_of_mem {boxes : List MailboxId} (once : boxes.Nodup) {box : MailboxId}
    (there : box ∈ boxes) :
    (r.give event boxes).mailbox? box = (r.mailbox? box).map (·.accept event) := by
  induction boxes generalizing r with
  | nil => cases there
  | cons other boxes ih =>
    obtain ⟨alone, once⟩ := List.nodup_cons.mp once
    show ((r.update other (·.accept event)).give event boxes).mailbox? box = _
    rcases List.mem_cons.mp there with rfl | behind
    · rw [mailbox?_give_of_not_mem _ event alone, mailbox?_update_self]
    · have different : box ≠ other := fun same => alone (same ▸ behind)
      rw [ih once behind, mailbox?_update_of_ne r different]

theorem liveEntries_give (boxes : List MailboxId) :
    (r.give event boxes).liveEntries = r.liveEntries := by
  unfold liveEntries
  rw [entries_give]
  exact List.filter_congr fun entry _ => live_give r event boxes entry.2

end

section

variable {r : Registry M} {limit : Nat}

/-- The accounts of who is registered do not depend on what is in the mailboxes. -/
theorem WellKept.tokens_unlinkDead_give (kept : r.WellKept limit) (event : Event M)
    (boxes : List MailboxId) : (r.give event boxes).unlinkDead.tokens = r.liveEntries := by
  have same : (r.give event boxes).unlinkDead.tokens = r.unlinkDead.tokens := by
    unfold Registry.unlinkDead
    rw [entries_give, tokens_give]
    simp only [live_give]
  exact same.trans kept.tokens_unlinkDead

theorem told_give (kept : r.WellKept limit) (event : Event M) (served : MailboxId → Bool) :
    Told event served r (r.give event (r.boxes.filter served)).unlinkDead where
  given box there serves := by
    have once : r.boxes.Nodup := kept.ordered.nodup List.nodup_range
    exact mailbox?_give_of_mem event (once.filter served) (List.mem_filter.mpr ⟨there, serves⟩)
  spared box unserved := by
    refine mailbox?_give_of_not_mem r event fun given => ?_
    obtain ⟨there, serves⟩ := List.mem_filter.mp given
    rw [unserved there] at serves
    cases serves
  entries := liveEntries_give r event _
  tokens := kept.tokens_unlinkDead_give event _
  capacity := capacity_give r event _
  lock := lock_give r event _
  shutdown := shutdown_give r event _

/-- Whoever asks for the lock when nobody has it has it at once. -/
theorem granted_of_free (free : r.lock = {}) (task : TaskId) (mode : LockMode) :
    (r.asks task mode).lock.granted task = true := by
  show (r.lock.request task mode).granted task = true
  rw [free]
  exact Lock.granted_of_first rfl

end

end Registry

namespace Operation.Phase

variable {M : Type} {task : TaskId} {event : Event M} {r now : Registry M} {phase : Phase M}

namespace Uninterrupted

/-- A dispatch that nobody comes between has the lock whenever it needs it. -/
theorem ready (uninterrupted : Uninterrupted task event r phase now) (idle : r.lock = {}) :
    phase.ready task now = true := by
  cases uninterrupted with
  | begins => rfl
  | waits => exact Registry.granted_of_free idle task .shared
  | offers done rest all => rfl
  | prunes =>
    exact Registry.granted_of_free ((Registry.lock_give r event _).trans idle) task .exclusive

theorem track (roomy : r.Roomy) (unshut : r.shutdown = false) (idle : r.lock = {})
    (once : r.boxes.Nodup) :
    Track task (.dispatch event) r (.delivered (r.boxes.countP r.live)) (r.tell event)
      (Uninterrupted task event r) where
  begins := begins
  ready uninterrupted := uninterrupted.ready idle
  step uninterrupted := uninterrupted.step roomy unshut idle once

/-- It serves the listeners in their order. -/
theorem inOrder (uninterrupted : Uninterrupted task event r phase now) :
    ∃ done, done <+: r.boxes ∧ now.mailboxes = (r.give event (done.filter r.live)).mailboxes := by
  cases uninterrupted with
  | begins => exact ⟨[], List.nil_prefix, rfl⟩
  | waits => exact ⟨[], List.nil_prefix, rfl⟩
  | offers done rest all => exact ⟨done, ⟨rest, all.symm⟩, rfl⟩
  | prunes => exact ⟨r.boxes, List.prefix_rfl, rfl⟩

end Uninterrupted

/-- How far an operation has got that offers an event without waiting, on a registry that was `r`
before it. -/
inductive Trying (task : TaskId) (event : Event M) (r : Registry M) : Phase M → Registry M → Prop
  | begins : Trying task event r (.begin (.tryDispatch event)) r
  | waits : Trying task event r (.trying event) (r.asks task .shared)
  | prunes :
      Trying task event r (.pruning (r.offerAll event).1)
        ((r.offerAll event).2.asks task .exclusive)

namespace Trying

theorem ready (trying : Trying task event r phase now) (idle : r.lock = {}) :
    phase.ready task now = true := by
  cases trying with
  | begins => rfl
  | waits => exact Registry.granted_of_free idle task .shared
  | prunes => exact Registry.granted_of_free ((lock_offerAll event r).trans idle) task .exclusive

theorem inOrder (trying : Trying task event r phase now) :
    ∃ done, done <+: r.boxes ∧ now.mailboxes =
      (r.give event (done.filter fun box => r.live box && r.hasRoom box)).mailboxes := by
  cases trying with
  | begins => exact ⟨[], List.nil_prefix, rfl⟩
  | waits => exact ⟨[], List.nil_prefix, rfl⟩
  | prunes => exact ⟨r.boxes, List.prefix_rfl, rfl⟩

/-- It goes on, or everybody has been told and all who were given the event are counted. -/
theorem step (trying : Trying task event r phase now) (idle : r.lock = {}) :
    (∃ next after, phase.step task now = (.inl next, after) ∧ Trying task event r next after) ∨
      phase.step task now = (.inr (.delivered (r.offerAll event).1), r.tell event) := by
  have free : (r.offerAll event).2.lock = {} := (lock_offerAll event r).trans idle
  cases trying with
  | begins => exact Or.inl ⟨_, _, rfl, waits⟩
  | waits =>
    have offers : (r.asks task .shared).offerAll event =
        ((r.offerAll event).1, (r.offerAll event).2.asks task .shared) :=
      Prod.ext rfl (Registry.give_asks r event _ task .shared)
    have left : ((r.offerAll event).2.asks task .shared).releases task = (r.offerAll event).2 :=
      Registry.releases_asks free task .shared
    have turn : (Phase.trying event).step task (r.asks task .shared) =
        Phase.wrapUp task (r.offerAll event).1 (r.offerAll event).2.hasDead
          ((r.offerAll event).2.asks task .shared) := by
      unfold Phase.step
      simp only [offers]
      rfl
    rw [turn]
    unfold Phase.wrapUp
    simp only
    rw [left]
    cases dead : (r.offerAll event).2.hasDead with
    | true => exact Or.inl ⟨_, _, rfl, prunes⟩
    | false =>
      -- Where nobody dead is linked there is nothing to prune.
      refine Or.inr (Prod.ext rfl (Registry.unlinkDead_of_live fun box there => ?_).symm)
      obtain ⟨entry, linked, rfl⟩ := List.mem_map.mp there
      have alive := List.any_eq_false.mp dead entry linked
      simpa using alive
  | prunes =>
    have left : ((r.offerAll event).2.unlinkDead.asks task .exclusive).releases task =
        (r.offerAll event).2.unlinkDead :=
      Registry.releases_asks (r := (r.offerAll event).2.unlinkDead) free task .exclusive
    exact Or.inr (Prod.ext rfl left)

theorem track (idle : r.lock = {}) :
    Track task (.tryDispatch event) r (.delivered (r.offerAll event).1) (r.tell event)
      (Trying task event r) where
  begins := begins
  ready trying := trying.ready idle
  step trying := trying.step idle

end Trying

end Operation.Phase

namespace RegistryTask

open Operation (Phase Track)
open Operation.Phase (Uninterrupted Trying)
open Registry (Told)

variable {M : Type}

/-- An operation offers an event while nobody comes between. -/
structure Offers (w : Site M) (operation : Operation M) (event : Event M)
    (served : MailboxId → Bool) (after : Registry M) : Prop where
  told : Told event served w.state after
  /-- Whenever one looks, those who have been told are the first of those who are to be. -/
  inOrder : ∀ turns, ∃ done, done <+: w.state.boxes ∧
    (alone w operation turns).state.mailboxes =
      (w.state.give event (done.filter served)).mailboxes
  /-- In the end those who have been served are counted. -/
  ends : ∀ turns, 2 * w.state.boxes.length + 4 ≤ turns →
    alone w operation turns =
      answered w (.delivered (w.state.boxes.countP served)) after

section

variable {w : Site M} {event : Event M} {operation : Operation M} {after : Registry M}
  {served : MailboxId → Bool}

/-- It matters only who of those that are linked is served. -/
theorem Offers.congr (offers : Offers w operation event served after)
    {served' : MailboxId → Bool} (same : ∀ box ∈ w.state.boxes, served box = served' box) :
    Offers w operation event served' after where
  told :=
    { offers.told with
      given := fun box there serves => offers.told.given box there ((same box there).trans serves)
      spared := fun box unserved => offers.told.spared box fun there =>
        (same box there).trans (unserved there) }
  inOrder turns := by
    obtain ⟨done, first, mailboxes⟩ := offers.inOrder turns
    refine ⟨done, first, ?_⟩
    rw [mailboxes, List.filter_congr fun box there => same box (first.subset there)]
  ends turns enough := by
    rw [offers.ends turns enough, List.countP_congr fun box there => by rw [same box there]]

theorem offers_of_track {On : Phase M → Registry M → Prop} {limit : Nat}
    (kept : w.state.WellKept limit) (fresh : w.phase? w.next = none)
    (ends : (w.state.give event (w.state.boxes.filter served)).unlinkDead = after)
    (track : Track w.next operation w.state
      (.delivered (w.state.boxes.countP served)) after On)
    (inOrder : ∀ {phase now}, On phase now → ∃ done, done <+: w.state.boxes ∧
      now.mailboxes = (w.state.give event (done.filter served)).mailboxes) :
    Offers w operation event served after where
  told := ends ▸ Registry.told_give kept event served
  inOrder turns := by
    rcases alone_cases track fresh turns with ⟨phase, now, on, -, there⟩ | done
    · rw [there]
      exact inOrder on
    · rw [done]
      subst ends
      exact ⟨w.state.boxes, List.prefix_rfl, rfl⟩
  ends turns enough := alone_of_track track fresh enough

/-- What comes of offering an event without waiting. -/
theorem tryDispatch_offers {limit : Nat} (kept : w.state.WellKept limit)
    (fresh : w.phase? w.next = none) (idle : w.state.lock = {}) (event : Event M) :
    Offers w (.tryDispatch event) event (fun box => w.state.live box && w.state.hasRoom box)
      (w.state.tell event) := by
  have track : Track w.next (.tryDispatch event) w.state
      (.delivered (w.state.boxes.countP fun box => w.state.live box && w.state.hasRoom box))
      (w.state.tell event) (Trying w.next event w.state) := by
    rw [List.countP_eq_length_filter]
    exact Trying.track idle
  exact offers_of_track kept fresh rfl track fun trying => trying.inOrder

/-- What comes of a dispatch that does not have to wait. -/
theorem dispatch_offers {limit : Nat} (kept : w.state.WellKept limit)
    (fresh : w.phase? w.next = none) (idle : w.state.lock = {}) (unshut : w.state.shutdown = false)
    (roomy : w.state.Roomy) (event : Event M) :
    Offers w (.dispatch event) event w.state.live (w.state.tell event) := by
  have once : w.state.boxes.Nodup := kept.ordered.nodup List.nodup_range
  exact offers_of_track kept fresh (Registry.tell_of_roomy roomy event).symm
    (Uninterrupted.track roomy unshut idle once) fun uninterrupted => uninterrupted.inOrder

end

/-- **Two ways to offer an event.** Nobody is at work on a registry. Offering an event without
waiting gives it to exactly the live listeners whose mailboxes are not full. If none of them is full
and the registry has not been shut down, a dispatch does not wait either, and comes to the same. -/
theorem dispatches_agree {capacity : Nat} {w : Site M} (reached : Reached capacity w)
    (idle : ∀ task, operations w task = none) (event : Event M) :
    (∃ after, Offers w (.tryDispatch event) event w.state.servable after) ∧
      (w.state.shutdown = false →
        (∀ box ∈ w.state.boxes, w.state.live box = true →
          w.state.pending box < w.state.capacity) →
        ∃ after, Offers w (.dispatch event) event w.state.live after ∧
          Offers w (.tryDispatch event) event w.state.live after) := by
  have kept := reached.wellKept
  have fresh := reached.numbered.phase?_next
  have free := reached.manned.free idle
  have hasRoom : ∀ box, w.state.live box = true →
      w.state.hasRoom box = decide (w.state.pending box < w.state.capacity) := by
    intro box live
    rw [Bool.eq_iff_iff, decide_eq_true_iff]
    exact reached.manned.hasRoom_iff idle live
  have tries := tryDispatch_offers kept fresh free event
  have servable : Offers w (.tryDispatch event) event w.state.servable (w.state.tell event) := by
    refine tries.congr fun box _ => ?_
    unfold Registry.servable
    cases live : w.state.live box with
    | false => rfl
    | true => rw [hasRoom box live]
  refine ⟨⟨_, servable⟩, fun unshut places => ?_⟩
  have roomy : w.state.Roomy := fun box there live =>
    (hasRoom box live).trans (decide_eq_true (places box there live))
  refine ⟨_, dispatch_offers kept fresh free unshut roomy event, tries.congr fun box there => ?_⟩
  cases live : w.state.live box with
  | false => rfl
  | true => rw [roomy box there live, Bool.and_self]

/-- Four listeners are told something, each with room for one event. The first takes it. The second
is removed by somebody who gives up before it is unlinked, and the receiver of the third is dropped.
-/
def mixed : List (Deed Nat) :=
  [.start (.operation (.begin (.add ⟨1⟩))), .run 0, .run 0,
    .start (.operation (.begin (.add ⟨2⟩))), .run 1, .run 1,
    .start (.operation (.begin (.add ⟨3⟩))), .run 2, .run 2,
    .start (.operation (.begin (.add ⟨4⟩))), .run 3, .run 3,
    .start (.operation (.begin (.tryDispatch (.system .connected)))), .run 4, .run 4,
    .outside (.take 0),
    .start (.operation (.begin (.remove ⟨2⟩))), .run 5, .abandon 5,
    .outside (.drop 2)]

/-- Only the first listener can be told at once, for the fourth is full. When the fourth has taken
what it was given, both ways to offer an event serve the two. -/
theorem mixed_listeners_are_told :
    let full : Site Nat := (vacant 1).applyAll machine mixed
    let roomy := full.apply machine (.outside (.take 3))
    (full.state.boxes = [0, 1, 2, 3] ∧ full.state.boxes.filter full.state.live = [0, 3] ∧
      full.state.boxes.filter full.state.servable = [0] ∧
      ∃ after, Offers full (.tryDispatch (.system .disconnected)) (.system .disconnected)
        full.state.servable after) ∧
    roomy.state.boxes = [0, 1, 2, 3] ∧ roomy.state.boxes.filter roomy.state.live = [0, 3] ∧
      ∃ after, Offers roomy (.dispatch (.system .disconnected)) (.system .disconnected)
          roomy.state.live after ∧
        Offers roomy (.tryDispatch (.system .disconnected)) (.system .disconnected)
          roomy.state.live after := by
  have full : Reached 1 ((vacant 1 : Site Nat).applyAll machine mixed) := ⟨mixed, rfl⟩
  have roomy := full.trans (World.Reaches.apply _ (.outside (.take 3)))
  exact ⟨⟨by decide, by decide, by decide, (dispatches_agree full (fun _ => rfl) _).1⟩,
    by decide, by decide, (dispatches_agree roomy (fun _ => rfl) _).2 rfl (by decide)⟩

end RegistryTask

end HardwareSigner
