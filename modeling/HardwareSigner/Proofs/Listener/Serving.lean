import HardwareSigner.Proofs.Listener.Steps
import HardwareSigner.Proofs.Task.History

/-!
# What one step of an operation does for one mailbox

A task that dispatches an event takes the lock, notes whom it has to serve, and serves them one by
one. `Operation.Phase.Owes` says that a mailbox is still to be given an event. A step of any
operation does one of four things for a mailbox:

> `Operation.Phase.Steps.serves`: it spares it and owes it what it owed before; or it takes the lock
> and owes everybody its event; or it gives the mailbox what it owes and owes it nothing more; or it
> gives it something without having to, which happens only when the registry is shut down.

`Registry.Sound` is what tasks have to keep to for this to come to an order of delivery: one of them
dispatches at a time, and nobody is served without waiting before the registry is shut down.
-/

namespace HardwareSigner

namespace Operation

namespace Phase

variable {M : Type}

/-- Whether a task has something to dispatch and is not done with it. -/
def offers : Phase M → Bool
  | .begin (.dispatch _) | .dispatching _ | .offering .. | .parked .. => true
  | _ => false

/-- Whether a task does what is done only when the registry is shut down. -/
def late : Phase M → Bool
  | .begin (.tryDispatch _) | .begin .clear | .trying _ | .clearing => true
  | _ => false

/-- The mailboxes that a task still has to serve. -/
def owed : Phase M → List MailboxId
  | .offering _ rest _ _ => rest
  | .parked _ box rest _ _ => box :: rest
  | _ => []

/-- The event that a task has to dispatch and for which it has not taken the lock. -/
def awaits : Phase M → List (Event M)
  | .begin (.dispatch event) => [event]
  | .dispatching event => [event]
  | _ => []

/-- The event that a task will begin to dispatch with its next step. -/
def takes : Phase M → List (Event M)
  | .dispatching event => [event]
  | _ => []

/-- The event that a task will offer, with its next step, to those who have a place. -/
def tries : Phase M → List (Event M)
  | .trying event => [event]
  | _ => []

/-- A task still has to put an event into a mailbox. -/
def Owes (box : MailboxId) (event : Event M) : Phase M → Prop
  | .offering told rest _ _ => told = event ∧ box ∈ rest
  | .parked told next rest _ _ => told = event ∧ box ∈ next :: rest
  | _ => False

theorem offers_of_owes {phase : Phase M} {box : MailboxId} {event : Event M}
    (owes : phase.Owes box event) : phase.offers = true := by
  cases phase with
  | offering => rfl
  | parked => rfl
  | _ => exact owes.elim

theorem owed_of_idle {phase : Phase M} (idle : phase.offers = false) : phase.owed = [] := by
  cases phase with
  | offering => cases idle
  | parked => cases idle
  | _ => rfl

theorem mem_owed_of_owes {phase : Phase M} {box : MailboxId} {event : Event M}
    (owes : phase.Owes box event) : box ∈ phase.owed := by
  cases phase with
  | offering => exact owes.2
  | parked => exact owes.2
  | _ => exact owes.elim

theorem offers_of_awaits {phase : Phase M} {event : Event M} (waits : event ∈ phase.awaits) :
    phase.offers = true := by
  cases phase with
  | begin operation =>
    cases operation with
    | dispatch => rfl
    | _ => cases waits
  | dispatching => rfl
  | _ => cases waits

theorem offers_of_takes {phase : Phase M} {event : Event M} (takes : event ∈ phase.takes) :
    phase.offers = true := by
  cases phase with
  | dispatching => rfl
  | _ => cases takes

theorem tries_of_early {phase : Phase M} (early : phase.late = false) : phase.tries = [] := by
  cases phase with
  | trying => cases early
  | _ => rfl

theorem takes_of_owes {phase : Phase M} {box : MailboxId} {event : Event M}
    (owes : phase.Owes box event) : phase.takes = [] := by
  cases phase with
  | dispatching => exact owes.elim
  | _ => rfl

/-- Someone, if he is at work, still has to put an event into a mailbox. -/
def Owing (phase? : Option (Phase M)) (box : MailboxId) (event : Event M) : Prop :=
  ∃ phase ∈ phase?, phase.Owes box event

theorem not_owing_none (box : MailboxId) (event : Event M) : ¬ Owing none box event := by
  rintro ⟨phase, there, -⟩
  cases there

theorem owing_some {phase : Phase M} {box : MailboxId} {event : Event M} :
    Owing (some phase) box event ↔ phase.Owes box event := by
  constructor
  · rintro ⟨found, there, owes⟩
    cases there
    exact owes
  · intro owes
    exact ⟨phase, rfl, owes⟩

/-- A mailbox has been given an event. -/
structure Gives (box : MailboxId) (event : Event M) (r after : Registry M) : Prop where
  known : box < r.mailboxes.length → box < after.mailboxes.length
  accepted : box < r.mailboxes.length → after.accepted box = r.accepted box ++ [event]
  linked : box ∈ r.boxes → box ∈ after.boxes

theorem gives_accept (r : Registry M) (box : MailboxId) (event : Event M) :
    Gives box event r (r.update box (·.accept event)) where
  known below := by rw [Registry.length_update]; exact below
  accepted below := Registry.accepted_accept below event
  linked there := there

/-- What a step that leads from `phase` to `next?` does for a mailbox. -/
inductive Serves (box : MailboxId) (phase : Phase M) (r : Registry M) (next? : Option (Phase M))
    (after : Registry M) : Prop
  /-- Nothing: it owes the mailbox what it owed before, if that still counts. -/
  | spares (untold : phase.takes = []) (spares : Registry.Spares box r after)
      (owes : after.shutdown = false → after.live box = true →
        ∀ event, Owing next? box event ↔ phase.Owes box event)
  /-- It begins to dispatch an event. -/
  | takes (event : Event M) (begins : phase = .dispatching event)
      (next : next? = some (.offering event r.boxes 0 false)) (same : after = r)
  /-- It gives the mailbox the event that it owes. -/
  | gives (event : Event M) (owed : phase.Owes box event) (live : r.live box = true)
      (unshut : r.shutdown = false) (gives : Gives box event r after)
      (settled : ∀ event, ¬ Owing next? box event)
  /-- It gives the mailbox an event unasked, if there is a place. -/
  | tries (event : Event M) (tries : phase = .trying event)
      (known : box < r.mailboxes.length → box < after.mailboxes.length)
      (accepted : after.accepted box = r.accepted box ∨
        after.accepted box = r.accepted box ++ [event])

section

variable {box : MailboxId} {phase : Phase M} {r after : Registry M} {next? : Option (Phase M)}

/-- Whoever has nobody to serve, before and after a step that spares the mailbox, serves it so. -/
theorem Serves.of_spares (spares : Registry.Spares box r after) (untold : phase.takes = [])
    (nothing : phase.owed = []) (still : ∀ next ∈ next?, next.owed = []) :
    Serves box phase r next? after := by
  refine .spares untold spares fun _ _ event => iff_of_false ?_ fun owes => ?_
  · rintro ⟨next, there, owes⟩
    have owed := mem_owed_of_owes owes
    rw [still next there] at owed
    cases owed
  · have owed := mem_owed_of_owes owes
    rw [nothing] at owed
    cases owed

theorem not_owes_of_not_mem {event told : Event M} {rest : List MailboxId} {delivered : Nat}
    {stale : Bool} (absent : box ∉ rest) :
    ¬ Owing (some (.offering told rest delivered stale)) box event := by
  rw [owing_some]
  exact fun owes => absent owes.2

end

/-! ## Seeing to the next listener -/

namespace Faces

variable {task : TaskId} {event : Event M} {next : MailboxId} {rest : List MailboxId}
  {delivered : Nat} {stale : Bool} {r left : Registry M} {phase : Phase M}
  (faces : Faces task event next rest delivered stale r phase left)

include faces

theorem untold : phase.takes = [] := by
  cases faces <;> rfl

theorem offers : phase.offers = true := by
  cases faces <;> rfl

theorem owed : phase.owed = next :: rest := by
  cases faces <;> rfl

theorem owes_iff {box : MailboxId} {other : Event M} :
    phase.Owes box other ↔ event = other ∧ box ∈ next :: rest := by
  cases faces <;> exact Iff.rfl

/-- All others are owed the event as before once `next` has been seen to. -/
theorem owing_rest {box : MailboxId} (different : box ≠ next) (served : Nat) (stale' : Bool)
    (other : Event M) :
    Owing (some (.offering event rest served stale')) box other ↔ phase.Owes box other := by
  rw [owing_some, faces.owes_iff, List.mem_cons, or_iff_right different]
  exact Iff.rfl

theorem spares (box : MailboxId) : Registry.Spares box r left := by
  cases faces with
  | comes => exact .refl box r
  | waited => exact Registry.spares_leave r next task box

theorem keeps : Registry.Keeps r left := by
  cases faces with
  | comes => exact .refl r
  | waited => exact .update r next (fun _ => rfl) fun _ => id

theorem length : left.mailboxes.length = r.mailboxes.length := by
  cases faces with
  | comes => rfl
  | waited => exact Registry.length_update r next _

theorem gives : Gives next event r (left.update next (·.accept event)) := by
  have gives := gives_accept left next event
  have left := faces.spares next
  refine ⟨fun below => gives.known (left.known below), fun below => ?_, fun there => ?_⟩
  · rw [← left.accepted]
    exact gives.accepted (left.known below)
  · cases faces <;> exact there

end Faces

namespace WrapsUp

variable {task : TaskId} {delivered : Nat} {stale : Bool} {r after : Registry M}
  {next : Phase M ⊕ Answer} (wraps : WrapsUp task delivered r stale next after)

include wraps

theorem spares (box : MailboxId) : Registry.Spares box r after := by
  have released := Registry.spares_releases r box task
  cases wraps with
  | ends => exact released
  | prunes => exact released.trans (Registry.spares_asks _ box task .exclusive)

theorem keeps : Registry.Keeps r after := by
  have released := Registry.Keeps.releases r task
  cases wraps with
  | ends => exact released
  | prunes => exact released.trans (.asks _ task .exclusive)

theorem length : after.mailboxes.length = r.mailboxes.length := by
  cases wraps <;> rfl

theorem idle : ∀ later ∈ next.getLeft?, later.offers = false ∧ later.late = false := by
  intro later goesOn
  cases wraps with
  | ends => cases goesOn
  | prunes =>
    cases goesOn
    exact ⟨rfl, rfl⟩

theorem not_added (box : MailboxId) : next ≠ .inr (.added (.ok box)) := by
  intro added
  cases wraps <;> cases added

end WrapsUp

/-! ## Offering an event to everybody -/

section

variable (r : Registry M) (event : Event M)

theorem accepted_acceptAll {boxes : List MailboxId} (alone : boxes.Nodup) {box : MailboxId}
    (known : box < r.mailboxes.length) :
    (boxes.foldl (fun r box => r.update box (·.accept event)) r).accepted box =
      r.accepted box ++ if box ∈ boxes then [event] else [] := by
  induction boxes generalizing r with
  | nil => exact (List.append_nil _).symm
  | cons next rest ih =>
    obtain ⟨fresh, alone⟩ := List.nodup_cons.mp alone
    have below : box < (r.update next (·.accept event)).mailboxes.length := by
      rw [Registry.length_update]
      exact known
    rw [List.foldl_cons, ih (r.update next (·.accept event)) alone below]
    by_cases here : box = next
    · subst here
      rw [Registry.accepted_accept known, if_neg fresh, if_pos List.mem_cons_self, List.append_nil]
    · rw [Registry.accepted_update_of_ne r next _ here]
      simp only [List.mem_cons, here, false_or]

theorem length_acceptAll (boxes : List MailboxId) :
    (boxes.foldl (fun r box => r.update box (·.accept event)) r).mailboxes.length =
      r.mailboxes.length := by
  induction boxes generalizing r with
  | nil => rfl
  | cons next rest ih => exact (ih _).trans (Registry.length_update r next _)

theorem keeps_acceptAll (boxes : List MailboxId) :
    Registry.Keeps r (boxes.foldl (fun r box => r.update box (·.accept event)) r) := by
  induction boxes generalizing r with
  | nil => exact .refl r
  | cons next rest ih =>
    have given : Registry.Keeps r (r.update next (·.accept event)) :=
      .update r next (fun _ => rfl) fun _ => id
    exact given.trans (ih _)

variable {r} in
/-- Whoever has a place is given the event once, all others are given nothing. -/
theorem accepted_offerAll (ordered : r.Ordered) {box : MailboxId}
    (known : box < r.mailboxes.length) :
    (r.offerAll event).2.accepted box = r.accepted box ∨
      (r.offerAll event).2.accepted box = r.accepted box ++ [event] := by
  have alone : r.boxes.Nodup := ordered.nodup List.nodup_range
  have given := accepted_acceptAll r event (alone.filter fun box => r.live box && r.hasRoom box)
    known
  unfold Registry.offerAll
  rw [show r.entries.map Prod.snd = r.boxes from rfl]
  simp only
  rw [given]
  split
  · exact Or.inr rfl
  · exact Or.inl (List.append_nil _)

end

/-! ## Every step -/

section

variable {phase : Phase M} {r after : Registry M} {task : TaskId} {box : MailboxId}
  {next : Phase M ⊕ Answer}

theorem owed_of_asks {operation : Operation M} {mode : LockMode} {next : Phase M}
    (asks : operation.Asks mode next) : next.owed = [] := by
  cases asks <;> rfl

namespace Steps

/-- What one step of any operation does for a mailbox. -/
theorem serves (steps : Steps task r phase next after) (ordered : r.Ordered)
    (owed : phase.owed.Nodup) (late : phase.late = true → r.shutdown = true)
    (known : box < r.mailboxes.length) : Serves box phase r next.getLeft? after := by
  have done : ∀ answer : Answer, ∀ later ∈ (.inr answer : Phase M ⊕ Answer).getLeft?,
      later.owed = [] := fun _ _ there => nomatch there
  cases steps with
  | asks asks =>
    exact .of_spares (Registry.spares_asks ..) rfl rfl fun | _, rfl => owed_of_asks asks
  | misses => exact .of_spares (.refl box r) rfl rfl (done _)
  | @cancels id other there =>
    exact .of_spares ((Registry.spares_cancel r other box).trans (Registry.spares_asks ..)) rfl rfl
      fun | _, rfl => rfl
  | cancelsAll =>
    exact .of_spares ((Registry.spares_cancelAll r box).trans (Registry.spares_asks ..)) rfl rfl
      fun | _, rfl => rfl
  | links id =>
    exact .of_spares ((Registry.spares_link known id).trans (Registry.spares_releases ..)) rfl rfl
      (done _)
  | removes =>
    exact .of_spares ((Registry.spares_unlinkDead r box).trans (Registry.spares_releases ..)) rfl
      rfl (done _)
  | finds => exact .of_spares (Registry.spares_releases ..) rfl rfl (done _)
  | counts => exact .of_spares (Registry.spares_releases ..) rfl rfl (done _)
  | takes event => exact .takes event rfl rfl rfl
  | wrapsUp wraps =>
    exact .of_spares (wraps.spares box) rfl rfl fun later goesOn =>
      owed_of_idle (wraps.idle later goesOn).1
  | passes faces dead =>
    have left := faces.spares box
    refine .spares faces.untold left fun _ live other => faces.owing_rest (fun here => ?_) ..
    -- What a dead listener was owed is owed to nobody.
    have earlier := left.live live
    rw [here, dead] at earlier
    cases earlier
  | quits faces shut =>
    have left := (faces.spares box).trans (Registry.spares_releases _ box task)
    refine .spares faces.untold left fun unshut => ?_
    -- Nor is anybody owed anything after a shutdown.
    rw [left.shutdown shut] at unshut
    cases unshut
  | @gives event other rest delivered stale phase left faces live unshut room =>
    rw [faces.owed] at owed
    have alone := (List.nodup_cons.mp owed).1
    by_cases here : box = other
    · subst here
      exact .gives event (faces.owes_iff.mpr ⟨rfl, List.mem_cons_self⟩) live unshut faces.gives
        fun told => not_owes_of_not_mem alone
    · exact .spares faces.untold
        ((faces.spares box).trans (Registry.spares_update_of_ne left other _ here))
        fun _ _ told => faces.owing_rest here ..
  | parks => exact .spares rfl (Registry.spares_await r _ task box) fun _ _ other => owing_some
  | @tries event next after wraps =>
    have spares := wraps.spares box
    refine .tries event rfl (fun below => spares.known ?_) ?_
    · exact (length_acceptAll r event _).symm ▸ below
    · exact spares.accepted ▸ accepted_offerAll event ordered known
  | prunes =>
    exact .of_spares ((Registry.spares_unlinkDead r box).trans (Registry.spares_releases ..)) rfl
      rfl (done _)
  | clears =>
    exact .of_spares ((Registry.spares_unlinkAll (late rfl) box).trans
      (Registry.spares_releases ..)) rfl rfl (done _)

/-- Operations keep mailboxes in their order. None of them shuts the registry down. -/
theorem keeps (steps : Steps task r phase next after) : Registry.Keeps r after := by
  cases steps with
  | asks => exact .asks r task _
  | misses => exact .refl r
  | @cancels id other there =>
    have cancelled : Registry.Keeps r (r.cancel other) :=
      .update r other (fun _ => rfl) fun _ live => by cases live
    exact cancelled.trans (.asks _ task .exclusive)
  | cancelsAll => exact (Registry.Keeps.cancelAll r).trans (.asks _ task .exclusive)
  | links id => exact (Registry.Keeps.link r id).trans (.releases _ task)
  | removes => exact (Registry.Keeps.unlinkDead r).trans (.releases _ task)
  | finds => exact .releases r task
  | counts => exact .releases r task
  | takes => exact .refl r
  | wrapsUp wraps => exact wraps.keeps
  | passes faces => exact faces.keeps
  | quits faces => exact faces.keeps.trans (.releases _ task)
  | gives faces => exact faces.keeps.trans (.update _ _ (fun _ => rfl) fun _ => id)
  | parks => exact .update r _ (fun _ => rfl) fun _ => id
  | tries wraps => exact (keeps_acceptAll r _ _).trans wraps.keeps
  | prunes => exact (Registry.Keeps.unlinkDead r).trans (.releases _ task)
  | clears => exact (Registry.Keeps.unlinkAll r).trans (.releases _ task)

/-- Only whoever has waited to link a listener links one. -/
theorem adding_of_added (steps : Steps task r phase next after)
    (added : next = .inr (.added (.ok box))) :
    ∃ id, phase = .adding id ∧ r.link id = (.ok box, (r.link id).2) := by
  cases steps with
  | links id =>
    have outcome : (r.link id).1 = .ok box := Answer.added.inj (Sum.inr.inj added)
    exact ⟨id, rfl, by rw [← outcome]⟩
  | wrapsUp wraps => exact absurd added (wraps.not_added box)
  | tries wraps => exact absurd added (wraps.not_added box)
  | _ => cases added

/-- There is one mailbox more only after a listener has been linked. -/
theorem adding_of_known (steps : Steps task r phase next after)
    (unknown : r.mailboxes.length ≤ box) (known : box < after.mailboxes.length) :
    ∃ id, phase = .adding id ∧ r.link id = (.ok box, (r.link id).2) := by
  have same : ∀ {after : Registry M}, after.mailboxes.length = r.mailboxes.length →
      ¬ box < after.mailboxes.length := by
    intro after same below
    rw [same] at below
    exact Nat.not_lt_of_le unknown below
  cases steps with
  | links id =>
    have known : box < (r.link id).2.mailboxes.length := known
    rcases Registry.link_cases r id with refused | ⟨after, links, mailboxes, -⟩
    · rw [refused] at known
      exact absurd known (Nat.not_lt_of_le unknown)
    · rw [links] at known
      have known : box < after.mailboxes.length := known
      rw [mailboxes, List.length_append] at known
      have newest : r.mailboxes.length = box :=
        Nat.le_antisymm unknown (Nat.le_of_lt_succ known)
      exact ⟨id, rfl, by rw [links, newest]⟩
  | cancels => exact absurd known (same (Registry.length_update r _ _))
  | cancelsAll => exact absurd known (same (Registry.length_cancelAll r))
  | wrapsUp wraps => exact absurd known (same wraps.length)
  | passes faces => exact absurd known (same faces.length)
  | quits faces => exact absurd known (same faces.length)
  | gives faces =>
    exact absurd known (same ((Registry.length_update _ _ _).trans faces.length))
  | parks => exact absurd known (same (Registry.length_update r _ _))
  | tries wraps => exact absurd known (same (wraps.length.trans (length_acceptAll r _ _)))
  | _ => exact absurd known (same rfl)

end Steps

/-- A task that is given up takes nothing from anybody. -/
theorem keeps_release (phase : Phase M) (task : TaskId) (r : Registry M) :
    Registry.Keeps r (phase.release task r) := by
  cases phase with
  | parked event next rest delivered stale =>
    have left : Registry.Keeps r (r.update next (·.leave task)) :=
      .update r next (fun _ => rfl) fun _ => id
    exact left.trans (.releases _ task)
  | _ => exact .releases r task

theorem length_release (phase : Phase M) (task : TaskId) (r : Registry M) :
    (phase.release task r).mailboxes.length = r.mailboxes.length := by
  cases phase with
  | parked event next rest delivered stale => exact Registry.length_update r next _
  | _ => rfl

theorem spares_release (phase : Phase M) (task : TaskId) (r : Registry M) (box : MailboxId) :
    Registry.Spares box r (phase.release task r) := by
  cases phase with
  | parked event next rest delivered stale =>
    exact (Registry.spares_leave r next task box).trans (Registry.spares_releases _ box task)
  | _ => exact Registry.spares_releases r box task

/-- What a task still has to serve after a step: no more than before or, at the beginning,
everybody. It dispatches, or does what is late, only if it did before. It waits for the lock with an
event only if it has just begun, and owes an event only if it did before or has just got the
lock. -/
structure Follows (r : Registry M) (phase next : Phase M) : Prop where
  owed : next.owed.Sublist (List.range r.mailboxes.length)
  offers : next.offers = true → phase.offers = true
  late : next.late = true → phase.late = true
  awaits : ∀ event ∈ next.awaits, phase = .begin (.dispatch event)
  owes : ∀ box event, next.Owes box event → phase.Owes box event ∨ phase = .dispatching event

namespace Follows

variable {r : Registry M} {phase next : Phase M}

/-- Whoever has nothing to dispatch any more and does nothing that is late may follow anything. -/
theorem of_idle (idle : next.offers = false) (early : next.late = false) :
    Follows r phase next := by
  refine ⟨owed_of_idle idle ▸ List.nil_sublist _, fun offers => ?_, fun late => ?_,
    fun event waits => ?_, fun box event owes => ?_⟩
  · rw [idle] at offers
    cases offers
  · rw [early] at late
    cases late
  · rw [offers_of_awaits waits] at idle
    cases idle
  · rw [offers_of_owes owes] at idle
    cases idle

/-- A dispatch that has got the lock goes on with it. -/
theorem of_offers (below : next.owed.Sublist (List.range r.mailboxes.length))
    (offers : phase.offers = true) (early : next.late = false) (untold : next.awaits = [])
    (owes : ∀ box event, next.Owes box event → phase.Owes box event ∨ phase = .dispatching event) :
    Follows r phase next := by
  refine ⟨below, fun _ => offers, fun late => ?_, fun event waits => ?_, owes⟩
  · rw [early] at late
    cases late
  · rw [untold] at waits
    cases waits

/-- It has no more to serve once a listener has been seen to. -/
theorem of_faces {task : TaskId} {event : Event M} {box : MailboxId} {rest : List MailboxId}
    {delivered : Nat} {stale : Bool} {left : Registry M}
    (faces : Faces task event box rest delivered stale r phase left)
    (owed : phase.owed.Sublist (List.range r.mailboxes.length)) (served : Nat) (stale' : Bool) :
    Follows r phase (.offering event rest served stale') := by
  rw [faces.owed] at owed
  refine .of_offers ((List.sublist_cons_self box rest).trans owed) faces.offers rfl rfl ?_
  intro other told owes
  exact Or.inl (faces.owes_iff.mpr ⟨owes.1, List.mem_cons_of_mem box owes.2⟩)

end Follows

namespace Steps

theorem follows {next : Phase M} (steps : Steps task r phase (.inl next) after)
    (ordered : r.Ordered) (owed : phase.owed.Sublist (List.range r.mailboxes.length)) :
    Follows r phase next := by
  cases steps with
  | asks asks =>
    cases asks with
    | dispatch event =>
      refine ⟨List.nil_sublist _, fun _ => rfl, fun late => Bool.noConfusion late,
        fun told waits => ?_, fun _ _ owes => owes.elim⟩
      rw [List.mem_singleton.mp waits]
    | tryDispatch event =>
      exact ⟨List.nil_sublist _, fun offers => Bool.noConfusion offers, fun _ => rfl,
        fun _ waits => absurd waits List.not_mem_nil, fun _ _ owes => owes.elim⟩
    | _ => exact .of_idle rfl rfl
  | cancels => exact .of_idle rfl rfl
  | cancelsAll =>
    exact ⟨List.nil_sublist _, fun offers => Bool.noConfusion offers, fun _ => rfl,
      fun _ waits => absurd waits List.not_mem_nil, fun _ _ owes => owes.elim⟩
  | takes event => exact .of_offers ordered rfl rfl rfl fun _ _ owes => Or.inr (congrArg _ owes.1)
  | wrapsUp wraps => exact .of_idle (wraps.idle next rfl).1 (wraps.idle next rfl).2
  | passes faces => exact .of_faces faces owed ..
  | gives faces => exact .of_faces faces owed ..
  | parks => exact .of_offers owed rfl rfl rfl fun _ _ owes => Or.inl owes
  | tries wraps => exact .of_idle (wraps.idle next rfl).1 (wraps.idle next rfl).2

end Steps

theorem follows_step (ordered : r.Ordered)
    (owed : phase.owed.Sublist (List.range r.mailboxes.length)) {next : Phase M}
    (goesOn : next ∈ (phase.step task r).1.getLeft?) : Follows r phase next := by
  have steps := steps task r phase
  rw [Sum.getLeft?_eq_some_iff.mp goesOn] at steps
  exact steps.follows ordered owed

theorem follows_turn (ordered : r.Ordered)
    (owed : phase.owed.Sublist (List.range r.mailboxes.length)) {next : Phase M}
    {after : Registry M} (turn : phase.step task r = (.inl next, after)) : Follows r phase next :=
  follows_step ordered owed (by rw [turn]; rfl)

end

end Phase

end Operation

end HardwareSigner
