import HardwareSigner.Proofs.Listener.Order
import Mathlib.Data.List.Nodup

/-!
# Who is registered

A registry keeps two accounts of who is registered: the entries, which are looked at under the lock,
and the tokens, which are not. Both change in few places, and there they change together, so they
are always the same (`Registry.WellKept`). Whether a listener is live is decided by nobody in the
registry: it dies when it is cancelled or its receiver is dropped, and stays linked until somebody
unlinks the dead.

> `Operation.Phase.Steps.wellKept`: every step of an operation keeps the accounts.
> `RegistryTask.membership_kept`: so they are well kept in whatever happens, the questions about
> them are answered for exactly those who are live, and an id is given to one live listener at a
> time. Removing a listener does nothing to any registration but the one it was begun for.
-/

namespace HardwareSigner

namespace Registry

variable {M : Type}

/-- The registrations of live listeners, in order. -/
def liveEntries (r : Registry M) : List (ListenerId × MailboxId) :=
  r.entries.filter fun entry => r.live entry.2

/-- Nobody has removed the listener of a mailbox, and its receiver is there. -/
def Serving (r : Registry M) (box : MailboxId) : Prop :=
  ∃ b, r.mailbox? box = some b ∧ b.cancelled = false ∧ b.dropped = false

theorem live_iff_serving (r : Registry M) (box : MailboxId) :
    r.live box = true ↔ r.Serving box := by
  unfold live Serving
  cases r.mailbox? box with
  | none => simp
  | some b => simp [Mailbox.live]

/-- Both accounts of who is registered are the same, each id and each mailbox is in them once, and
no mailbox holds more than it may. -/
structure WellKept (limit : Nat) (r : Registry M) : Prop where
  tokens : r.tokens = r.entries
  ids : (r.entries.map Prod.fst).Nodup
  ordered : r.Ordered
  capacity : r.capacity = limit
  bounded : ∀ box, r.pending box ≤ limit

theorem wellKept_empty (capacity : Nat) :
    (empty capacity : Registry M).WellKept (max capacity 1) where
  tokens := rfl
  ids := List.nodup_nil
  ordered := ordered_empty capacity
  capacity := rfl
  bounded _ := Nat.zero_le _

/-! ## Places in mailboxes -/

section

variable {r : Registry M} {box : MailboxId}

theorem pending_update_of_ne (r : Registry M) {box other : MailboxId} (different : other ≠ box)
    (change : Mailbox M → Mailbox M) : (r.update box change).pending other = r.pending other := by
  unfold pending
  rw [mailbox?_update_of_ne r different]

theorem pending_update_self (r : Registry M) (box : MailboxId) (change : Mailbox M → Mailbox M) :
    (r.update box change).pending box = ((r.mailbox? box).map (Mailbox.size ∘ change)).getD 0 := by
  unfold pending
  rw [mailbox?_update_self, Option.map_map]

/-- A change that puts nothing into a mailbox. -/
theorem pending_update_le (r : Registry M) (box : MailboxId) {change : Mailbox M → Mailbox M}
    (few : ∀ b, (change b).size ≤ b.size) (other : MailboxId) :
    (r.update box change).pending other ≤ r.pending other := by
  by_cases here : other = box
  · rw [here, pending_update_self]
    unfold pending
    cases r.mailbox? box with
    | none => exact Nat.le_refl 0
    | some b => exact few b
  · exact Nat.le_of_eq (pending_update_of_ne r here change)

theorem pending_accept_le (r : Registry M) (box : MailboxId) (event : Event M) :
    (r.update box (·.accept event)).pending box ≤ r.pending box + 1 := by
  rw [pending_update_self]
  unfold pending
  cases r.mailbox? box with
  | none => exact Nat.zero_le _
  | some b =>
    show (b.queued ++ [event]).length ≤ b.queued.length + 1
    rw [List.length_append]
    exact Nat.le_refl _

theorem pending_lt_of_hasRoom (room : r.hasRoom box = true) : r.pending box < r.capacity := by
  unfold hasRoom at room
  unfold pending
  cases there : r.mailbox? box with
  | none => rw [there] at room; cases room
  | some b =>
    rw [there] at room
    have free : b.size + b.senders.length < r.capacity := by simpa [Mailbox.hasRoom] using room
    exact Nat.lt_of_le_of_lt (Nat.le_add_right _ _) free

/-- A task that has waited goes on to serve a listener only when it has been given a place. -/
theorem pending_lt_of_roused {task : TaskId} (roused : Operation.Phase.roused r task box = true)
    (live : r.live box = true) (unshut : r.shutdown = false) : r.pending box < r.capacity := by
  have admitted : ((r.mailbox? box).map (·.admits r.capacity task)).getD false = true := by
    simpa [Operation.Phase.roused, live, unshut] using roused
  unfold pending
  cases there : r.mailbox? box with
  | none => rw [there] at admitted; cases admitted
  | some b =>
    rw [there] at admitted
    have given : b.admits r.capacity task = true := admitted
    unfold Mailbox.admits at given
    split at given
    next => cases given
    next ahead _ =>
      have free : b.size + ahead < r.capacity := of_decide_eq_true given
      exact Nat.lt_of_le_of_lt (Nat.le_add_right _ _) free

end

/-! ## What keeps the accounts -/

namespace WellKept

variable {limit : Nat} {r after : Registry M} (kept : r.WellKept limit)

include kept

/-- Neither mailboxes nor accounts have been touched. -/
theorem of_same (mailboxes : after.mailboxes = r.mailboxes) (entries : after.entries = r.entries)
    (tokens : after.tokens = r.tokens) (capacity : after.capacity = r.capacity) :
    after.WellKept limit where
  tokens := by rw [tokens, entries]; exact kept.tokens
  ids := by rw [entries]; exact kept.ids
  ordered := by
    unfold Ordered boxes
    rw [mailboxes, entries]
    exact kept.ordered
  capacity := capacity.trans kept.capacity
  bounded box := by
    unfold pending mailbox?
    rw [mailboxes]
    exact kept.bounded box

theorem asks (task : TaskId) (mode : LockMode) : (r.asks task mode).WellKept limit :=
  kept.of_same rfl rfl rfl rfl

theorem releases (task : TaskId) : (r.releases task).WellKept limit :=
  kept.of_same rfl rfl rfl rfl

/-- One mailbox has been changed and holds no more than it may. -/
theorem changes (box : MailboxId) {change : Mailbox M → Mailbox M}
    (bounded : (r.update box change).pending box ≤ limit) :
    (r.update box change).WellKept limit where
  tokens := kept.tokens
  ids := kept.ids
  ordered := by
    unfold Ordered
    rw [boxes_update, length_update]
    exact kept.ordered
  capacity := kept.capacity
  bounded other := by
    by_cases here : other = box
    · rw [here]
      exact bounded
    · rw [pending_update_of_ne r here]
      exact kept.bounded other

theorem update (box : MailboxId) {change : Mailbox M → Mailbox M}
    (few : ∀ b, (change b).size ≤ b.size) : (r.update box change).WellKept limit :=
  kept.changes box (Nat.le_trans (pending_update_le r box few box) (kept.bounded box))

/-- A mailbox is given an event for which it has a place. -/
theorem accepts {box : MailboxId} (room : r.pending box < r.capacity) (event : Event M) :
    (r.update box (·.accept event)).WellKept limit := by
  refine kept.changes box (Nat.le_trans (pending_accept_le r box event) ?_)
  rw [← kept.capacity]
  exact room

theorem cancels (box : MailboxId) : (r.cancel box).WellKept limit :=
  kept.update box fun _ => Nat.le_refl _

theorem cancelAll : r.cancelAll.WellKept limit :=
  List.foldlRecOn (motive := fun (after : Registry M) => after.WellKept limit) r.tokens _ kept
    fun _ kept token _ => kept.cancels token.2

/-- Whoever has the id of a registration has that registration. -/
theorem eq_of_mem {id : ListenerId} {box other : MailboxId} (first : (id, box) ∈ r.entries)
    (second : (id, other) ∈ r.entries) : box = other :=
  (Prod.mk.inj (List.inj_on_of_nodup_map kept.ids first second rfl)).2

/-- The tokens of the dead are forgotten and no others. -/
theorem tokens_unlinkDead : r.unlinkDead.tokens = r.liveEntries := by
  unfold unlinkDead liveEntries
  simp only
  rw [kept.tokens]
  refine List.filter_congr fun entry among => ?_
  rw [Bool.eq_iff_iff, Bool.not_eq_true', List.any_eq_false]
  constructor
  · intro nobody
    cases live : r.live entry.2 with
    | true => rfl
    | false =>
      have there : entry ∈ r.entries.filter fun entry => !r.live entry.2 :=
        List.mem_filter.mpr ⟨among, by rw [live]; rfl⟩
      exact absurd (beq_self_eq_true entry.1) (nobody entry there)
  · intro live other there same
    obtain ⟨linked, dead⟩ := List.mem_filter.mp there
    -- Ids are different, so whoever is dead and has this id is this registration.
    have one := List.inj_on_of_nodup_map kept.ids linked among (beq_iff_eq.mp same)
    rw [one, live] at dead
    cases dead

theorem unlinkDead : r.unlinkDead.WellKept limit where
  tokens := kept.tokens_unlinkDead
  ids := kept.ids.sublist (List.filter_sublist.map Prod.fst)
  ordered := (Keeps.unlinkDead r).ordered kept.ordered
  capacity := kept.capacity
  bounded := kept.bounded

theorem unlinkAll : r.unlinkAll.WellKept limit where
  tokens := rfl
  ids := List.nodup_nil
  ordered := (Keeps.unlinkAll r).ordered kept.ordered
  capacity := kept.capacity
  bounded := kept.bounded

end WellKept

/-! ## Linking a listener -/

/-- Somebody live has the id. -/
def Registered (r : Registry M) (id : ListenerId) : Prop :=
  ∃ box, (id, box) ∈ r.entries ∧ r.Serving box

theorem mem_liveEntries {r : Registry M} {entry : ListenerId × MailboxId} :
    entry ∈ r.liveEntries ↔ entry ∈ r.entries ∧ r.Serving entry.2 := by
  unfold liveEntries
  rw [List.mem_filter, live_iff_serving]

theorem any_liveEntries (r : Registry M) (id : ListenerId) :
    (r.liveEntries.any fun entry => entry.1 == id) = true ↔ r.Registered id := by
  rw [List.any_eq_true]
  constructor
  · rintro ⟨⟨other, box⟩, there, same⟩
    obtain rfl : other = id := beq_iff_eq.mp same
    exact ⟨box, mem_liveEntries.mp there⟩
  · rintro ⟨box, there⟩
    exact ⟨(id, box), mem_liveEntries.mpr there, beq_self_eq_true id⟩

theorem link_of_registered {r : Registry M} {id : ListenerId} (there : r.Registered id) :
    r.link id = (.error (.duplicateListener id), r.unlinkDead) :=
  if_pos ((any_liveEntries r id).mpr there)

/-- The registry with a listener linked at the end of the live ones. -/
def linked (r : Registry M) (id : ListenerId) : Registry M :=
  { r.unlinkDead with
    mailboxes := r.mailboxes ++ [{}]
    entries := r.liveEntries ++ [(id, r.mailboxes.length)]
    tokens := r.liveEntries ++ [(id, r.mailboxes.length)] }

theorem link_of_not_registered {limit : Nat} {r : Registry M} (kept : r.WellKept limit)
    {id : ListenerId} (free : ¬ r.Registered id) :
    r.link id = (.ok r.mailboxes.length, r.linked id) := by
  have unused : (r.liveEntries.any fun entry => entry.1 == id) ≠ true :=
    fun used => free ((any_liveEntries r id).mp used)
  -- No token is in the way, for the tokens are those of the live listeners.
  have others : r.unlinkDead.tokens.filter (fun token => token.1 != id) = r.liveEntries := by
    rw [kept.tokens_unlinkDead, List.filter_eq_self]
    intro token there
    refine bne_iff_ne.mpr fun same => unused ?_
    exact List.any_eq_true.mpr ⟨token, there, beq_iff_eq.mpr same⟩
  unfold link
  simp only
  rw [others]
  exact if_neg unused

theorem WellKept.linked {limit : Nat} {r : Registry M} (kept : r.WellKept limit) {id : ListenerId}
    (free : ¬ r.Registered id) : (r.linked id).WellKept limit where
  tokens := rfl
  ids := by
    show ((r.liveEntries ++ [(id, r.mailboxes.length)]).map Prod.fst).Nodup
    rw [List.map_append, List.nodup_append]
    refine ⟨kept.unlinkDead.ids, List.nodup_singleton id, ?_⟩
    intro first there second last
    obtain ⟨⟨other, box⟩, linked, rfl⟩ := List.mem_map.mp there
    obtain rfl : second = id := List.mem_singleton.mp last
    rintro rfl
    exact free ⟨box, mem_liveEntries.mp linked⟩
  ordered := by
    have ordered := (Keeps.link r id).ordered kept.ordered
    rw [link_of_not_registered kept free] at ordered
    exact ordered
  capacity := kept.capacity
  bounded box := by
    show (((r.mailboxes ++ [({} : Mailbox M)])[box]?).map Mailbox.size).getD 0 ≤ limit
    by_cases known : box < r.mailboxes.length
    · rw [List.getElem?_append_left known]
      exact kept.bounded box
    · rw [List.getElem?_append_right (Nat.le_of_not_lt known), List.getElem?_singleton]
      split <;> exact Nat.zero_le _

theorem WellKept.link {limit : Nat} {r : Registry M} (kept : r.WellKept limit) (id : ListenerId) :
    (r.link id).2.WellKept limit := by
  by_cases there : r.Registered id
  · rw [link_of_registered there]
    exact kept.unlinkDead
  · rw [link_of_not_registered kept there]
    exact kept.linked there

/-! ## Offering an event to everybody -/

theorem hasRoom_update_of_ne (r : Registry M) {box other : MailboxId} (different : other ≠ box)
    (change : Mailbox M → Mailbox M) : (r.update box change).hasRoom other = r.hasRoom other := by
  unfold hasRoom
  rw [mailbox?_update_of_ne r different]
  rfl

theorem WellKept.acceptAll {limit : Nat} {r : Registry M} (kept : r.WellKept limit)
    {boxes : List MailboxId} (alone : boxes.Nodup) (room : ∀ box ∈ boxes, r.hasRoom box = true)
    (event : Event M) :
    (boxes.foldl (fun r box => r.update box (·.accept event)) r).WellKept limit := by
  induction boxes generalizing r with
  | nil => exact kept
  | cons box boxes ih =>
    obtain ⟨fresh, alone⟩ := List.nodup_cons.mp alone
    rw [List.forall_mem_cons] at room
    refine ih (kept.accepts (pending_lt_of_hasRoom room.1) event) alone fun other there => ?_
    have different : other ≠ box := fun same => fresh (same ▸ there)
    rw [hasRoom_update_of_ne r different]
    exact room.2 other there

theorem WellKept.offerAll {limit : Nat} {r : Registry M} (kept : r.WellKept limit)
    (event : Event M) : (r.offerAll event).2.WellKept limit := by
  have alone : r.boxes.Nodup := kept.ordered.nodup List.nodup_range
  refine kept.acceptAll (alone.filter _) (fun box there => ?_) event
  have both := (List.mem_filter.mp there).2
  exact (Bool.and_eq_true _ _ ▸ both).2

/-! ## Whatever happens -/

theorem size_take_le {b rest : Mailbox M} {event : Event M} (taken : b.take? = some (event, rest)) :
    rest.size ≤ b.size := by
  unfold Mailbox.take? at taken
  split at taken
  next => cases taken
  next first others queued =>
    obtain ⟨-, rfl⟩ := Prod.mk.inj (Option.some.inj taken)
    show others.length ≤ b.queued.length
    rw [queued]
    exact Nat.le_succ _

theorem WellKept.receive {limit : Nat} {r rest : Registry M} (kept : r.WellKept limit)
    {box : MailboxId} {event : Event M} (received : r.receive? box = some (event, rest)) :
    rest.WellKept limit := by
  unfold receive? at received
  split at received
  next => cases received
  next head left found =>
    obtain ⟨b, there, takes⟩ := Option.bind_eq_some_iff.mp found
    obtain ⟨-, rfl⟩ := Prod.mk.inj (Option.some.inj received)
    refine kept.changes box (Nat.le_trans ?_ (kept.bounded box))
    rw [pending_update_self]
    unfold pending
    rw [there]
    exact size_take_le takes

theorem WellKept.act {limit : Nat} {r : Registry M} (kept : r.WellKept limit) (act : Act) :
    (r.act act).WellKept limit := by
  cases act with
  | take box =>
    show (((r.receive? box).map Prod.snd).getD r).WellKept limit
    cases received : r.receive? box with
    | none => exact kept
    | some found => exact kept.receive received
  | drain box => exact kept.update box fun _ => Nat.zero_le _
  | drop box => exact kept.update box fun _ => Nat.le_refl _
  | shutdown => exact kept.of_same rfl rfl rfl rfl

end Registry

namespace Operation.Phase

variable {M : Type} {limit : Nat} {task : TaskId} {phase : Phase M} {next : Phase M ⊕ Answer}
  {r after : Registry M}

theorem WrapsUp.wellKept {delivered : Nat} {stale : Bool} (kept : r.WellKept limit)
    (wraps : WrapsUp task delivered r stale next after) : after.WellKept limit := by
  cases wraps with
  | ends => exact kept.releases task
  | prunes => exact (kept.releases task).asks task .exclusive

theorem Faces.wellKept {event : Event M} {box : MailboxId} {rest : List MailboxId} {delivered : Nat}
    {stale : Bool} (kept : r.WellKept limit)
    (faces : Faces task event box rest delivered stale r phase after) : after.WellKept limit := by
  cases faces with
  | comes => exact kept
  | waited => exact kept.update box fun _ => Nat.le_refl _

/-- Whoever is served has a place. -/
theorem Faces.room {event : Event M} {box : MailboxId} {rest : List MailboxId} {delivered : Nat}
    {stale : Bool} (faces : Faces task event box rest delivered stale r phase after)
    (ready : phase.ready task r = true) (live : r.live box = true) (unshut : r.shutdown = false)
    (room : phase = .offering event (box :: rest) delivered stale → r.hasRoom box = true) :
    after.pending box < after.capacity := by
  cases faces with
  | comes => exact Registry.pending_lt_of_hasRoom (room rfl)
  | waited =>
    have same : ∀ b : Mailbox M, (b.leave task).size ≤ b.size := fun b => Nat.le_refl b.size
    have left : (r.update box (·.leave task)).pending box ≤ r.pending box :=
      Registry.pending_update_le r box same box
    have given : r.pending box < r.capacity := Registry.pending_lt_of_roused ready live unshut
    exact Nat.lt_of_le_of_lt left given

/-- Every step of an operation keeps the accounts. -/
theorem Steps.wellKept (steps : Steps task r phase next after) (ready : phase.ready task r = true)
    (kept : r.WellKept limit) : after.WellKept limit := by
  cases steps with
  | asks => exact kept.asks task _
  | misses => exact kept
  | cancels there => exact (kept.cancels _).asks task .exclusive
  | cancelsAll => exact kept.cancelAll.asks task .exclusive
  | links id => exact (kept.link id).releases task
  | removes => exact kept.unlinkDead.releases task
  | finds => exact kept.releases task
  | counts => exact kept.releases task
  | takes => exact kept
  | wrapsUp wraps => exact wraps.wellKept kept
  | passes faces dead => exact faces.wellKept kept
  | quits faces shut => exact (faces.wellKept kept).releases task
  | gives faces live unshut room =>
    exact (faces.wellKept kept).accepts (faces.room ready live unshut room) _
  | parks => exact kept.update _ fun _ => Nat.le_refl _
  | tries wraps => exact wraps.wellKept (kept.offerAll _)
  | prunes => exact kept.unlinkDead.releases task
  | clears => exact kept.unlinkAll.releases task

theorem wellKept_release (kept : r.WellKept limit) (phase : Phase M) (task : TaskId) :
    (phase.release task r).WellKept limit := by
  cases phase with
  | parked event box rest delivered stale =>
    have same : ∀ b : Mailbox M, (b.leave task).size ≤ b.size := fun b => Nat.le_refl b.size
    exact (kept.update box same).releases task
  | _ => exact kept.releases task

end Operation.Phase

end HardwareSigner
