import HardwareSigner.Listener.Operation
import HardwareSigner.Listener.Receiver

/-!
# What the operations on a registry leave alone

Everything that a registry can be put through either puts an event into some mailbox, or leaves what
all mailboxes were ever given as it was. `Registry.Spares` says the latter of one mailbox: it has
been given nothing more, it has not come to life again, and if it is live it is linked as before.

> `Registry.spares_act`, `Registry.spares_link`, `Registry.spares_unlinkDead`, …: what spares every
> mailbox that there is.
> `Registry.accepted_accept`: what does not.
> `Registry.map_receive?`, `Registry.queued_take`, `Registry.queued_drain`: what a receiver finds in
> its mailbox, and what is left there.

Everybody may be unlinked once the registry is shut down, so being linked counts only before that.
-/

namespace HardwareSigner

namespace Registry

variable {M : Type}

/-- Everything that a mailbox was ever given, oldest first. -/
def accepted (r : Registry M) (box : MailboxId) : List (Event M) :=
  ((r.mailbox? box).map Mailbox.accepted).getD []

/-- Everything that was ever taken out of a mailbox, oldest first. -/
def taken (r : Registry M) (box : MailboxId) : List (Event M) :=
  ((r.mailbox? box).map Mailbox.taken).getD []

/-- Everything that waits in a mailbox, oldest first. -/
def queued (r : Registry M) (box : MailboxId) : List (Event M) :=
  ((r.mailbox? box).map Mailbox.queued).getD []

theorem accepted_eq (r : Registry M) (box : MailboxId) :
    r.accepted box = r.taken box ++ r.queued box := by
  unfold accepted taken queued
  cases r.mailbox? box with
  | none => rfl
  | some b => rfl

/-- The mailboxes of all linked listeners. -/
def boxes (r : Registry M) : List MailboxId := r.entries.map Prod.snd

/-- Nothing has been done for a mailbox, except perhaps that its listener has died. -/
structure Spares (box : MailboxId) (r after : Registry M) : Prop where
  known : box < r.mailboxes.length → box < after.mailboxes.length
  accepted : after.accepted box = r.accepted box
  live : after.live box = true → r.live box = true
  shutdown : r.shutdown = true → after.shutdown = true
  linked : after.shutdown = false → after.live box = true → box ∈ r.boxes → box ∈ after.boxes

namespace Spares

variable {box : MailboxId} {r s t : Registry M}

theorem refl (box : MailboxId) (r : Registry M) : Spares box r r :=
  ⟨id, rfl, id, id, fun _ _ => id⟩

theorem trans (first : Spares box r s) (second : Spares box s t) : Spares box r t where
  known below := second.known (first.known below)
  accepted := second.accepted.trans first.accepted
  live live := first.live (second.live live)
  shutdown shut := second.shutdown (first.shutdown shut)
  linked unshut live there := by
    have earlier : s.shutdown = false := by
      cases shut : s.shutdown with
      | false => rfl
      | true => exact absurd (second.shutdown shut) (by rw [unshut]; exact Bool.false_ne_true)
    exact second.linked unshut live (first.linked earlier (second.live live) there)

/-- Neither mailboxes nor entries have been touched. -/
theorem of_same {box : MailboxId} {r after : Registry M} (mailboxes : after.mailboxes = r.mailboxes)
    (entries : after.entries = r.entries) (shutdown : r.shutdown = true → after.shutdown = true) :
    Spares box r after where
  known below := by rw [mailboxes]; exact below
  accepted := by unfold Registry.accepted mailbox?; rw [mailboxes]
  live live := by
    unfold Registry.live mailbox? at live ⊢
    rw [mailboxes] at live
    exact live
  shutdown := shutdown
  linked _ _ there := by unfold boxes; rw [entries]; exact there

end Spares

theorem spares_asks (r : Registry M) (box : MailboxId) (task : TaskId) (mode : LockMode) :
    Spares box r (r.asks task mode) :=
  .of_same rfl rfl id

theorem spares_releases (r : Registry M) (box : MailboxId) (task : TaskId) :
    Spares box r (r.releases task) :=
  .of_same rfl rfl id

/-! ## Changes of one mailbox -/

section

variable (r : Registry M) (box : MailboxId) (change : Mailbox M → Mailbox M)

@[simp] theorem length_update : (r.update box change).mailboxes.length = r.mailboxes.length :=
  List.length_modify ..

@[simp] theorem boxes_update : (r.update box change).boxes = r.boxes := rfl

theorem accepted_update_of_ne {other : MailboxId} (different : other ≠ box) :
    (r.update box change).accepted other = r.accepted other := by
  unfold accepted
  rw [mailbox?_update_of_ne r different]

theorem live_update_of_ne {other : MailboxId} (different : other ≠ box) :
    (r.update box change).live other = r.live other := by
  unfold live
  rw [mailbox?_update_of_ne r different]

theorem spares_update_of_ne {other : MailboxId} (different : other ≠ box) :
    Spares other r (r.update box change) where
  known below := by rw [length_update]; exact below
  accepted := accepted_update_of_ne r box change different
  live live := by rw [live_update_of_ne r box change different] at live; exact live
  shutdown := id
  linked _ _ there := there

variable {change} in
/-- A change that brings nobody back to life. -/
theorem live_of_update (dies : ∀ b, (change b).live = true → b.live = true) {other : MailboxId}
    (live : (r.update box change).live other = true) : r.live other = true := by
  by_cases here : other = box
  · subst here
    unfold Registry.live at live ⊢
    rw [mailbox?_update_self] at live
    cases there : r.mailbox? other with
    | none => rw [there] at live; cases live
    | some b => rw [there] at live; exact dies b live
  · rw [live_update_of_ne r box change here] at live
    exact live

/-- A change that puts nothing in and brings nobody back to life. -/
theorem spares_update (same : ∀ b, (change b).accepted = b.accepted)
    (dies : ∀ b, (change b).live = true → b.live = true) (other : MailboxId) :
    Spares other r (r.update box change) := by
  by_cases here : other = box
  · subst here
    refine ⟨fun below => ?_, ?_, live_of_update r other dies, id, fun _ _ there => there⟩
    · rw [length_update]
      exact below
    · unfold accepted
      rw [mailbox?_update_self]
      cases r.mailbox? other with
      | none => rfl
      | some b => exact same b
  · exact spares_update_of_ne r box change here

end

/-- What does not spare a mailbox. -/
theorem accepted_accept {r : Registry M} {box : MailboxId} (known : box < r.mailboxes.length)
    (event : Event M) :
    (r.update box (·.accept event)).accepted box = r.accepted box ++ [event] := by
  have there : r.mailbox? box = some r.mailboxes[box] := List.getElem?_eq_getElem known
  unfold accepted
  rw [mailbox?_update_self, there]
  exact Mailbox.accepted_accept _ event

theorem spares_await (r : Registry M) (box : MailboxId) (task : TaskId) (other : MailboxId) :
    Spares other r (r.update box (·.await task)) :=
  spares_update r box (·.await task) (·.accepted_await task) (fun _ => id) other

theorem spares_leave (r : Registry M) (box : MailboxId) (task : TaskId) (other : MailboxId) :
    Spares other r (r.update box (·.leave task)) :=
  spares_update r box (·.leave task) (·.accepted_leave task) (fun _ => id) other

theorem spares_cancel (r : Registry M) (box other : MailboxId) : Spares other r (r.cancel box) := by
  refine spares_update r box Mailbox.cancel Mailbox.accepted_cancel (fun b live => ?_) other
  cases live

theorem spares_drop (r : Registry M) (box other : MailboxId) : Spares other r (r.drop box) := by
  refine spares_update r box Mailbox.drop Mailbox.accepted_drop (fun b live => ?_) other
  have dead : b.drop.live = false := Bool.and_false _
  rw [dead] at live
  cases live

theorem spares_drain (r : Registry M) (box other : MailboxId) : Spares other r (r.drain box).2 :=
  spares_update r box Mailbox.drained Mailbox.accepted_drained (fun _ => id) other

/-- Taking an event out of a mailbox changes what waits in it, but not what it was given. -/
theorem spares_receive {r rest : Registry M} {box : MailboxId} {event : Event M}
    (received : r.receive? box = some (event, rest)) (other : MailboxId) : Spares other r rest := by
  unfold receive? at received
  split at received
  next => cases received
  next head left found =>
    obtain ⟨b, there, takes⟩ := Option.bind_eq_some_iff.mp found
    injection received with received
    injection received with _ same
    rw [← same]
    -- The event moves from what waits to what has been taken, which together is what was given.
    by_cases here : other = box
    · subst here
      have changed := mailbox?_update_self r other fun _ => left
      rw [there] at changed
      have alive : left.live = b.live := by
        unfold Mailbox.take? at takes
        split at takes
        next => cases takes
        next => injection takes with takes; injection takes with _ same; rw [← same]; rfl
      refine ⟨fun below => ?_, ?_, fun live => ?_, id, fun _ _ there => there⟩
      · rw [length_update]
        exact below
      · unfold accepted
        rw [changed, there]
        exact Mailbox.accepted_of_take? takes
      · unfold Registry.live at live ⊢
        rw [changed] at live
        rw [there]
        exact alive.symm.trans live
    · exact spares_update_of_ne r box _ here

/-- Nothing that is done from outside spares less than everybody. -/
theorem spares_act (r : Registry M) (act : Act) (box : MailboxId) : Spares box r (r.act act) := by
  cases act with
  | take other =>
    show Spares box r (((r.receive? other).map Prod.snd).getD r)
    cases received : r.receive? other with
    | none => exact .refl box r
    | some found => exact spares_receive received box
  | drain other => exact spares_drain r other box
  | drop other => exact spares_drop r other box
  | shutdown => exact .of_same rfl rfl fun _ => rfl

/-! ## What is taken out of a mailbox -/

theorem taken_update_of_ne (r : Registry M) {box other : MailboxId} (different : other ≠ box)
    (change : Mailbox M → Mailbox M) : (r.update box change).taken other = r.taken other := by
  unfold taken
  rw [mailbox?_update_of_ne r different]

/-- The event that a receiver takes has been taken out of its own mailbox and of no other. -/
theorem taken_receive {r rest : Registry M} {box : MailboxId} {event : Event M}
    (received : r.receive? box = some (event, rest)) (other : MailboxId) :
    rest.taken other = r.taken other ++ if box = other then [event] else [] := by
  unfold receive? at received
  split at received
  next => cases received
  next head left found =>
    obtain ⟨b, there, takes⟩ := Option.bind_eq_some_iff.mp found
    obtain ⟨rfl, rfl⟩ := Prod.mk.inj (Option.some.inj received)
    by_cases here : box = other
    · subst here
      rw [if_pos rfl]
      unfold taken
      rw [mailbox?_update_self, there]
      show left.taken = b.taken ++ [head]
      unfold Mailbox.take? at takes
      split at takes
      next => cases takes
      next => obtain ⟨rfl, rfl⟩ := Prod.mk.inj (Option.some.inj takes); rfl
    · rw [if_neg here, List.append_nil]
      exact taken_update_of_ne r (Ne.symm here) _

theorem taken_drain (r : Registry M) (box other : MailboxId) :
    (r.drain box).2.taken other =
      r.taken other ++ if box = other then (r.drain box).1 else [] := by
  by_cases here : box = other
  · subst here
    rw [if_pos rfl]
    show (r.update box Mailbox.drained).taken box = r.taken box ++ r.queued box
    unfold taken queued
    rw [mailbox?_update_self]
    cases r.mailbox? box with
    | none => rfl
    | some b => rfl
  · rw [if_neg here, List.append_nil]
    exact taken_update_of_ne r (Ne.symm here) _

theorem taken_drop (r : Registry M) (box other : MailboxId) :
    (r.drop box).taken other = r.taken other := by
  by_cases here : other = box
  · subst here
    show (r.update other Mailbox.drop).taken other = _
    unfold taken
    rw [mailbox?_update_self]
    cases r.mailbox? other with
    | none => rfl
    | some b => rfl
  · exact taken_update_of_ne r here _

/-! ## What a receiver finds -/

theorem pending_eq_length (r : Registry M) (box : MailboxId) :
    r.pending box = (r.queued box).length := by
  unfold pending queued
  cases r.mailbox? box <;> rfl

/-- A receiver finds the oldest event that waits. -/
theorem map_receive? (r : Registry M) (box : MailboxId) :
    (r.receive? box).map Prod.fst = (r.queued box).head? := by
  unfold receive? queued
  cases r.mailbox? box with
  | none => rfl
  | some b =>
    obtain ⟨taken, queued, senders, cancelled, dropped⟩ := b
    cases queued <;> rfl

theorem receive?_eq_none_iff {r : Registry M} {box : MailboxId} :
    r.receive? box = none ↔ r.queued box = [] := by
  rw [← List.head?_eq_none_iff, ← map_receive?, Option.map_eq_none_iff]

theorem receive?_of_queued {r : Registry M} {box : MailboxId} {event : Event M}
    {rest : List (Event M)} (queued : r.queued box = event :: rest) :
    ∃ after, r.receive? box = some (event, after) := by
  have found := r.map_receive? box
  rw [queued] at found
  obtain ⟨⟨_, after⟩, received, rfl⟩ := Option.map_eq_some_iff.mp found
  exact ⟨after, received⟩

/-- Whoever takes the oldest event leaves the others waiting. -/
theorem queued_take (r : Registry M) (box : MailboxId) :
    (r.act (.take box)).queued box = (r.queued box).tail := by
  cases waiting : r.queued box with
  | nil =>
    show (((r.receive? box).map Prod.snd).getD r).queued box = []
    rw [receive?_eq_none_iff.mpr waiting]
    exact waiting
  | cons event rest =>
    obtain ⟨after, received⟩ := receive?_of_queued waiting
    show (((r.receive? box).map Prod.snd).getD r).queued box = rest
    rw [received]
    -- What has been given is the same, and has been taken but for what waits.
    have accepted := (spares_receive received box).accepted
    rw [accepted_eq, accepted_eq, taken_receive received, if_pos rfl, waiting, List.append_assoc]
      at accepted
    exact List.tail_eq_of_cons_eq (List.append_cancel_left accepted)

theorem queued_drain (r : Registry M) (box : MailboxId) : (r.drain box).2.queued box = [] := by
  show (r.update box Mailbox.drained).queued box = []
  unfold queued
  rw [mailbox?_update_self]
  cases r.mailbox? box <;> rfl

/-! ## Changes of who is linked -/

theorem spares_cancelAll (r : Registry M) (box : MailboxId) : Spares box r r.cancelAll :=
  List.foldlRecOn (motive := Spares box r) r.tokens _ (.refl box r)
    fun after spares token _ => spares.trans (spares_cancel after token.2 box)

theorem length_cancelAll (r : Registry M) :
    r.cancelAll.mailboxes.length = r.mailboxes.length :=
  List.foldlRecOn (motive := fun (after : Registry M) => after.mailboxes.length = _) r.tokens _ rfl
    fun after same _ _ => (length_update after _ _).trans same

/-- The dead are unlinked and nobody else. -/
theorem mem_boxes_unlinkDead {r : Registry M} {box : MailboxId} :
    box ∈ r.unlinkDead.boxes ↔ box ∈ r.boxes ∧ r.live box = true := by
  unfold boxes unlinkDead
  simp only [List.mem_map, List.mem_filter]
  constructor
  · rintro ⟨entry, ⟨there, live⟩, rfl⟩
    exact ⟨⟨entry, there, rfl⟩, live⟩
  · rintro ⟨⟨entry, there, rfl⟩, live⟩
    exact ⟨entry, ⟨there, live⟩, rfl⟩

theorem spares_unlinkDead (r : Registry M) (box : MailboxId) : Spares box r r.unlinkDead where
  known := id
  accepted := rfl
  live := id
  shutdown := id
  linked _ live there := mem_boxes_unlinkDead.mpr ⟨there, live⟩

theorem spares_unlinkAll {r : Registry M} (shut : r.shutdown = true) (box : MailboxId) :
    Spares box r r.unlinkAll where
  known := id
  accepted := rfl
  live := id
  shutdown := id
  linked unshut _ _ := by
    have same : r.unlinkAll.shutdown = true := shut
    rw [same] at unshut
    cases unshut

/-- A listener is linked with a mailbox of its own, or somebody has its id already. -/
theorem link_cases (r : Registry M) (id : ListenerId) :
    r.link id = (.error (.duplicateListener id), r.unlinkDead) ∨
    ∃ after, r.link id = (.ok r.mailboxes.length, after) ∧
      after.mailboxes = r.mailboxes ++ [({} : Mailbox M)] ∧
      after.entries = r.unlinkDead.entries ++ [(id, r.mailboxes.length)] ∧
      after.shutdown = r.shutdown := by
  unfold link
  simp only
  split
  · exact Or.inl rfl
  · exact Or.inr ⟨_, rfl, rfl, rfl, rfl⟩

theorem spares_link {r : Registry M} {box : MailboxId} (known : box < r.mailboxes.length)
    (id : ListenerId) : Spares box r (r.link id).2 := by
  rcases link_cases r id with refused | ⟨after, linked, mailboxes, entries, shutdown⟩
  · rw [refused]
    exact spares_unlinkDead r box
  · rw [linked]
    have same : after.mailbox? box = r.mailbox? box := by
      unfold mailbox?
      rw [mailboxes]
      exact List.getElem?_append_left known
    refine ⟨fun below => ?_, ?_, fun live => ?_, fun shut => ?_, fun _ live there => ?_⟩
    · rw [mailboxes, List.length_append]
      exact Nat.lt_add_right _ below
    · unfold accepted
      rw [same]
    · unfold Registry.live at live ⊢
      rw [same] at live
      exact live
    · rw [shutdown]
      exact shut
    · have live : r.live box = true := by
        unfold Registry.live at live ⊢
        rw [same] at live
        exact live
      unfold boxes
      rw [entries, List.map_append]
      exact List.mem_append_left _ (mem_boxes_unlinkDead.mpr ⟨there, live⟩)

/-! ## Whose numbers are linked -/

/-- Listeners are linked in the order of their mailboxes, each with one of its own. -/
def Ordered (r : Registry M) : Prop := r.boxes.Sublist (List.range r.mailboxes.length)

theorem ordered_empty (capacity : Nat) : (empty capacity : Registry M).Ordered :=
  List.nil_sublist _

/-- No mailbox is lost, none is emptied, and no listener has come to life again. Mailboxes are still
linked in their order, and the registry has not been shut down, or has been as before. -/
structure Keeps (r after : Registry M) : Prop where
  length : r.mailboxes.length ≤ after.mailboxes.length
  taken : ∀ box < r.mailboxes.length, after.taken box = r.taken box
  live : ∀ box < r.mailboxes.length, after.live box = true → r.live box = true
  shutdown : after.shutdown = r.shutdown
  ordered : r.Ordered → after.Ordered

namespace Keeps

variable {r s t : Registry M}

theorem refl (r : Registry M) : Keeps r r :=
  ⟨Nat.le_refl _, fun _ _ => rfl, fun _ _ => id, rfl, id⟩

theorem trans (first : Keeps r s) (second : Keeps s t) : Keeps r t :=
  ⟨Nat.le_trans first.length second.length, fun box known =>
      (second.taken box (Nat.lt_of_lt_of_le known first.length)).trans (first.taken box known),
    fun box known live =>
      first.live box known (second.live box (Nat.lt_of_lt_of_le known first.length) live),
    second.shutdown.trans first.shutdown,
    fun ordered => second.ordered (first.ordered ordered)⟩

/-- Nothing but the lock has changed. -/
theorem of_same (mailboxes : s.mailboxes = r.mailboxes) (entries : s.entries = r.entries)
    (shutdown : s.shutdown = r.shutdown) : Keeps r s where
  length := Nat.le_of_eq (congrArg List.length mailboxes.symm)
  taken box _ := by unfold Registry.taken mailbox?; rw [mailboxes]
  live box _ live := by
    unfold Registry.live mailbox? at live ⊢
    rw [mailboxes] at live
    exact live
  shutdown := shutdown
  ordered ordered := by
    unfold Ordered boxes
    rw [mailboxes, entries]
    exact ordered

theorem asks (r : Registry M) (task : TaskId) (mode : LockMode) : Keeps r (r.asks task mode) :=
  .of_same rfl rfl rfl

theorem releases (r : Registry M) (task : TaskId) : Keeps r (r.releases task) :=
  .of_same rfl rfl rfl

theorem update (r : Registry M) (box : MailboxId) {change : Mailbox M → Mailbox M}
    (same : ∀ b, (change b).taken = b.taken) (dies : ∀ b, (change b).live = true → b.live = true) :
    Keeps r (r.update box change) where
  length := Nat.le_of_eq (length_update r box change).symm
  taken other _ := by
    unfold Registry.taken
    by_cases here : other = box
    · rw [here, mailbox?_update_self]
      cases r.mailbox? box with
      | none => rfl
      | some b => exact same b
    · rw [mailbox?_update_of_ne r here]
  live _ _ live := live_of_update r box dies live
  shutdown := rfl
  ordered ordered := by
    unfold Ordered
    rw [boxes_update, length_update]
    exact ordered

theorem cancelAll (r : Registry M) : Keeps r r.cancelAll := by
  refine List.foldlRecOn (motive := Keeps r) r.tokens _ (.refl r) fun after keeps token _ => ?_
  exact keeps.trans (update after token.2 (fun _ => rfl) fun _ live => by cases live)

theorem unlinkDead (r : Registry M) : Keeps r r.unlinkDead where
  length := Nat.le_refl _
  taken _ _ := rfl
  live _ _ := id
  shutdown := rfl
  ordered ordered := (List.filter_sublist.map Prod.snd).trans ordered

theorem unlinkAll (r : Registry M) : Keeps r r.unlinkAll where
  length := Nat.le_refl _
  taken _ _ := rfl
  live _ _ := id
  shutdown := rfl
  ordered _ := List.nil_sublist _

theorem link (r : Registry M) (id : ListenerId) : Keeps r (r.link id).2 := by
  rcases link_cases r id with refused | ⟨after, linked, mailboxes, entries, shutdown⟩
  · rw [refused]
    exact unlinkDead r
  · rw [linked]
    refine ⟨?_, fun box known => ?_, fun box known live => ?_, shutdown, fun ordered => ?_⟩
    · rw [mailboxes, List.length_append]
      exact Nat.le_add_right _ _
    · unfold Registry.taken mailbox?
      rw [mailboxes, List.getElem?_append_left known]
    · unfold Registry.live mailbox? at live ⊢
      rw [mailboxes, List.getElem?_append_left known] at live
      exact live
    unfold Ordered boxes
    rw [mailboxes, entries, List.map_append, List.length_append, List.length_singleton,
      List.range_succ]
    exact ((unlinkDead r).ordered ordered).append_right _

end Keeps

/-- From outside only mailboxes are changed, and whether anybody is still to be served. -/
theorem act_eq (r : Registry M) (act : Act) :
    ∃ mailboxes shut, r.act act = { r with mailboxes := mailboxes, shutdown := shut } ∧
      (act = .shutdown ∨ shut = r.shutdown) := by
  cases act with
  | take box =>
    show ∃ mailboxes shut, ((r.receive? box).map Prod.snd).getD r = _ ∧ _
    unfold receive?
    split <;> exact ⟨_, _, rfl, Or.inr rfl⟩
  | drain box => exact ⟨_, _, rfl, Or.inr rfl⟩
  | drop box => exact ⟨_, _, rfl, Or.inr rfl⟩
  | shutdown => exact ⟨_, _, rfl, Or.inl rfl⟩

theorem length_act (r : Registry M) (act : Act) :
    (r.act act).mailboxes.length = r.mailboxes.length := by
  cases act with
  | take box =>
    show (((r.receive? box).map Prod.snd).getD r).mailboxes.length = _
    unfold receive?
    split
    · rfl
    · exact length_update r box _
  | drain box => exact length_update r box _
  | drop box => exact length_update r box _
  | shutdown => rfl

theorem boxes_act (r : Registry M) (act : Act) : (r.act act).boxes = r.boxes := by
  obtain ⟨mailboxes, shut, same, -⟩ := r.act_eq act
  rw [same]
  rfl

theorem ordered_act {r : Registry M} (ordered : r.Ordered) (act : Act) : (r.act act).Ordered := by
  unfold Ordered
  rw [boxes_act, length_act]
  exact ordered

end Registry

/-- A receiver that waits for an event changes the registry only by taking one. -/
theorem Receiving.poll_cases {M : Type} {waiting : Receiving} {clock : Nat} {r : Registry M}
    {receipt : Receipt M}
    {after : Registry M} (polled : waiting.poll clock r = some (receipt, after)) :
    (∃ event, r.receive? waiting.box = some (event, after) ∧ receipt = .arrived event) ∨
      (after = r ∧ receipt.event? = none) := by
  unfold Receiving.poll at polled
  split at polled
  next event rest received =>
    obtain ⟨rfl, rfl⟩ := Prod.mk.inj (Option.some.inj polled)
    exact Or.inl ⟨event, received, rfl⟩
  next =>
    split at polled
    · obtain ⟨rfl, rfl⟩ := Prod.mk.inj (Option.some.inj polled)
      exact Or.inr ⟨rfl, rfl⟩
    · split at polled
      · cases polled
      · split at polled
        · obtain ⟨rfl, rfl⟩ := Prod.mk.inj (Option.some.inj polled)
          exact Or.inr ⟨rfl, rfl⟩
        · cases polled

end HardwareSigner
