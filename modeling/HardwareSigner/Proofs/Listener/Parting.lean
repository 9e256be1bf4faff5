import HardwareSigner.Proofs.Listener.Backpressure

/-!
# Taking leave of the listeners

A registry that is shut down is told one more event, which is offered to everybody who has a place.
A dispatch that is still going on gives nobody anything any more; at most it leaves the place where
it waits.

> `Operation.Phase.Steps.rests`: what a step of a dispatch does after the shutdown.
> `Registry.parted_offerAll`: what becomes of each mailbox when the event is offered.
-/

namespace HardwareSigner

namespace Registry

variable {M : Type} {r s t after : Registry M}

/-! ## Nobody is given anything -/

/-- Every mailbox holds what it held, and nothing has been taken out of it. -/
def Quiet (r after : Registry M) : Prop :=
  ∀ box, after.taken box = r.taken box ∧ after.queued box = r.queued box

theorem Quiet.trans (first : Quiet r s) (second : Quiet s t) : Quiet r t := fun box =>
  ⟨(second box).1.trans (first box).1, (second box).2.trans (first box).2⟩

theorem Quiet.of_mailboxes (same : after.mailboxes = r.mailboxes) : Quiet r after := by
  intro box
  unfold Registry.taken Registry.queued mailbox?
  rw [same]
  exact ⟨rfl, rfl⟩

theorem Quiet.update (r : Registry M) (box : MailboxId) {change : Mailbox M → Mailbox M}
    (same : ∀ b, (change b).taken = b.taken ∧ (change b).queued = b.queued) :
    Quiet r (r.update box change) := by
  intro other
  unfold Registry.taken Registry.queued
  by_cases here : other = box
  · rw [here, mailbox?_update_self]
    cases r.mailbox? box with
    | none => exact ⟨rfl, rfl⟩
    | some b => exact same b
  · rw [mailbox?_update_of_ne r here]
    exact ⟨rfl, rfl⟩

theorem quiet_cancelAll (r : Registry M) : Quiet r r.cancelAll := by
  refine List.foldlRecOn (motive := Quiet r) r.tokens _ (fun _ => ⟨rfl, rfl⟩) ?_
  intro after quiet token _
  exact quiet.trans (Quiet.update after token.2 fun _ => ⟨rfl, rfl⟩)

/-- Nobody has been given anything, and nobody has come or died; whoever waited for a place may have
left, and the dead may have been unlinked. -/
structure Rests (r after : Registry M) : Prop where
  quiet : Quiet r after
  capacity : after.capacity = r.capacity
  live : ∀ box, after.live box = r.live box
  senders : ∀ box, (after.senders box).Sublist (r.senders box)
  boxes : ∀ box, r.live box = true → (box ∈ after.boxes ↔ box ∈ r.boxes)
  entries : after.entries.Sublist r.entries
  tokens : after.tokens.Sublist r.tokens

namespace Rests

theorem trans (first : Rests r s) (second : Rests s t) : Rests r t where
  quiet := first.quiet.trans second.quiet
  capacity := second.capacity.trans first.capacity
  live box := (second.live box).trans (first.live box)
  senders box := (second.senders box).trans (first.senders box)
  boxes box live :=
    (second.boxes box ((first.live box).trans live)).trans (first.boxes box live)
  entries := second.entries.trans first.entries
  tokens := second.tokens.trans first.tokens

theorem of_same (mailboxes : after.mailboxes = r.mailboxes) (capacity : after.capacity = r.capacity)
    (entries : after.entries = r.entries) (tokens : after.tokens = r.tokens) : Rests r after where
  quiet := .of_mailboxes mailboxes
  capacity := capacity
  live box := by unfold Registry.live mailbox?; rw [mailboxes]
  senders box := by
    unfold Registry.senders mailbox?
    rw [mailboxes]
  boxes box _ := by unfold Registry.boxes; rw [entries]
  entries := entries ▸ List.Sublist.refl _
  tokens := tokens ▸ List.Sublist.refl _

theorem refl (r : Registry M) : Rests r r := .of_same rfl rfl rfl rfl

/-- Somebody no longer waits for a place. -/
theorem leave (r : Registry M) (box : MailboxId) (task : TaskId) :
    Rests r (r.update box (·.leave task)) where
  quiet := .update r box fun _ => ⟨rfl, rfl⟩
  capacity := rfl
  live other := live_update r box other fun _ => rfl
  senders other := by
    rw [senders_leave]
    split
    · exact List.filter_sublist
    · exact List.Sublist.refl _
  boxes other _ := by rw [boxes_update]
  entries := List.Sublist.refl _
  tokens := List.Sublist.refl _

theorem unlinkDead (r : Registry M) : Rests r r.unlinkDead where
  quiet := .of_mailboxes rfl
  capacity := rfl
  live _ := rfl
  senders _ := List.Sublist.refl _
  boxes box live := by rw [mem_boxes_unlinkDead, and_iff_left live]
  entries := List.filter_sublist
  tokens := List.filter_sublist

/-- Whoever had a place still has one. -/
theorem hasRoom (rests : Rests r after) {box : MailboxId} (live : r.live box = true)
    (room : r.hasRoom box = true) : after.hasRoom box = true := by
  rw [hasRoom_iff live, Registry.pending_eq_length] at room
  rw [hasRoom_iff ((rests.live box).trans live), Registry.pending_eq_length,
    (rests.quiet box).2, rests.capacity]
  have fewer := (rests.senders box).length_le
  omega

/-- A full mailbox is still full. -/
theorem full (rests : Rests r after) {box : MailboxId} (live : r.live box = true)
    (full : r.capacity ≤ r.pending box) : after.hasRoom box = false := by
  rw [Bool.eq_false_iff]
  intro room
  rw [hasRoom_iff ((rests.live box).trans live), Registry.pending_eq_length,
    (rests.quiet box).2, rests.capacity, ← Registry.pending_eq_length] at room
  omega

end Rests

/-! ## The last event -/

/-- Whoever is linked, lives and has a place is given the event. -/
theorem events_offerAll (ordered : r.Ordered) (event : Event M) (box : MailboxId) :
    (r.offerAll event).2.taken box = r.taken box ∧
      (r.offerAll event).2.queued box = r.queued box ++
        if box ∈ r.boxes ∧ r.live box = true ∧ r.hasRoom box = true then [event] else [] := by
  have alone : r.boxes.Nodup := ordered.nodup List.nodup_range
  by_cases known : box < r.mailboxes.length
  · have taken : (r.offerAll event).2.taken box = r.taken box :=
      (Operation.Phase.keeps_acceptAll r event _).taken box known
    have given : (r.offerAll event).2.accepted box = r.accepted box ++ _ :=
      Operation.Phase.accepted_acceptAll r event
        (alone.filter fun box => r.live box && r.hasRoom box) known
    rw [accepted_eq, accepted_eq, taken, List.append_assoc] at given
    refine ⟨taken, (List.append_cancel_left given).trans ?_⟩
    simp only [List.mem_filter, Bool.and_eq_true]
  · have unknown := Nat.le_of_not_lt known
    have length : (r.offerAll event).2.mailboxes.length = r.mailboxes.length :=
      Operation.Phase.length_acceptAll r event _
    have dead : r.live box ≠ true := fun live => known (RegistryTask.known_of_live live)
    rw [if_neg fun given => dead given.2.1, List.append_nil]
    unfold Registry.taken Registry.queued mailbox?
    rw [List.getElem?_eq_none unknown, List.getElem?_eq_none (length ▸ unknown)]
    exact ⟨rfl, rfl⟩

/-- What becomes of the mailboxes that were as in `r` when the registry was shut down. -/
structure Parted (r now : Registry M) : Prop where
  /-- Nobody takes anything out. -/
  taken : ∀ box, now.taken box = r.taken box
  /-- Every live listener that has room is told once. -/
  told : ∀ box ∈ r.boxes, r.live box = true → r.hasRoom box = true →
    now.queued box = r.queued box ++ [.system .disconnected]
  /-- A full mailbox remains as it is, and so does that of a listener that is gone. -/
  kept : ∀ box, box ∉ r.boxes ∨ r.live box = false ∨ r.capacity ≤ r.pending box →
    now.queued box = r.queued box
  /-- A place that is kept for a dispatch is free as soon as the dispatch has left it. -/
  once : ∀ box, now.queued box = r.queued box ∨
    now.queued box = r.queued box ++ [.system .disconnected]

theorem parted_offerAll (rests : Rests r s) (ordered : s.Ordered) :
    Parted r (s.offerAll (.system .disconnected)).2 := by
  have events := events_offerAll ordered (.system .disconnected)
  refine ⟨fun box => ?_, fun box linked live room => ?_, fun box without => ?_, fun box => ?_⟩
  · exact (events box).1.trans (rests.quiet box).1
  · have given : box ∈ s.boxes ∧ s.live box = true ∧ s.hasRoom box = true :=
      ⟨(rests.boxes box live).mpr linked, (rests.live box).trans live, rests.hasRoom live room⟩
    rw [(events box).2, if_pos given, (rests.quiet box).2]
  · have ungiven : ¬ (box ∈ s.boxes ∧ s.live box = true ∧ s.hasRoom box = true) := by
      intro given
      obtain ⟨linked, alive, room⟩ := given
      have live : r.live box = true := (rests.live box).symm.trans alive
      rcases without with unlinked | dead | full
      · exact unlinked ((rests.boxes box live).mp linked)
      · rw [dead] at live
        cases live
      · rw [rests.full live full] at room
        cases room
    rw [(events box).2, if_neg ungiven, List.append_nil, (rests.quiet box).2]
  · rw [(events box).2, (rests.quiet box).2]
    split
    · exact Or.inr rfl
    · exact Or.inl (List.append_nil _)

theorem Parted.quiet (parted : Parted r s) (quiet : Quiet s t) : Parted r t := by
  have taken : ∀ box, t.taken box = s.taken box := fun box => (quiet box).1
  have queued : ∀ box, t.queued box = s.queued box := fun box => (quiet box).2
  obtain ⟨untaken, told, kept, once⟩ := parted
  refine ⟨fun box => (taken box).trans (untaken box), ?_, ?_, ?_⟩
  · intro box linked live room
    rw [queued, told box linked live room]
  · intro box without
    rw [queued, kept box without]
  · intro box
    rw [queued]
    exact once box

end Registry

namespace Operation.Phase

variable {M : Type} {phase next : Phase M} {task : TaskId} {r after : Registry M}

/-! ## A dispatch after the shutdown -/

/-- Whether a task dispatches an event. -/
def dispatches : Phase M → Bool
  | .begin (.dispatch _) | .dispatching _ | .offering .. | .parked .. | .pruning _ => true
  | _ => false

theorem dispatches_of_step (dispatches : phase.dispatches = true)
    (turn : phase.step task r = (.inl next, after)) : next.dispatches = true := by
  have steps : Steps task r phase (.inl next) after := by
    have steps := phase.steps task r
    rwa [turn] at steps
  cases steps with
  | asks asks => cases asks <;> first | rfl | cases dispatches
  | takes | passes | gives | parks => rfl
  | wrapsUp wraps => rw [wraps.prunes_of_left]; rfl
  | _ => cases dispatches

theorem Faces.rests {event : Event M} {box : MailboxId} {rest : List MailboxId} {delivered : Nat}
    {stale : Bool} (faces : Faces task event box rest delivered stale r phase after) :
    Registry.Rests r after := by
  cases faces with
  | comes => exact .refl r
  | waited => exact .leave r box task

/-- After the shutdown a dispatch gives nobody anything. -/
theorem Steps.rests {outcome : Phase M ⊕ Answer} (steps : Steps task r phase outcome after)
    (shut : r.shutdown = true) (dispatches : phase.dispatches = true) : Registry.Rests r after := by
  cases steps with
  | asks => exact .of_same rfl rfl rfl rfl
  | takes => exact .refl r
  | wrapsUp wraps => cases wraps <;> exact .of_same rfl rfl rfl rfl
  | passes faces dead => exact faces.rests
  | quits faces => exact faces.rests.trans (.of_same rfl rfl rfl rfl)
  | gives faces live unshut room => rw [shut] at unshut; cases unshut
  | parks live unshut full => rw [shut] at unshut; cases unshut
  | prunes delivered => exact (Registry.Rests.unlinkDead r).trans (.of_same rfl rfl rfl rfl)
  | _ => cases dispatches

theorem WrapsUp.quiet {delivered : Nat} {stale : Bool} {outcome : Phase M ⊕ Answer}
    (wraps : WrapsUp task delivered r stale outcome after) : Registry.Quiet r after := by
  cases wraps <;> exact .of_mailboxes rfl

/-- What becomes of the mailboxes when they are offered the last event. -/
theorem Steps.parted {start : Registry M} {outcome : Phase M ⊕ Answer}
    (steps : Steps task r (.trying (.system .disconnected)) outcome after)
    (rests : Registry.Rests start r) (ordered : r.Ordered) : Registry.Parted start after := by
  cases steps with
  | tries wraps => exact (Registry.parted_offerAll rests ordered).quiet wraps.quiet
  | passes faces | quits faces | gives faces => cases faces

theorem rests_release (phase : Phase M) (task : TaskId) (r : Registry M) :
    Registry.Rests r (phase.release task r) := by
  cases phase with
  | parked event box rest delivered stale =>
    exact (Registry.Rests.leave r box task).trans (.of_same rfl rfl rfl rfl)
  | _ => exact .of_same rfl rfl rfl rfl

end Operation.Phase

end HardwareSigner
