import HardwareSigner.Proofs.Listener.Steps
import HardwareSigner.Proofs.Listener.Changes

/-!
# A dispatch that nobody comes between

If nobody else is at work on a registry and every live listener has a place, a dispatch comes to the
same as offering the event to everybody at once and then unlinking the dead.

> `Operation.Phase.Uninterrupted.step`: how far it has got after each step, and what it comes to.
-/

namespace HardwareSigner

namespace Registry

variable {M : Type}

/-- Some listeners are given an event. -/
def give (r : Registry M) (event : Event M) (boxes : List MailboxId) : Registry M :=
  boxes.foldl (fun r box => r.update box (·.accept event)) r

/-- Everybody is told an event: whoever is live is given it, and the dead are unlinked. -/
def tell (r : Registry M) (event : Event M) : Registry M := (r.offerAll event).2.unlinkDead

/-- Every live listener has a place. -/
def Roomy (r : Registry M) : Prop :=
  ∀ box ∈ r.boxes, r.live box = true → r.hasRoom box = true

section

variable (r : Registry M) (event : Event M) (boxes : List MailboxId)

theorem give_snoc (box : MailboxId) :
    r.give event (boxes ++ [box]) = (r.give event boxes).update box (·.accept event) :=
  List.foldl_append

theorem boxes_give : (r.give event boxes).boxes = r.boxes :=
  List.foldlRecOn (motive := fun (after : Registry M) => after.boxes = r.boxes) boxes _ rfl
    fun _ same _ _ => same

theorem lock_give : (r.give event boxes).lock = r.lock :=
  List.foldlRecOn (motive := fun (after : Registry M) => after.lock = r.lock) boxes _ rfl
    fun _ same _ _ => same

theorem shutdown_give : (r.give event boxes).shutdown = r.shutdown :=
  List.foldlRecOn (motive := fun (after : Registry M) => after.shutdown = r.shutdown) boxes _ rfl
    fun _ same _ _ => same

theorem live_give (box : MailboxId) : (r.give event boxes).live box = r.live box :=
  List.foldlRecOn (motive := fun (after : Registry M) => after.live box = r.live box) boxes _ rfl
    fun after same other _ => by
      have still : (after.update other (·.accept event)).live box = after.live box :=
        live_update after other box fun _ => rfl
      exact still.trans same

theorem capacity_give : (r.give event boxes).capacity = r.capacity :=
  List.foldlRecOn (motive := fun (after : Registry M) => after.capacity = r.capacity) boxes _ rfl
    fun _ same _ _ => same

variable {boxes} in
theorem mailbox?_give_of_not_mem {box : MailboxId} (absent : box ∉ boxes) :
    (r.give event boxes).mailbox? box = r.mailbox? box :=
  List.foldlRecOn (motive := fun (after : Registry M) => after.mailbox? box = r.mailbox? box)
    boxes _
    rfl fun after same other there =>
      (mailbox?_update_of_ne after (fun here : box = other => absent (here ▸ there)) _).trans same

variable {boxes} in
theorem hasRoom_give_of_not_mem {box : MailboxId} (absent : box ∉ boxes) :
    (r.give event boxes).hasRoom box = r.hasRoom box := by
  unfold hasRoom
  rw [mailbox?_give_of_not_mem r event absent, capacity_give]

end

section

variable {r : Registry M}

/-- Where everybody is live there is nobody to unlink. -/
theorem unlinkDead_of_live (live : ∀ box ∈ r.boxes, r.live box = true) : r.unlinkDead = r := by
  have all : ∀ entry ∈ r.entries, r.live entry.2 = true :=
    fun entry there => live entry.2 (List.mem_map_of_mem there)
  have none : (r.entries.filter fun entry => !r.live entry.2) = [] := by
    rw [List.filter_eq_nil_iff]
    intro entry there
    rw [all entry there]
    exact Bool.false_ne_true
  have known : (r.tokens.filter fun _ => true) = r.tokens := List.filter_eq_self.mpr fun _ _ => rfl
  unfold unlinkDead
  rw [none, List.filter_eq_self.mpr all]
  show { r with tokens := r.tokens.filter fun _ => true } = r
  rw [known]

theorem tell_of_roomy (roomy : r.Roomy) (event : Event M) :
    r.tell event = (r.give event (r.boxes.filter r.live)).unlinkDead := by
  have same : (r.boxes.filter fun box => r.live box && r.hasRoom box) = r.boxes.filter r.live := by
    refine List.filter_congr fun box there => ?_
    cases live : r.live box with
    | false => rfl
    | true => rw [roomy box there live, Bool.and_self]
  show (r.give event (r.boxes.filter fun box => r.live box && r.hasRoom box)).unlinkDead = _
  rw [same]

/-- Whoever comes to a registry on which nobody is at work, and goes again, leaves it as it was. -/
theorem releases_asks (idle : r.lock = {}) (task : TaskId) (mode : LockMode) :
    (r.asks task mode).releases task = r := by
  have alone : (r.lock.request task mode).release task = r.lock := by
    rw [idle]
    simp [Lock.request, Lock.release]
  show { r with lock := (r.lock.request task mode).release task } = r
  rw [alone]

end

end Registry

namespace Operation.Phase

variable {M : Type}

/-- How far a dispatch has got on a registry that was `r` before it. -/
inductive Uninterrupted (task : TaskId) (event : Event M) (r : Registry M) :
    Phase M → Registry M → Prop
  | begins : Uninterrupted task event r (.begin (.dispatch event)) r
  | waits : Uninterrupted task event r (.dispatching event) (r.asks task .shared)
  /-- It has come past `done`. -/
  | offers (done rest : List MailboxId) (all : r.boxes = done ++ rest) :
      Uninterrupted task event r
        (.offering event rest (done.countP r.live) (done.any fun box => !r.live box))
        ((r.give event (done.filter r.live)).asks task .shared)
  | prunes :
      Uninterrupted task event r (.pruning (r.boxes.countP r.live))
        ((r.give event (r.boxes.filter r.live)).asks task .exclusive)

namespace Uninterrupted

variable {task : TaskId} {event : Event M} {r now : Registry M} {phase : Phase M}

/-- It comes to the next listener. -/
theorem serve (roomy : r.Roomy) (unshut : r.shutdown = false) (once : r.boxes.Nodup)
    {done rest : List MailboxId} {box : MailboxId} (all : r.boxes = done ++ box :: rest) :
    ∃ next after, (offering event (box :: rest) (done.countP r.live)
        (done.any fun box => !r.live box)).step task
          ((r.give event (done.filter r.live)).asks task .shared) = (.inl next, after) ∧
      Uninterrupted task event r next after := by
  have onward : r.boxes = (done ++ [box]) ++ rest := by rw [all, List.append_assoc]; rfl
  have still := Registry.live_give r event (done.filter r.live) box
  show ∃ next after, Phase.serve task event box rest _ _ _ = _ ∧ _
  unfold Phase.serve
  rw [show Registry.live ((r.give event (done.filter r.live)).asks task .shared) box =
      r.live box from still]
  cases live : r.live box with
  | false =>
    have passed := @offers M task event r (done ++ [box]) rest onward
    have dead : ¬ r.live box = true := Bool.eq_false_iff.mp live
    rw [List.filter_append, List.filter_cons_of_neg dead, List.filter_nil, List.append_nil,
      List.countP_append, List.countP_cons_of_neg dead, List.countP_nil, Nat.add_zero,
      List.any_append, List.any_cons, live, List.any_nil] at passed
    refine ⟨_, _, rfl, ?_⟩
    rwa [show ((done.any fun box => !r.live box) || (!false || false)) = true from Bool.or_true _]
      at passed
  | true =>
    have absent : box ∉ done.filter r.live := by
      intro there
      rw [all, List.nodup_append] at once
      exact once.2.2 box (List.mem_filter.mp there).1 box List.mem_cons_self rfl
    have room :
        Registry.hasRoom ((r.give event (done.filter r.live)).asks task .shared) box = true :=
      (Registry.hasRoom_give_of_not_mem r event absent).trans
        (roomy box (all ▸ List.mem_append_right _ List.mem_cons_self) live)
    have open' :
        Registry.shutdown ((r.give event (done.filter r.live)).asks task .shared) = false :=
      (Registry.shutdown_give r event _).trans unshut
    have served := @offers M task event r (done ++ [box]) rest onward
    rw [List.filter_append, List.filter_cons_of_pos live, List.filter_nil, Registry.give_snoc,
      List.countP_append, List.countP_cons_of_pos live, List.countP_nil, List.any_append,
      List.any_cons, live, List.any_nil] at served
    rw [open', room]
    refine ⟨_, _, rfl, ?_⟩
    rwa [show ((done.any fun box => !r.live box) || (!true || false)) =
      done.any fun box => !r.live box from Bool.or_false _] at served

/-- It has come past everybody. -/
theorem wrapUp (roomy : r.Roomy) (idle : r.lock = {}) :
    (∃ next after, (offering event [] (r.boxes.countP r.live)
        (r.boxes.any fun box => !r.live box)).step task
          ((r.give event (r.boxes.filter r.live)).asks task .shared) = (.inl next, after) ∧
      Uninterrupted task event r next after) ∨
    (offering event [] (r.boxes.countP r.live) (r.boxes.any fun box => !r.live box)).step task
        ((r.give event (r.boxes.filter r.live)).asks task .shared) =
      (.inr (.delivered (r.boxes.countP r.live)), r.tell event) := by
  have left : ((r.give event (r.boxes.filter r.live)).asks task .shared).releases task =
      r.give event (r.boxes.filter r.live) :=
    Registry.releases_asks ((Registry.lock_give r event _).trans idle) task .shared
  show (∃ next after, Phase.wrapUp task _ _ _ = _ ∧ _) ∨ Phase.wrapUp task _ _ _ = _
  unfold Phase.wrapUp
  simp only
  rw [left]
  cases stale : r.boxes.any fun box => !r.live box with
  | true => exact Or.inl ⟨_, _, rfl, prunes⟩
  | false =>
    have live : ∀ box ∈ r.boxes, r.live box = true := fun box there => by
      have alive := List.any_eq_false.mp stale box there
      exact Bool.not_eq_false _ ▸ fun dead => alive (by rw [dead]; rfl)
    refine Or.inr (Prod.ext rfl ?_)
    rw [Registry.tell_of_roomy roomy, Registry.unlinkDead_of_live fun box there => ?_]
    · rfl
    · rw [Registry.boxes_give] at there
      rw [Registry.live_give]
      exact live box there

/-- It goes on, or everybody has been told and every live listener is counted. -/
theorem step (uninterrupted : Uninterrupted task event r phase now) (roomy : r.Roomy)
    (unshut : r.shutdown = false) (idle : r.lock = {}) (once : r.boxes.Nodup) :
    (∃ next after, phase.step task now = (.inl next, after) ∧
      Uninterrupted task event r next after) ∨
    phase.step task now = (.inr (.delivered (r.boxes.countP r.live)), r.tell event) := by
  cases uninterrupted with
  | begins => exact Or.inl ⟨_, _, rfl, waits⟩
  | waits => exact Or.inl ⟨_, _, rfl, offers [] r.boxes rfl⟩
  | offers done rest all =>
    cases rest with
    | nil =>
      rw [List.append_nil] at all
      rw [← all]
      exact wrapUp roomy idle
    | cons box rest => exact Or.inl (serve roomy unshut once all)
  | prunes =>
    refine Or.inr (Prod.ext rfl ?_)
    rw [Registry.tell_of_roomy roomy]
    have left := Registry.releases_asks
      (r := (r.give event (r.boxes.filter r.live)).unlinkDead)
      ((Registry.lock_give r event _).trans idle) task .exclusive
    exact left

end Uninterrupted

end Operation.Phase

end HardwareSigner
