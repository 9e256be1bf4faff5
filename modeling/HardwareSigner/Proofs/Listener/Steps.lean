import HardwareSigner.Proofs.Listener.Changes

/-!
# What a step of an operation can be

`Operation.Phase.Steps` lists the steps of all operations on a registry, each with what comes next
and with what it makes of the registry. A dispatch that serves its next listener does so the first
time that it comes to it or after having waited for a place (`Operation.Phase.Faces`), and ends in
one of two ways (`Operation.Phase.WrapsUp`).

> `Operation.Phase.steps`: no operation takes any other step.
-/

namespace HardwareSigner

namespace Operation

variable {M : Type}

/-- The operations that begin by asking for the lock, and what they wait for then. -/
inductive Asks : Operation M → LockMode → Phase M → Prop
  | add (id : ListenerId) : Asks (.add id) .exclusive (.adding id)
  | contains (id : ListenerId) : Asks (.contains id) .shared (.asking id)
  | count : Asks .count .shared .counting
  | dispatch (event : Event M) : Asks (.dispatch event) .shared (.dispatching event)
  | tryDispatch (event : Event M) : Asks (.tryDispatch event) .shared (.trying event)

namespace Phase

/-- How a dispatch ends that has seen to all listeners. -/
inductive WrapsUp (task : TaskId) (delivered : Nat) (r : Registry M) :
    Bool → Phase M ⊕ Answer → Registry M → Prop
  | ends : WrapsUp task delivered r false (.inr (.delivered delivered)) (r.releases task)
  | prunes : WrapsUp task delivered r true (.inl (.pruning delivered))
      ((r.releases task).asks task .exclusive)

theorem wrapsUp (task : TaskId) (delivered : Nat) (stale : Bool) (r : Registry M) :
    WrapsUp task delivered r stale (wrapUp task delivered stale r).1
      (wrapUp task delivered stale r).2 := by
  cases stale with
  | false => exact .ends
  | true => exact .prunes

/-- A dispatch is about to see to its next listener. If it has waited for a place, it waits no
longer. -/
inductive Faces (task : TaskId) (event : Event M) (next : MailboxId) (rest : List MailboxId)
    (delivered : Nat) (stale : Bool) (r : Registry M) : Phase M → Registry M → Prop
  | comes : Faces task event next rest delivered stale r
      (.offering event (next :: rest) delivered stale) r
  | waited : Faces task event next rest delivered stale r
      (.parked event next rest delivered stale) (r.update next (·.leave task))

/-- The steps that operations take on a registry. -/
inductive Steps (task : TaskId) (r : Registry M) :
    Phase M → Phase M ⊕ Answer → Registry M → Prop
  | asks {operation : Operation M} {mode : LockMode} {next : Phase M}
      (asks : operation.Asks mode next) :
      Steps task r (.begin operation) (.inl next) (r.asks task mode)
  | misses {id : ListenerId} (unknown : r.removable? id = none) :
      Steps task r (.begin (.remove id)) (.inr (.removed (.error (.unknownListener id)))) r
  | cancels {id : ListenerId} {box : MailboxId} (there : r.removable? id = some box) :
      Steps task r (.begin (.remove id)) (.inl .removing) ((r.cancel box).asks task .exclusive)
  | cancelsAll : Steps task r (.begin .clear) (.inl .clearing) (r.cancelAll.asks task .exclusive)
  | links (id : ListenerId) :
      Steps task r (.adding id) (.inr (.added (r.link id).1)) ((r.link id).2.releases task)
  | removes : Steps task r .removing (.inr (.removed (.ok ()))) (r.unlinkDead.releases task)
  | finds (id : ListenerId) :
      Steps task r (.asking id) (.inr (.contained (r.contains id))) (r.releases task)
  | counts : Steps task r .counting (.inr (.counted r.count)) (r.releases task)
  | takes (event : Event M) :
      Steps task r (.dispatching event) (.inl (.offering event r.boxes 0 false)) r
  | wrapsUp {event : Event M} {delivered : Nat} {stale : Bool} {next : Phase M ⊕ Answer}
      {after : Registry M} (wraps : WrapsUp task delivered r stale next after) :
      Steps task r (.offering event [] delivered stale) next after
  /-- A dead listener is passed over. -/
  | passes {event : Event M} {next : MailboxId} {rest : List MailboxId} {delivered : Nat}
      {stale : Bool} {phase : Phase M} {left : Registry M}
      (faces : Faces task event next rest delivered stale r phase left)
      (dead : r.live next = false) :
      Steps task r phase (.inl (.offering event rest delivered true)) left
  /-- A shutdown ends a dispatch there and then. -/
  | quits {event : Event M} {next : MailboxId} {rest : List MailboxId} {delivered : Nat}
      {stale : Bool} {phase : Phase M} {left : Registry M}
      (faces : Faces task event next rest delivered stale r phase left)
      (shut : r.shutdown = true) :
      Steps task r phase (.inr (.delivered delivered)) (left.releases task)
  /-- Whoever comes for the first time needs a place that nobody is waiting for; whoever has waited
  has been given his. -/
  | gives {event : Event M} {next : MailboxId} {rest : List MailboxId} {delivered : Nat}
      {stale : Bool} {phase : Phase M} {left : Registry M}
      (faces : Faces task event next rest delivered stale r phase left)
      (live : r.live next = true) (unshut : r.shutdown = false)
      (room : phase = .offering event (next :: rest) delivered stale → r.hasRoom next = true) :
      Steps task r phase (.inl (.offering event rest (delivered + 1) stale))
        (left.update next (·.accept event))
  | parks {event : Event M} {next : MailboxId} {rest : List MailboxId} {delivered : Nat}
      {stale : Bool} (live : r.live next = true) (unshut : r.shutdown = false)
      (full : r.hasRoom next = false) :
      Steps task r (.offering event (next :: rest) delivered stale)
        (.inl (.parked event next rest delivered stale)) (r.update next (·.await task))
  /-- Offers the event to everybody at once. -/
  | tries {event : Event M} {next : Phase M ⊕ Answer} {after : Registry M}
      (wraps : WrapsUp task (r.offerAll event).1 (r.offerAll event).2
        (r.offerAll event).2.hasDead next after) :
      Steps task r (.trying event) next after
  | prunes (delivered : Nat) :
      Steps task r (.pruning delivered) (.inr (.delivered delivered)) (r.unlinkDead.releases task)
  | clears : Steps task r .clearing (.inr .cleared) (r.unlinkAll.releases task)

variable (task : TaskId) (r : Registry M)

theorem steps_start (operation : Operation M) :
    Steps task r (.begin operation) (start task operation r).1 (start task operation r).2 := by
  cases operation with
  | add id => exact .asks (.add id)
  | remove id =>
    simp only [start]
    split
    next unknown => exact .misses unknown
    next box there => exact .cancels there
  | contains id => exact .asks (.contains id)
  | count => exact .asks .count
  | dispatch event => exact .asks (.dispatch event)
  | tryDispatch event => exact .asks (.tryDispatch event)
  | clear => exact .cancelsAll

section

variable (event : Event M) (next : MailboxId) (rest : List MailboxId) (delivered : Nat)
  (stale : Bool)

theorem steps_serve :
    Steps task r (.offering event (next :: rest) delivered stale)
      (serve task event next rest delivered stale r).1
      (serve task event next rest delivered stale r).2 := by
  unfold serve
  split
  next dead =>
    rw [Bool.not_eq_true'] at dead
    exact .passes .comes dead
  next alive =>
    have live : r.live next = true := by simpa using alive
    split
    next shut => exact .quits .comes shut
    next unshut =>
      rw [Bool.not_eq_true] at unshut
      split
      next room => exact .gives .comes live unshut fun _ => room
      next full => exact .parks live unshut (Bool.not_eq_true _ ▸ full)

theorem steps_resume :
    Steps task r (.parked event next rest delivered stale)
      (resume task event next rest delivered stale r).1
      (resume task event next rest delivered stale r).2 := by
  unfold resume
  simp only
  split
  next shut => exact .quits .waited shut
  next unshut =>
    rw [Bool.not_eq_true] at unshut
    split
    next dead =>
      rw [Bool.not_eq_true'] at dead
      exact .passes .waited dead
    next alive =>
      have live : r.live next = true := by simpa using alive
      exact .gives .waited live unshut fun same => nomatch same

end

theorem steps (phase : Phase M) :
    Steps task r phase (phase.step task r).1 (phase.step task r).2 := by
  cases phase with
  | begin operation => exact steps_start task r operation
  | adding id => exact .links id
  | removing => exact .removes
  | asking id => exact .finds id
  | counting => exact .counts
  | dispatching event => exact .takes event
  | offering event rest delivered stale =>
    cases rest with
    | nil => exact .wrapsUp (wrapsUp task delivered stale r)
    | cons next rest => exact steps_serve task r event next rest delivered stale
  | parked event next rest delivered stale =>
    exact steps_resume task r event next rest delivered stale
  | trying event => exact .tries (wrapsUp task _ _ _)
  | pruning delivered => exact .prunes delivered
  | clearing => exact .clears

/-! ## The signal to shut down -/

section

variable {M : Type} {r : Registry M}

theorem shutdown_cancelAll (r : Registry M) : r.cancelAll.shutdown = r.shutdown :=
  List.foldlRecOn (motive := fun (after : Registry M) => after.shutdown = r.shutdown) r.tokens _ rfl
    fun _ same _ _ => same

theorem shutdown_offerAll (event : Event M) (r : Registry M) :
    (r.offerAll event).2.shutdown = r.shutdown :=
  List.foldlRecOn (motive := fun (after : Registry M) => after.shutdown = r.shutdown) _ _ rfl
    fun _ same _ _ => same

theorem shutdown_link (id : ListenerId) (r : Registry M) : (r.link id).2.shutdown = r.shutdown := by
  unfold Registry.link
  simp only
  split <;> rfl

theorem WrapsUp.shutdown {task : TaskId} {delivered : Nat} {stale : Bool} {next : Phase M ⊕ Answer}
    {after : Registry M} (wraps : WrapsUp task delivered r stale next after) :
    after.shutdown = r.shutdown := by
  cases wraps <;> rfl

theorem Faces.shutdown {task : TaskId} {event : Event M} {box : MailboxId} {rest : List MailboxId}
    {delivered : Nat} {stale : Bool} {phase : Phase M} {left : Registry M}
    (faces : Faces task event box rest delivered stale r phase left) :
    left.shutdown = r.shutdown := by
  cases faces <;> rfl

/-- Operations leave the signal to shut down alone. -/
theorem Steps.shutdown {task : TaskId} {phase : Phase M} {next : Phase M ⊕ Answer}
    {after : Registry M} (steps : Steps task r phase next after) :
    after.shutdown = r.shutdown := by
  cases steps with
  | cancelsAll => exact shutdown_cancelAll r
  | links id => exact shutdown_link id r
  | wrapsUp wraps => exact wraps.shutdown
  | passes meets => exact meets.shutdown
  | quits meets shut =>
    have same := meets.shutdown
    exact same
  | gives meets =>
    have same := meets.shutdown
    exact same
  | tries wraps => exact wraps.shutdown.trans (shutdown_offerAll _ r)
  | _ => rfl

end

end Phase

end Operation

end HardwareSigner
