import HardwareSigner.Listener.Registry
import HardwareSigner.Task.World

/-!
# Working on a registry

Each operation on a registry is a task that may have to wait: for the lock, and in the middle of a
dispatch for a place in a full mailbox. A dispatch shares the lock from its first listener to its
last and serves them in order of registration; if on its way it met dead listeners, it asks for the
lock once more, alone this time, and unlinks them. Removing a listener cancels it at once and then
waits for the lock to unlink it.

`Operation.Phase.step` is one step of such a task. `Registry.machine` makes a system of it in which
receivers and the shutdown signal act from outside.
-/

namespace HardwareSigner

/-- What can be asked of a registry. -/
inductive Operation (M : Type)
  | add (id : ListenerId)
  | remove (id : ListenerId)
  | contains (id : ListenerId)
  | count
  /-- Serves every live listener, waiting for places. -/
  | dispatch (event : Event M)
  /-- Serves every live listener that has a place. -/
  | tryDispatch (event : Event M)
  | clear

namespace Operation

/-- What comes of an operation. -/
inductive Answer
  | added (outcome : Except Failure MailboxId)
  | removed (outcome : Except Failure Unit)
  | contained (found : Bool)
  | counted (count : Nat)
  /-- How many listeners were served. -/
  | delivered (count : Nat)
  | cleared

/-- How far an operation has got. -/
inductive Phase (M : Type)
  | begin (operation : Operation M)
  /-- Waits for the lock to link a listener. -/
  | adding (id : ListenerId)
  /-- The listener is cancelled; waits for the lock to unlink it. -/
  | removing
  | asking (id : ListenerId)
  | counting
  /-- Waits to share the lock. -/
  | dispatching (event : Event M)
  /-- Has `rest` still to serve and has served `delivered` listeners; `stale` if it met a dead
  one. -/
  | offering (event : Event M) (rest : List MailboxId) (delivered : Nat) (stale : Bool)
  /-- Waits for a place in `box`. -/
  | parked (event : Event M) (box : MailboxId) (rest : List MailboxId) (delivered : Nat)
      (stale : Bool)
  | trying (event : Event M)
  /-- Has served all it could; waits for the lock to unlink the dead. -/
  | pruning (delivered : Nat)
  /-- Everybody is cancelled; waits for the lock to unlink them. -/
  | clearing

namespace Phase

variable {M : Type}

/-- Whether there is something to do for a task that waits for a place: the place is there, or it
need not wait any longer. -/
def roused (r : Registry M) (task : TaskId) (box : MailboxId) : Bool :=
  r.shutdown || !r.live box ||
    ((r.mailbox? box).map (·.admits r.capacity task)).getD false

def ready (task : TaskId) (phase : Phase M) (r : Registry M) : Bool :=
  match phase with
  | .begin _ => true
  | .offering .. => true
  | .parked _ box _ _ _ => roused r task box
  | .adding _ | .removing | .asking _ | .counting | .dispatching _ | .trying _ | .pruning _
  | .clearing => r.lock.granted task

/-- The first step: most operations ask for the lock. Removing and clearing cancel first. -/
def start (task : TaskId) (operation : Operation M) (r : Registry M) :
    (Phase M ⊕ Answer) × Registry M :=
  match operation with
  | .add id => (.inl (.adding id), r.asks task .exclusive)
  | .remove id =>
    match r.removable? id with
    | none => (.inr (.removed (.error (.unknownListener id))), r)
    | some box => (.inl .removing, (r.cancel box).asks task .exclusive)
  | .contains id => (.inl (.asking id), r.asks task .shared)
  | .count => (.inl .counting, r.asks task .shared)
  | .dispatch event => (.inl (.dispatching event), r.asks task .shared)
  | .tryDispatch event => (.inl (.trying event), r.asks task .shared)
  | .clear => (.inl .clearing, r.cancelAll.asks task .exclusive)

/-- All listeners have been seen to: releases the lock, and goes on to unlink dead ones. -/
def wrapUp (task : TaskId) (delivered : Nat) (stale : Bool) (r : Registry M) :
    (Phase M ⊕ Answer) × Registry M :=
  let r := r.releases task
  if stale then (.inl (.pruning delivered), r.asks task .exclusive)
  else (.inr (.delivered delivered), r)

/-- Serves the next listener. A shutdown ends the dispatch there and then. -/
def serve (task : TaskId) (event : Event M) (box : MailboxId) (rest : List MailboxId)
    (delivered : Nat) (stale : Bool) (r : Registry M) : (Phase M ⊕ Answer) × Registry M :=
  if !r.live box then (.inl (.offering event rest delivered true), r)
  else if r.shutdown then (.inr (.delivered delivered), r.releases task)
  else if r.hasRoom box then
    (.inl (.offering event rest (delivered + 1) stale), r.update box (·.accept event))
  else (.inl (.parked event box rest delivered stale), r.update box (·.await task))

/-- Goes on after waiting for a place. -/
def resume (task : TaskId) (event : Event M) (box : MailboxId) (rest : List MailboxId)
    (delivered : Nat) (stale : Bool) (r : Registry M) : (Phase M ⊕ Answer) × Registry M :=
  let left := r.update box (·.leave task)
  if r.shutdown then (.inr (.delivered delivered), left.releases task)
  else if !r.live box then (.inl (.offering event rest delivered true), left)
  else (.inl (.offering event rest (delivered + 1) stale), left.update box (·.accept event))

/-- One step of a task that is ready. -/
def step (task : TaskId) (phase : Phase M) (r : Registry M) :
    (Phase M ⊕ Answer) × Registry M :=
  match phase with
  | .begin operation => start task operation r
  | .adding id =>
    let (outcome, r) := r.link id
    (.inr (.added outcome), r.releases task)
  | .removing => (.inr (.removed (.ok ())), r.unlinkDead.releases task)
  | .asking id => (.inr (.contained (r.contains id)), r.releases task)
  | .counting => (.inr (.counted r.count), r.releases task)
  | .dispatching event => (.inl (.offering event (r.entries.map Prod.snd) 0 false), r)
  | .offering _ [] delivered stale => wrapUp task delivered stale r
  | .offering event (box :: rest) delivered stale => serve task event box rest delivered stale r
  | .parked event box rest delivered stale => resume task event box rest delivered stale r
  | .trying event =>
    let (delivered, r) := r.offerAll event
    wrapUp task delivered r.hasDead r
  | .pruning delivered => (.inr (.delivered delivered), r.unlinkDead.releases task)
  | .clearing => (.inr .cleared, r.unlinkAll.releases task)

/-- A task that is given up leaves the lock and the mailbox it waits for. What it has cancelled
stays cancelled. -/
def release (task : TaskId) (phase : Phase M) (r : Registry M) : Registry M :=
  let left := match phase with
    | .parked _ box _ _ _ => r.update box (·.leave task)
    | _ => r
  left.releases task

end Phase

end Operation

namespace Registry

variable {M : Type}

/-- What happens to a registry from outside its operations. -/
inductive Act
  /-- A receiver takes the next event. -/
  | take (box : MailboxId)
  | drain (box : MailboxId)
  /-- A receiver is dropped. -/
  | drop (box : MailboxId)
  | shutdown
  deriving DecidableEq, Repr

def act (r : Registry M) : Act → Registry M
  | .take box => ((r.receive? box).map Prod.snd).getD r
  | .drain box => (r.drain box).2
  | .drop box => r.drop box
  | .shutdown => { r with shutdown := true }

/-- Operations as tasks on a registry. -/
def machine : Machine Act (Registry M) (Operation.Phase M) Operation.Answer where
  ready task _ phase r := phase.ready task r
  step task _ phase r :=
    let (next, after) := phase.step task r
    { next := next, state := after }
  wakeAt? _ := none
  release := Operation.Phase.release
  outside act r := r.act act

end Registry

end HardwareSigner
