import HardwareSigner.Failure
import HardwareSigner.Listener.Mailbox

/-!
# The registered listeners

A registry links listener ids to mailboxes, in the order of registration. Mailboxes are numbered and
their numbers are never used again, so that a mailbox can still be emptied when its listener is long
gone. A listener is *live* until it has been removed or its receiver has been dropped; dead ones
stay linked until somebody who has the registry for himself unlinks them.

To remove a listener nobody has to wait: next to the entries, which only the holder of the lock may
look at, the registry keeps for each id the mailbox that is to be cancelled.

> `Registry.mailbox?_update_of_ne`: what is done to one mailbox leaves all others alone.
-/

namespace HardwareSigner

/-- The number of a mailbox. -/
abbrev MailboxId := Nat

structure Registry (M : Type) where
  /-- How many events a mailbox holds. -/
  capacity : Nat
  mailboxes : List (Mailbox M) := []
  /-- The linked listeners, in order of registration. -/
  entries : List (ListenerId × MailboxId) := []
  /-- For each id the mailbox that removing it cancels. -/
  tokens : List (ListenerId × MailboxId) := []
  /-- Shared by those who go through the entries, held alone by those who change them. -/
  lock : Lock := {}
  /-- Nobody is to be served any more. -/
  shutdown : Bool := false

namespace Registry

variable {M : Type}

/-- A registry without listeners. A mailbox holds at least one event. -/
def empty (capacity : Nat) : Registry M := { capacity := max capacity 1 }

def mailbox? (r : Registry M) (box : MailboxId) : Option (Mailbox M) := r.mailboxes[box]?

/-- Changes one mailbox. -/
def update (r : Registry M) (box : MailboxId) (change : Mailbox M → Mailbox M) : Registry M :=
  { r with mailboxes := r.mailboxes.modify box change }

/-- Whether the listener behind a mailbox is still to be served. -/
def live (r : Registry M) (box : MailboxId) : Bool := ((r.mailbox? box).map Mailbox.live).getD false

/-- Whether a mailbox has a place that nobody is waiting for. -/
def hasRoom (r : Registry M) (box : MailboxId) : Bool :=
  ((r.mailbox? box).map (·.hasRoom r.capacity)).getD false

/-- Whether an id is linked to a live listener. -/
def contains (r : Registry M) (id : ListenerId) : Bool :=
  r.entries.any fun entry => entry.1 == id && r.live entry.2

/-- How many live listeners are linked. -/
def count (r : Registry M) : Nat := r.entries.countP fun entry => r.live entry.2

/-- Whether nobody can put anything into a mailbox any more. -/
def closed (r : Registry M) (box : MailboxId) : Bool := !r.entries.any fun entry => entry.2 == box

def asks (r : Registry M) (task : TaskId) (mode : LockMode) : Registry M :=
  { r with lock := r.lock.request task mode }

def releases (r : Registry M) (task : TaskId) : Registry M :=
  { r with lock := r.lock.release task }

/-- Unlinks the dead listeners and forgets their tokens. -/
def unlinkDead (r : Registry M) : Registry M :=
  let dead := r.entries.filter fun entry => !r.live entry.2
  { r with
    entries := r.entries.filter fun entry => r.live entry.2
    tokens := r.tokens.filter fun token => !dead.any fun entry => entry.1 == token.1 }

/-- Links a new mailbox to an id that no live listener has. -/
def link (r : Registry M) (id : ListenerId) : Except Failure MailboxId × Registry M :=
  let r := r.unlinkDead
  if r.entries.any fun entry => entry.1 == id then (.error (.duplicateListener id), r)
  else
    let box := r.mailboxes.length
    (.ok box, { r with
      mailboxes := r.mailboxes ++ [{}]
      entries := r.entries ++ [(id, box)]
      tokens := r.tokens.filter (fun token => token.1 != id) ++ [(id, box)] })

/-- The mailbox that removing an id is to cancel, if that has not been done. -/
def removable? (r : Registry M) (id : ListenerId) : Option MailboxId :=
  match r.tokens.lookup id with
  | none => none
  | some box => if ((r.mailbox? box).map Mailbox.cancelled).getD true then none else some box

/-- From now on the listener behind a mailbox is not served. -/
def cancel (r : Registry M) (box : MailboxId) : Registry M := r.update box Mailbox.cancel

/-- No listener is served any more. -/
def cancelAll (r : Registry M) : Registry M :=
  r.tokens.foldl (fun r token => r.cancel token.2) r

/-- Unlinks everybody. -/
def unlinkAll (r : Registry M) : Registry M := { r with entries := [], tokens := [] }

/-- Puts an event into the mailbox of every live listener that has a place for it. Gives the number
of those. -/
def offerAll (r : Registry M) (event : Event M) : Nat × Registry M :=
  let served := (r.entries.map Prod.snd).filter fun box => r.live box && r.hasRoom box
  (served.length, served.foldl (fun r box => r.update box (·.accept event)) r)

/-- Whether somebody dead is still linked. -/
def hasDead (r : Registry M) : Bool := r.entries.any fun entry => !r.live entry.2

/-! ## What receivers do -/

/-- The next event of a mailbox, if there is one. -/
def receive? (r : Registry M) (box : MailboxId) : Option (Event M × Registry M) :=
  match (r.mailbox? box).bind Mailbox.take? with
  | none => none
  | some (event, rest) => some (event, r.update box fun _ => rest)

/-- All the events of a mailbox. -/
def drain (r : Registry M) (box : MailboxId) : List (Event M) × Registry M :=
  (((r.mailbox? box).map Mailbox.queued).getD [], r.update box Mailbox.drained)

/-- Drops the receiver of a mailbox. -/
def drop (r : Registry M) (box : MailboxId) : Registry M := r.update box Mailbox.drop

/-- How many events wait in a mailbox. -/
def pending (r : Registry M) (box : MailboxId) : Nat := ((r.mailbox? box).map Mailbox.size).getD 0

/-! ## What a change of one mailbox leaves alone -/

@[simp] theorem mailbox?_update_self (r : Registry M) (box : MailboxId)
    (change : Mailbox M → Mailbox M) :
    (r.update box change).mailbox? box = (r.mailbox? box).map change := by
  simp [mailbox?, update]

theorem mailbox?_update_of_ne (r : Registry M) {box other : MailboxId} (different : other ≠ box)
    (change : Mailbox M → Mailbox M) : (r.update box change).mailbox? other = r.mailbox? other := by
  simp [mailbox?, update, different.symm]

/-- A change that neither cancels nor drops a mailbox leaves all listeners as live as they were. -/
theorem live_update (r : Registry M) (box other : MailboxId) {change : Mailbox M → Mailbox M}
    (same : ∀ b, (change b).live = b.live) : (r.update box change).live other = r.live other := by
  by_cases h : other = box
  · subst h
    cases hb : r.mailbox? other <;> simp [live, hb, same]
  · simp [live, mailbox?_update_of_ne r h]

end Registry

end HardwareSigner
