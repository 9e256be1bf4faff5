import HardwareSigner.Task.World

/-!
# Rehearsals

A rehearsal is one particular run of a machine: all tasks take turns in one order that the rules
below fix, and time passes only when nobody can do anything.

* A task whose turn it is goes on until it has to wait or has finished.
* Tasks that become ready line up, those that have waited longest first.
* One task at a time is in front of the stage. When it has to wait, all others that are ready take
  their turns before it may go on. When time has passed, it is the first to go on.
* If the task in front cannot finish within `Rehearsal.limit` milliseconds it is given up.

Everything that happens is an action of the world, so whatever holds of all runs holds of
rehearsals:

> `Rehearsal.reaches_play`, `Rehearsal.reaches_settle`, `Rehearsal.reaches_pass`: some run leads
> from the world before to the world after.
-/

namespace HardwareSigner

/-- A world, and the order in which the tasks behind the stage wait and take their turns. -/
structure Rehearsal (σ π ρ : Type) where
  world : World σ π ρ
  /-- Tasks that have to wait, the one that has waited longest first. -/
  waiting : List TaskId := []
  /-- Tasks that are ready. It is the first one's turn. -/
  line : List TaskId := []

namespace Rehearsal

variable {α σ π ρ : Type}

/-- How long the task in front may take, in milliseconds. -/
def limit : Nat := 60000

/-- A bound on the number of actions of one scene. -/
def patience : Nat := 1000000

def ofState (state : σ) : Rehearsal σ π ρ := { world := .ofState state }

def state (r : Rehearsal σ π ρ) : σ := r.world.state

/-- Those who wait and have become ready join the line. -/
def rouse (m : Machine α σ π ρ) (r : Rehearsal σ π ρ) : Rehearsal σ π ρ :=
  { r with
    waiting := r.waiting.filter fun task => !r.world.ready m task
    line := r.line ++ r.waiting.filter fun task => r.world.ready m task }

/-- A step of one task. Whoever it starts joins the line, after those whom it makes ready. -/
def act (m : Machine α σ π ρ) (task : TaskId) (r : Rehearsal σ π ρ) : Rehearsal σ π ρ :=
  let world := r.world.apply m (.run task)
  let roused := { r with world := world }.rouse m
  { roused with
    line := roused.line ++ (List.range' r.world.next (world.next - r.world.next)) }

/-- One step of the task whose turn it is; if it cannot go on, it is the next one's turn. -/
def turn (m : Machine α σ π ρ) (r : Rehearsal σ π ρ) : Rehearsal σ π ρ :=
  match r.line with
  | [] => r
  | task :: rest =>
    if r.world.ready m task then r.act m task
    else if (r.world.phase? task).isSome then
      { r with line := rest, waiting := r.waiting ++ [task] }
    else { r with line := rest }

/-- Everybody goes on until all have to wait. -/
def settleWithin (m : Machine α σ π ρ) : Nat → Rehearsal σ π ρ → Rehearsal σ π ρ
  | 0, r => r
  | n + 1, r => if r.line.isEmpty then r else settleWithin m n (r.turn m)

def settle (m : Machine α σ π ρ) (r : Rehearsal σ π ρ) : Rehearsal σ π ρ :=
  settleWithin m patience r

/-- The next time at which somebody will be ready, if that is before `latest`. -/
def nextTime (m : Machine α σ π ρ) (latest : Nat) (r : Rehearsal σ π ρ) : Nat :=
  r.world.tasks.foldl (fun soonest entry =>
    match m.wakeAt? entry.2 with
    | none => soonest
    | some time => min soonest time) latest

/-- Lets time pass until `time`. -/
def passUntil (m : Machine α σ π ρ) (time : Nat) (r : Rehearsal σ π ρ) : Rehearsal σ π ρ :=
  { r with world := r.world.apply m (.wait (time - r.world.clock)) }.rouse m

/-- Plays until the task in front has finished or has to be given up. It is its turn if `front`. -/
def playWithin (m : Machine α σ π ρ) (task : TaskId) (latest : Nat) :
    Nat → Bool → Rehearsal σ π ρ → Rehearsal σ π ρ
  | 0, _, r => r
  | n + 1, front, r =>
    if (r.world.phase? task).isNone then r
    else if front && r.world.ready m task then playWithin m task latest n true (r.act m task)
    else if !r.line.isEmpty then playWithin m task latest n false (r.turn m)
    else if r.world.ready m task then playWithin m task latest n true r
    else if latest ≤ r.world.clock then r
    else playWithin m task latest n true (r.passUntil m (r.nextTime m latest))

/-- Plays a task in front of the stage: gives its result, unless it had to be given up. -/
def play (m : Machine α σ π ρ) (phase : π) (r : Rehearsal σ π ρ) : Option ρ × Rehearsal σ π ρ :=
  let task := r.world.next
  let started := { r with world := r.world.apply m (.start phase) }
  let played := playWithin m task (r.world.clock + limit) patience true started
  match played.world.result? task with
  | some result => (some result, played)
  | none => (none, { played with world := played.world.apply m (.abandon task) }.rouse m)

/-- Starts a task behind the stage. -/
def spawn (m : Machine α σ π ρ) (phase : π) (r : Rehearsal σ π ρ) : TaskId × Rehearsal σ π ρ :=
  (r.world.next,
    { r with world := r.world.apply m (.start phase), line := r.line ++ [r.world.next] })

/-- Gives a task up. -/
def abandon (m : Machine α σ π ρ) (task : TaskId) (r : Rehearsal σ π ρ) : Rehearsal σ π ρ :=
  { r with world := r.world.apply m (.abandon task) }.rouse m

/-- Does something from outside. -/
def outside (m : Machine α σ π ρ) (act : α) (r : Rehearsal σ π ρ) : Rehearsal σ π ρ :=
  { r with world := r.world.apply m (.outside act) }.rouse m

/-- Lets time pass with everybody taking their turns. -/
def passWithin (m : Machine α σ π ρ) (time : Nat) : Nat → Rehearsal σ π ρ → Rehearsal σ π ρ
  | 0, r => r
  | n + 1, r =>
    let r := r.settle m
    if time ≤ r.world.clock then r
    else passWithin m time n (r.passUntil m (r.nextTime m time))

/-- Lets `ms` milliseconds pass. -/
def pass (m : Machine α σ π ρ) (ms : Nat) (r : Rehearsal σ π ρ) : Rehearsal σ π ρ :=
  (passWithin m (r.world.clock + ms) patience r).settle m

/-! ## Rehearsals are runs -/

variable (m : Machine α σ π ρ)

theorem reaches_act (task : TaskId) (r : Rehearsal σ π ρ) :
    r.world.Reaches m (r.act m task).world :=
  .apply r.world (.run task)

theorem reaches_turn (r : Rehearsal σ π ρ) : r.world.Reaches m (r.turn m).world := by
  unfold turn
  split
  · exact .refl _
  · next task _ _ =>
    split
    · exact reaches_act m task r
    · split <;> exact .refl _

theorem reaches_settleWithin (n : Nat) (r : Rehearsal σ π ρ) :
    r.world.Reaches m (settleWithin m n r).world := by
  induction n generalizing r with
  | zero => exact .refl _
  | succ n ih =>
    unfold settleWithin
    split
    · exact .refl _
    · exact (reaches_turn m r).trans (ih (r.turn m))

theorem reaches_settle (r : Rehearsal σ π ρ) : r.world.Reaches m (r.settle m).world :=
  reaches_settleWithin m patience r

theorem reaches_passUntil (time : Nat) (r : Rehearsal σ π ρ) :
    r.world.Reaches m (r.passUntil m time).world :=
  .apply r.world (.wait (time - r.world.clock))

theorem reaches_playWithin (task : TaskId) (latest n : Nat) (front : Bool) (r : Rehearsal σ π ρ) :
    r.world.Reaches m (playWithin m task latest n front r).world := by
  induction n generalizing front r with
  | zero => exact .refl _
  | succ n ih =>
    unfold playWithin
    split
    · exact .refl _
    · split
      · exact (reaches_act m task r).trans (ih true (r.act m task))
      · split
        · exact (reaches_turn m r).trans (ih false (r.turn m))
        · split
          · exact ih true r
          · split
            · exact .refl _
            · exact (reaches_passUntil m _ r).trans (ih true _)

theorem reaches_play (phase : π) (r : Rehearsal σ π ρ) :
    r.world.Reaches m (r.play m phase).2.world := by
  let started := { r with world := r.world.apply m (.start phase) }
  have played := (World.Reaches.apply r.world (.start phase)).trans
    (reaches_playWithin m r.world.next (r.world.clock + limit) patience true started)
  simp only [play]
  split
  · exact played
  · exact played.trans (.apply _ (.abandon r.world.next))

theorem reaches_spawn (phase : π) (r : Rehearsal σ π ρ) :
    r.world.Reaches m (r.spawn m phase).2.world :=
  .apply r.world (.start phase)

theorem reaches_abandon (task : TaskId) (r : Rehearsal σ π ρ) :
    r.world.Reaches m (r.abandon m task).world :=
  .apply r.world (.abandon task)

theorem reaches_outside (act : α) (r : Rehearsal σ π ρ) :
    r.world.Reaches m (r.outside m act).world :=
  .apply r.world (.outside act)

theorem reaches_passWithin (time n : Nat) (r : Rehearsal σ π ρ) :
    r.world.Reaches m (passWithin m time n r).world := by
  induction n generalizing r with
  | zero => exact .refl _
  | succ n ih =>
    simp only [passWithin]
    split
    · exact reaches_settle m r
    · exact ((reaches_settle m r).trans (reaches_passUntil m _ _)).trans (ih _)

theorem reaches_pass (ms : Nat) (r : Rehearsal σ π ρ) :
    r.world.Reaches m (r.pass m ms).world :=
  (reaches_passWithin m (r.world.clock + ms) patience r).trans (reaches_settle m _)

end Rehearsal

end HardwareSigner
