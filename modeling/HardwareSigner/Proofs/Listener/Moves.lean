import HardwareSigner.Proofs.Listener.Delivery

/-!
# How those who work on a registry come and go

Whoever uses a registry begins operations on it and takes their steps, may begin another when one
has finished, and may give one up. `Registry.Moves` lists these moves, together with the dispatches
that take the lock in them and the events that are offered without waiting.

> `Registry.Moves.served`: what has been said of a mailbox remains true whatever move is made, if a
> dispatch that is given up is the last.
> `Registry.Moves.accepted`: what a mailbox is given in a move is what it was owed, or what is
> offered to everybody.
-/

namespace HardwareSigner

namespace Registry

open Operation (Phase)
open Operation.Phase (Owing)

variable {M : Type}

/-- A move. After it dispatches can go on as far as `going'` says. -/
inductive Moves (going' : Prop) (work : Work (Phase M)) (r : Registry M) :
    List (TaskId × Event M) → List (Event M) → Work (Phase M) → Registry M → Prop
  | same : Moves going' work r [] [] work r
  | begins (task : TaskId) (operation : Operation M) (fresh : work task = none) :
      Moves going' work r [] [] (Work.set work task (some (.begin operation))) r
  | steps (task : TaskId) (phase : Phase M) (there : work task = some phase) :
      Moves going' work r (phase.takes.map fun event => (task, event)) phase.tries
        (Work.set work task (phase.step task r).1.getLeft?) (phase.step task r).2
  | follows (task : TaskId) (phase : Phase M) (there : work task = some phase)
      (finished : (phase.step task r).1.getLeft? = none) (operation : Operation M) :
      Moves going' work r (phase.takes.map fun event => (task, event)) phase.tries
        (Work.set work task (some (.begin operation))) (phase.step task r).2
  | leaves (task : TaskId) (phase : Phase M) (there : work task = some phase)
      (stops : going' → phase.offers = false) :
      Moves going' work r [] [] (Work.set work task none) (phase.release task r)
  | acts (act : Act) : Moves going' work r [] [] work (r.act act)
  | unlinks (shut : r.shutdown = true) : Moves going' work r [] [] work r.unlinkAll

/-- What tasks owe is owed to mailboxes that there are. -/
structure Bounded (work : Work (Phase M)) (r : Registry M) : Prop where
  ordered : r.Ordered
  owed : ∀ task phase, work task = some phase →
    phase.owed.Sublist (List.range r.mailboxes.length)

theorem Bounded.set {work : Work (Phase M)} {r after : Registry M} (bounded : Bounded work r)
    (ordered : after.Ordered) (length : r.mailboxes.length ≤ after.mailboxes.length)
    (task : TaskId) {next? : Option (Phase M)}
    (owed : ∀ next ∈ next?, next.owed.Sublist (List.range r.mailboxes.length)) :
    Bounded (Work.set work task next?) after where
  ordered := ordered
  owed other phase there := by
    have wider := List.range_sublist.mpr length
    rcases Work.set_cases _ _ _ there with ⟨-, now⟩ | ⟨-, before⟩
    · exact (owed phase now).trans wider
    · exact (bounded.owed other phase before).trans wider

namespace Moves

variable {going going' : Prop} {work work' : Work (Phase M)} {r r' : Registry M}
  {took : List (TaskId × Event M)} {tried : List (Event M)}

theorem bounded (moves : Moves going' work r took tried work' r') (bounded : Bounded work r) :
    Bounded work' r' := by
  cases moves with
  | same => exact bounded
  | begins task operation fresh =>
    refine bounded.set bounded.ordered (Nat.le_refl _) task ?_
    rintro next ⟨⟩
    exact List.nil_sublist _
  | steps task phase there =>
    have keeps := (phase.steps task r).keeps
    refine bounded.set (keeps.ordered bounded.ordered) keeps.length task fun next goesOn => ?_
    exact (Phase.follows_step bounded.ordered (bounded.owed task phase there) goesOn).owed
  | follows task phase there finished operation =>
    have keeps := (phase.steps task r).keeps
    refine bounded.set (keeps.ordered bounded.ordered) keeps.length task ?_
    rintro next ⟨⟩
    exact List.nil_sublist _
  | leaves task phase there stops =>
    have keeps := Phase.keeps_release phase task r
    refine bounded.set (keeps.ordered bounded.ordered) keeps.length task ?_
    rintro next ⟨⟩
  | acts act =>
    refine ⟨ordered_act bounded.ordered act, fun task phase there => ?_⟩
    rw [length_act]
    exact bounded.owed task phase there
  | unlinks shut => exact ⟨List.nil_sublist _, bounded.owed⟩

/-- No move takes a shutdown back. -/
theorem shutdown (moves : Moves going' work r took tried work' r') (shut : r.shutdown = true) :
    r'.shutdown = true := by
  cases moves with
  | same => exact shut
  | begins => exact shut
  | steps task phase there => exact (phase.steps task r).keeps.shutdown.trans shut
  | follows task phase there finished operation =>
    exact (phase.steps task r).keeps.shutdown.trans shut
  | leaves task phase there stops => exact (Phase.keeps_release phase task r).shutdown.trans shut
  | acts act => exact (spares_act r act 0).shutdown shut
  | unlinks => exact shut

theorem length (moves : Moves going' work r took tried work' r') :
    r.mailboxes.length ≤ r'.mailboxes.length := by
  cases moves with
  | same => exact Nat.le_refl _
  | begins => exact Nat.le_refl _
  | steps task phase there => exact (phase.steps task r).keeps.length
  | follows task phase there finished operation => exact (phase.steps task r).keeps.length
  | leaves task phase there stops => exact (Phase.keeps_release phase task r).length
  | acts act => exact Nat.le_of_eq (length_act r act).symm
  | unlinks => exact Nat.le_refl _

/-- Nobody comes to life again. -/
theorem live (moves : Moves going' work r took tried work' r') {box : MailboxId}
    (known : box < r.mailboxes.length) (live : r'.live box = true) : r.live box = true := by
  cases moves with
  | same => exact live
  | begins => exact live
  | steps task phase there => exact (phase.steps task r).keeps.live box known live
  | follows task phase there finished operation =>
    exact (phase.steps task r).keeps.live box known live
  | leaves task phase there stops => exact (Phase.keeps_release phase task r).live box known live
  | acts act => exact (spares_act r act box).live live
  | unlinks => exact live

/-- What has been said of a mailbox remains true. -/
theorem served (moves : Moves going' work r took tried work' r') {box : MailboxId}
    {told : List (TaskId × Event M)} {tail : List (Event M)} (sound : Sound work r)
    (served : Served box told tail going work r)
    (onward : ∀ task phase, work task = some phase → phase.offers = true →
      going ∨ r.shutdown = true)
    (lower : going' → going ∧ r'.shutdown = false) :
    ∃ more, more.Sublist tried ∧ Served box (told ++ took) (tail ++ more) going' work' r' := by
  have kept : Served box told tail going' work' r' →
      Served box (told ++ []) (tail ++ []) going' work' r' := by
    intro served
    rw [List.append_nil, List.append_nil]
    exact served
  cases moves with
  | same => exact ⟨[], List.nil_sublist _, kept (served.lower lower)⟩
  | begins task operation fresh =>
    refine ⟨[], List.nil_sublist _, kept (served.begin (fun event => ?_) operation lower)⟩
    rw [fresh]
    exact Phase.not_owing_none box event
  | steps task phase there =>
    have unshut : going' → going ∧ r.shutdown = false := fun goes =>
      ⟨(lower goes).1, (phase.steps task r).keeps.shutdown.symm.trans (lower goes).2⟩
    exact served.step sound there (onward task phase there) unshut
  | follows task phase there finished operation =>
    have unshut : going' → going ∧ r.shutdown = false := fun goes =>
      ⟨(lower goes).1, (phase.steps task r).keeps.shutdown.symm.trans (lower goes).2⟩
    obtain ⟨more, unasked, stepped⟩ := served.step sound there (onward task phase there) unshut
    rw [finished] at stepped
    -- The task has finished one operation, and owes nothing, when it begins the next.
    have idle : ∀ event, ¬ Owing (Work.set work task none task) box event := by
      intro event
      rw [Work.set_self]
      exact Phase.not_owing_none box event
    have begun := stepped.begin idle operation fun goes => ⟨goes, (lower goes).2⟩
    rw [Work.set_set] at begun
    exact ⟨more, unasked, begun⟩
  | leaves task phase there stops =>
    exact ⟨[], List.nil_sublist _,
      kept (served.leave there (Phase.spares_release phase task r box) lower stops)⟩
  | acts act => exact ⟨[], List.nil_sublist _, kept (served.act act lower)⟩
  | unlinks shut =>
    have spares := spares_unlinkAll shut box
    exact ⟨[], List.nil_sublist _, kept (served.spared spares lower fun _ _ _ _ => Iff.rfl)⟩

/-- A mailbox that has come to be in a move has been given nothing, and nothing has been told. -/
theorem linked (moves : Moves going' work r took tried work' r') (sound : Sound work r)
    {box : MailboxId} (unknown : r.mailboxes.length ≤ box) (known : box < r'.mailboxes.length)
    (unshut : going' → r'.shutdown = false) :
    took = [] ∧ tried = [] ∧ Served box [] [] going' work' r' := by
  -- Only the step that links a listener makes a mailbox more.
  have first : ∀ {task : TaskId} {phase : Phase M}, work task = some phase →
      box < (phase.step task r).2.mailboxes.length →
      phase.takes = [] ∧ phase.tries = [] ∧ (phase.step task r).1.getLeft? = none ∧
        Served box [] [] going' (Work.set work task none) (phase.step task r).2 := by
    intro task phase there known
    obtain ⟨id, rfl, links⟩ := (phase.steps task r).adding_of_known unknown known
    exact ⟨rfl, rfl, rfl, Served.link sound there links rfl⟩
  have none : ∀ {after : Registry M}, after.mailboxes.length = r.mailboxes.length →
      ¬ box < after.mailboxes.length := by
    intro after same below
    rw [same] at below
    exact Nat.not_lt_of_le unknown below
  cases moves with
  | same => exact absurd known (none rfl)
  | begins => exact absurd known (none rfl)
  | steps task phase there =>
    obtain ⟨untold, untried, finished, served⟩ := first there known
    rw [untold, untried, finished]
    exact ⟨rfl, rfl, served⟩
  | follows task phase there finished operation =>
    obtain ⟨untold, untried, -, served⟩ := first there known
    have idle : ∀ event, ¬ Owing (Work.set work task Option.none task) box event := by
      intro event
      rw [Work.set_self]
      exact Phase.not_owing_none box event
    have begun := served.begin idle operation fun goes => ⟨goes, unshut goes⟩
    rw [Work.set_set] at begun
    rw [untold, untried]
    exact ⟨rfl, rfl, begun⟩
  | leaves task phase there stops => exact absurd known (none (Phase.length_release phase task r))
  | acts act => exact absurd known (none (length_act r act))
  | unlinks => exact absurd known (none rfl)

/-- What a mailbox is given in a move: nothing, or an event that it was owed, or one that is offered
to everybody. -/
inductive Given (box : MailboxId) (work : Work (Phase M)) (tried : List (Event M))
    (work' : Work (Phase M)) : List (Event M) → Prop
  | nothing : Given box work tried work' []
  | owed (task : TaskId) (event : Event M) (before : Owing (work task) box event)
      (after : ∀ event, ¬ Owing (work' task) box event) : Given box work tried work' [event]
  | offered (given : List (Event M)) (unasked : given.Sublist tried) :
      Given box work tried work' given

theorem accepted_of_unknown {r : Registry M} {box : MailboxId}
    (unknown : r.mailboxes.length ≤ box) :
    r.accepted box = [] := by
  unfold Registry.accepted mailbox?
  rw [List.getElem?_eq_none unknown]
  rfl

/-- What the steps of operations give. -/
theorem given_step (sound : Sound work r) {task : TaskId} {phase : Phase M}
    (there : work task = some phase) {box : MailboxId} (known : box < r.mailboxes.length) :
    ∃ given, (phase.step task r).2.accepted box = r.accepted box ++ given ∧
      (given = [] ∨ given.Sublist phase.tries ∨ ∃ event, given = [event] ∧ phase.Owes box event ∧
        ∀ event, ¬ Owing (phase.step task r).1.getLeft? box event) := by
  cases sound.serves there known with
  | spares untold spares owes => exact ⟨[], by rw [spares.accepted, List.append_nil], Or.inl rfl⟩
  | takes event begins next same => exact ⟨[], by rw [same, List.append_nil], Or.inl rfl⟩
  | gives event owed live unshut gives settled =>
    exact ⟨[event], gives.accepted known, Or.inr (Or.inr ⟨event, rfl, owed, settled⟩)⟩
  | tries event tries known accepted =>
    subst tries
    rcases accepted with same | more
    · exact ⟨[], by rw [same, List.append_nil], Or.inl rfl⟩
    · exact ⟨[event], more, Or.inr (Or.inl (List.Sublist.refl _))⟩

theorem accepted (moves : Moves going' work r took tried work' r') (sound : Sound work r)
    (unshut : going' → r'.shutdown = false) (box : MailboxId) :
    ∃ given, r'.accepted box = r.accepted box ++ given ∧ Given box work tried work' given := by
  by_cases known : box < r.mailboxes.length
  · have spared : ∀ {after : Registry M}, Spares box r after →
        after.accepted box = r.accepted box ++ [] := by
      intro after spares
      rw [spares.accepted, List.append_nil]
    cases moves with
    | same => exact ⟨[], (List.append_nil _).symm, .nothing⟩
    | begins => exact ⟨[], (List.append_nil _).symm, .nothing⟩
    | steps task phase there =>
      obtain ⟨given, more, none | unasked | ⟨event, same, owes, settled⟩⟩ :=
        given_step sound there known
      · exact ⟨given, more, none ▸ .nothing⟩
      · exact ⟨given, more, .offered given unasked⟩
      · refine ⟨given, more, same ▸ .owed task event ⟨phase, there, owes⟩ fun event => ?_⟩
        rw [Work.set_self]
        exact settled event
    | follows task phase there finished operation =>
      obtain ⟨given, more, none | unasked | ⟨event, same, owes, settled⟩⟩ :=
        given_step sound there known
      · exact ⟨given, more, none ▸ .nothing⟩
      · exact ⟨given, more, .offered given unasked⟩
      · refine ⟨given, more, same ▸ .owed task event ⟨phase, there, owes⟩ fun event owing => ?_⟩
        rw [Work.set_self] at owing
        exact (Phase.owing_some.mp owing).elim
    | leaves task phase there stops =>
      exact ⟨[], spared (Phase.spares_release phase task r box), .nothing⟩
    | acts act => exact ⟨[], spared (spares_act r act box), .nothing⟩
    | unlinks shut => exact ⟨[], spared (spares_unlinkAll shut box), .nothing⟩
  · have unknown := Nat.le_of_not_lt known
    refine ⟨[], ?_, .nothing⟩
    rw [accepted_of_unknown unknown]
    -- A mailbox that the move has brought is empty, and one that is not there has nothing either.
    by_cases now : box < r'.mailboxes.length
    · obtain ⟨-, -, served⟩ := moves.linked sound unknown now unshut
      obtain ⟨given, none, all⟩ := served.block
      rw [all, List.prefix_nil.mp none]
      rfl
    · exact accepted_of_unknown (Nat.le_of_not_lt now)

end Moves

end Registry

end HardwareSigner
