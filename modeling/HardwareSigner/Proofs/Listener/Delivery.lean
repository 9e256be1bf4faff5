import HardwareSigner.Proofs.Listener.Serving

/-!
# What a mailbox has been given

Say that one task after the other dispatches an event, and that they have taken the lock for it in
the order that `told` gives. What a mailbox has been given since it was linked is then a beginning
of `told`. While the dispatches go on, its listener lives and the registry is not shut down, it is
all of `told` but the event that a task still owes the mailbox.

`Registry.Served` says so. Whether the dispatches go on is left open: it may be any proposition that
once false stays false.

> `Registry.Served.step`: every step of every operation keeps it.
> `Registry.Served.act`: so does everything that is done from outside.
> `Registry.Served.link`: it holds of a mailbox that has just been linked.
-/

namespace HardwareSigner

namespace Registry

open Operation (Phase)
open Operation.Phase (Owing)

variable {M : Type}

/-- What tasks keep to: one of them at a time has something to dispatch, and nothing is done before
a shutdown that is to be done after it. They owe something only to mailboxes that there are. -/
structure Sound (work : Work (Phase M)) (r : Registry M) : Prop where
  ordered : r.Ordered
  owed : ∀ task phase, work task = some phase →
    phase.owed.Sublist (List.range r.mailboxes.length)
  single : ∀ task other phase phase', work task = some phase → work other = some phase' →
    phase.offers = true → phase'.offers = true → task = other
  late : ∀ task phase, work task = some phase → phase.late = true → r.shutdown = true

namespace Sound

variable {work : Work (Phase M)} {r after : Registry M} {task : TaskId}

theorem empty (capacity : Nat) : Sound (fun _ => none) (Registry.empty capacity : Registry M) where
  ordered := ordered_empty capacity
  owed _ _ there := by cases there
  single _ _ _ _ there := by cases there
  late _ _ there := by cases there

/-- One task goes on to another phase, or has none any more. -/
theorem set (sound : Sound work r) (ordered : after.Ordered)
    (length : r.mailboxes.length ≤ after.mailboxes.length)
    (shutdown : r.shutdown = true → after.shutdown = true) {phase? : Option (Phase M)}
    (owed : ∀ phase ∈ phase?, phase.owed.Sublist (List.range after.mailboxes.length))
    (alone : ∀ phase ∈ phase?, phase.offers = true → ∀ other phase', other ≠ task →
      work other = some phase' → phase'.offers = false)
    (late : ∀ phase ∈ phase?, phase.late = true → after.shutdown = true) :
    Sound (Work.set work task phase?) after where
  ordered := ordered
  owed other phase there := by
    rcases Work.set_cases _ _ _ there with ⟨-, now⟩ | ⟨-, before⟩
    · exact owed phase now
    · exact (sound.owed other phase before).trans (List.range_sublist.mpr length)
  single := Work.Single.move sound.single (fun _ _ there => Work.set_cases _ _ _ there) alone
  late other phase there isLate := by
    rcases Work.set_cases _ _ _ there with ⟨-, now⟩ | ⟨-, before⟩
    · exact late phase now isLate
    · exact shutdown (sound.late other phase before isLate)

theorem follows (sound : Sound work r) {phase : Phase M} (there : work task = some phase)
    {next : Phase M} (goesOn : next ∈ (phase.step task r).1.getLeft?) :
    Phase.Follows r phase next :=
  Phase.follows_step sound.ordered (sound.owed task phase there) goesOn

theorem serves (sound : Sound work r) {phase : Phase M} (there : work task = some phase)
    {box : MailboxId} (known : box < r.mailboxes.length) :
    Phase.Serves box phase r (phase.step task r).1.getLeft? (phase.step task r).2 :=
  (phase.steps task r).serves sound.ordered
    ((sound.owed task phase there).nodup List.nodup_range) (sound.late task phase there) known

theorem step (sound : Sound work r) {phase : Phase M} (there : work task = some phase) :
    Sound (Work.set work task (phase.step task r).1.getLeft?) (phase.step task r).2 := by
  have keeps := (phase.steps task r).keeps
  have shutdown : r.shutdown = true → (phase.step task r).2.shutdown = true :=
    fun shut => keeps.shutdown.trans shut
  refine sound.set (keeps.ordered sound.ordered) keeps.length shutdown ?_ ?_ ?_
  · intro next goesOn
    exact (sound.follows there goesOn).owed.trans (List.range_sublist.mpr keeps.length)
  · intro next goesOn offers other phase' different there'
    have offered := (sound.follows there goesOn).offers offers
    exact Work.Single.alone sound.single (Or.inl ⟨phase, there, offered⟩) different there'
  · intro next goesOn isLate
    exact shutdown (sound.late task phase there ((sound.follows there goesOn).late isLate))

theorem begin (sound : Sound work r) {operation : Operation M}
    (alone : (Phase.begin operation).offers = true → ∀ other phase, other ≠ task →
      work other = some phase → phase.offers = false)
    (late : (Phase.begin operation).late = true → r.shutdown = true) :
    Sound (Work.set work task (some (.begin operation))) r := by
  refine sound.set sound.ordered (Nat.le_refl _) id ?_ ?_ ?_
  · rintro phase ⟨⟩
    exact List.nil_sublist _
  · rintro phase ⟨⟩
    exact alone
  · rintro phase ⟨⟩
    exact late

/-- A task has finished or has been given up. -/
theorem leave (sound : Sound work r) (keeps : Keeps r after) (task : TaskId) :
    Sound (Work.set work task none) after :=
  sound.set (keeps.ordered sound.ordered) keeps.length (fun shut => keeps.shutdown.trans shut)
    (fun _ gone => by cases gone) (fun _ gone => by cases gone) (fun _ gone => by cases gone)

theorem act (sound : Sound work r) (act : Act) : Sound work (r.act act) where
  ordered := ordered_act sound.ordered act
  owed task phase there := by
    rw [length_act]
    exact sound.owed task phase there
  single := sound.single
  late task phase there isLate := (spares_act r act 0).shutdown (sound.late task phase there isLate)

/-- Nobody owes anything to a mailbox that does not exist. -/
theorem not_owing (sound : Sound work r) {box : MailboxId} (unknown : r.mailboxes.length ≤ box)
    (task : TaskId) (event : Event M) : ¬ Owing (work task) box event := by
  rintro ⟨phase, there, owes⟩
  have below := (sound.owed task phase there).subset (Phase.mem_owed_of_owes owes)
  exact absurd (List.mem_range.mp below) (Nat.not_lt_of_le unknown)

/-- Only one task owes anybody anything. -/
theorem eq_of_owing (sound : Sound work r) {phase : Phase M} (there : work task = some phase)
    (offers : phase.offers = true) {other : TaskId} {box : MailboxId} {event : Event M}
    (owing : Owing (work other) box event) : other = task := by
  obtain ⟨phase', there', owes⟩ := owing
  exact sound.single other task phase' phase there' there (Phase.offers_of_owes owes) offers

end Sound

/-- What a mailbox has been given is a beginning of what `told` says, and then `tail`. While the
dispatches go on and its listener lives, it is all of `told`, except for an event that somebody
still owes it. -/
structure Served (box : MailboxId) (told : List (TaskId × Event M)) (tail : List (Event M))
    (going : Prop) (work : Work (Phase M)) (r : Registry M) : Prop where
  known : box < r.mailboxes.length
  block : ∃ served, served <+: told ∧ r.accepted box = served.map Prod.snd ++ tail
  linked : going → r.live box = true → box ∈ r.boxes
  plain : going → tail = []
  owing : going → r.live box = true → ∀ task event, Owing (work task) box event →
    ∃ before, told = before ++ [(task, event)] ∧ r.accepted box = before.map Prod.snd
  settled : going → r.live box = true → (∀ task event, ¬ Owing (work task) box event) →
    r.accepted box = told.map Prod.snd

namespace Served

variable {box : MailboxId} {told : List (TaskId × Event M)} {tail : List (Event M)}
  {going going' : Prop} {work work' : Work (Phase M)} {r after : Registry M} {task : TaskId}
  {phase : Phase M}

/-- A mailbox that is spared, and is owed what it was owed before. -/
theorem spared (served : Served box told tail going work r) (spares : Spares box r after)
    (lower : going' → going ∧ after.shutdown = false)
    (owes : going' → after.live box = true → ∀ task event,
      Owing (work' task) box event ↔ Owing (work task) box event) :
    Served box told tail going' work' after where
  known := spares.known served.known
  block := by
    rw [spares.accepted]
    exact served.block
  linked goes live :=
    spares.linked (lower goes).2 live (served.linked (lower goes).1 (spares.live live))
  plain goes := served.plain (lower goes).1
  owing goes live task event owing := by
    rw [spares.accepted]
    exact served.owing (lower goes).1 (spares.live live) task event
      ((owes goes live task event).mp owing)
  settled goes live none := by
    rw [spares.accepted]
    refine served.settled (lower goes).1 (spares.live live) fun task event owing => ?_
    exact none task event ((owes goes live task event).mpr owing)

/-- Whether the dispatches still go on is a matter of its own. -/
theorem lower (served : Served box told tail going work r)
    (lower : going' → going ∧ r.shutdown = false) : Served box told tail going' work r :=
  served.spared (.refl box r) lower fun _ _ _ _ => Iff.rfl

theorem owing_set_of_ne {other : TaskId} (different : other ≠ task) {next? : Option (Phase M)}
    {event : Event M} :
    Owing (Work.set work task next? other) box event ↔ Owing (work other) box event := by
  rw [Work.set_of_ne _ _ _ different]

/-- What is owed is the same if one task goes on to a phase in which it owes the same. -/
theorem owing_set (there : work task = some phase) {next? : Option (Phase M)}
    (same : ∀ event, Owing next? box event ↔ phase.Owes box event) (other : TaskId)
    (event : Event M) :
    Owing (Work.set work task next? other) box event ↔ Owing (work other) box event := by
  by_cases here : other = task
  · rw [here, Work.set_self, there, Phase.owing_some]
    exact same event
  · exact owing_set_of_ne here

theorem act (served : Served box told tail going work r) (act : Act)
    (lower : going' → going ∧ (r.act act).shutdown = false) :
    Served box told tail going' work (r.act act) :=
  served.spared (spares_act r act box) lower fun _ _ _ _ => Iff.rfl

/-- A task that did not owe anything begins an operation. -/
theorem begin (served : Served box told tail going work r)
    (idle : ∀ event, ¬ Owing (work task) box event) (operation : Operation M)
    (lower : going' → going ∧ r.shutdown = false) :
    Served box told tail going' (Work.set work task (some (.begin operation))) r := by
  refine served.spared (.refl box r) lower fun _ _ other event => ?_
  by_cases here : other = task
  · rw [here, Work.set_self]
    exact iff_of_false (fun owing => (Phase.owing_some.mp owing).elim) (idle event)
  · exact owing_set_of_ne here

/-- A task is given up. If it dispatched something, the dispatches do not go on. -/
theorem leave (served : Served box told tail going work r) (there : work task = some phase)
    (spares : Spares box r after) (lower : going' → going ∧ after.shutdown = false)
    (stops : going' → phase.offers = false) :
    Served box told tail going' (Work.set work task none) after := by
  refine served.spared spares lower fun goes _ other event => ?_
  refine owing_set there (fun event => iff_of_false (Phase.not_owing_none box event) ?_) other event
  intro owes
  have offers := Phase.offers_of_owes owes
  rw [stops goes] at offers
  cases offers

/-- A mailbox that has just been linked has been given nothing, and there is nothing yet that it
could have been given. -/
theorem link (sound : Sound work r) (there : work task = some phase) {id : ListenerId}
    (linked : r.link id = (.ok box, after)) (idle : phase.offers = false) :
    Served box [] [] going (Work.set work task none) (after.releases task) := by
  rcases link_cases r id with refused | ⟨found, links, mailboxes, entries, -⟩
  · rw [refused] at linked
    cases linked
  · rw [links] at linked
    obtain ⟨same, rfl⟩ := Prod.mk.inj linked
    obtain rfl := Except.ok.inj same
    -- The mailbox is new: whatever anybody owes, he owes to mailboxes that were there before.
    have nobody : ∀ other event,
        ¬ Owing (Work.set work task none other) r.mailboxes.length event := by
      intro other event
      refine mt (owing_set there (fun event => iff_of_false (Phase.not_owing_none _ event) ?_)
        other event).mp (sound.not_owing (Nat.le_refl _) other event)
      intro owes
      rw [Phase.offers_of_owes owes] at idle
      cases idle
    have nothing : (found.releases task).accepted r.mailboxes.length = [] := by
      unfold accepted mailbox?
      show ((found.mailboxes[r.mailboxes.length]?).map Mailbox.accepted).getD [] = []
      rw [mailboxes, List.getElem?_concat_length]
      rfl
    refine ⟨?_, ⟨[], List.prefix_refl [], nothing⟩, fun _ _ => ?_, fun _ => rfl, ?_, ?_⟩
    · show r.mailboxes.length < found.mailboxes.length
      rw [mailboxes, List.length_append]
      exact Nat.lt_succ_self _
    · show r.mailboxes.length ∈ found.entries.map Prod.snd
      rw [entries, List.map_append]
      exact List.mem_append_right _ List.mem_cons_self
    · intro _ _ other event owing
      exact absurd owing (nobody other event)
    · exact fun _ _ _ => nothing

/-- A dispatch takes the lock. All that has been told before has been given. -/
theorem takes (served : Served box told tail going work r) (sound : Sound work r)
    {event : Event M} (there : work task = some (.dispatching event))
    (lower : going' → going ∧ r.shutdown = false) :
    Served box (told ++ [(task, event)]) tail going'
      (Work.set work task (some (.offering event r.boxes 0 false))) r := by
  -- Only this task may owe anything, and it has not begun to serve anybody.
  have nobody : ∀ other told, ¬ Owing (work other) box told := by
    intro other told owing
    rw [sound.eq_of_owing there rfl owing, there] at owing
    exact (Phase.owing_some.mp owing).elim
  refine ⟨served.known, ?_, fun goes => served.linked (lower goes).1,
    fun goes => served.plain (lower goes).1, fun goes live other told owing => ?_,
    fun goes live none => ?_⟩
  · obtain ⟨given, before, accepted⟩ := served.block
    exact ⟨given, before.trans (List.prefix_append _ _), accepted⟩
  · by_cases here : other = task
    · rw [here, Work.set_self] at owing
      obtain ⟨rfl, -⟩ := Phase.owing_some.mp owing
      rw [here]
      exact ⟨_, rfl, served.settled (lower goes).1 live nobody⟩
    · exact absurd ((owing_set_of_ne here).mp owing) (nobody other told)
  · -- A live listener is linked, and all who are linked are now owed the event.
    refine absurd ?_ (none task event)
    rw [Work.set_self, Phase.owing_some]
    exact ⟨rfl, served.linked (lower goes).1 live⟩

/-- A mailbox is given what it is owed, which is the last that has been told. -/
theorem gives (served : Served box told tail going work r) (sound : Sound work r)
    (there : work task = some phase) (goes : going) {event : Event M}
    (owed : phase.Owes box event) (live : r.live box = true) (gives : Phase.Gives box event r after)
    {next? : Option (Phase M)} (settled : ∀ event, ¬ Owing next? box event) :
    Served box told [] going' (Work.set work task next?) after := by
  obtain ⟨before, last, accepted⟩ :=
    served.owing goes live task event (there ▸ Phase.owing_some.mpr owed)
  have complete : after.accepted box = told.map Prod.snd := by
    rw [gives.accepted served.known, accepted, last, List.map_append]
    rfl
  -- Nobody else owes the mailbox anything, and this task has just given it what it owed.
  have nobody : ∀ other told, ¬ Owing (Work.set work task next? other) box told := by
    intro other told owing
    by_cases here : other = task
    · rw [here, Work.set_self] at owing
      exact settled told owing
    · have earlier := (owing_set_of_ne here).mp owing
      exact here (sound.eq_of_owing there (Phase.offers_of_owes owed) earlier)
  exact ⟨gives.known served.known,
    ⟨told, List.prefix_refl told, by rw [complete, List.append_nil]⟩,
    fun _ _ => gives.linked (served.linked goes live), fun _ => rfl,
    fun _ _ other told owing => absurd owing (nobody other told), fun _ _ _ => complete⟩

/-- A mailbox is given something that it is not owed, when the dispatches have come to an end. -/
theorem tries (served : Served box told tail going work r) (stopped : ¬ going')
    (known : box < r.mailboxes.length → box < after.mailboxes.length) {more : List (Event M)}
    (accepted : after.accepted box = r.accepted box ++ more) :
    Served box told (tail ++ more) going' work' after := by
  obtain ⟨given, before, earlier⟩ := served.block
  refine ⟨known served.known, ⟨given, before, ?_⟩, fun goes => absurd goes stopped,
    fun goes => absurd goes stopped, fun goes => absurd goes stopped,
    fun goes => absurd goes stopped⟩
  rw [accepted, earlier, List.append_assoc]

/-- Every step of every operation keeps what has been said about a mailbox. -/
theorem step (served : Served box told tail going work r) (sound : Sound work r)
    (there : work task = some phase) (onward : phase.offers = true → going ∨ r.shutdown = true)
    (lower : going' → going ∧ r.shutdown = false) :
    ∃ more, more.Sublist phase.tries ∧
      Served box (told ++ phase.takes.map fun event => (task, event)) (tail ++ more) going'
        (Work.set work task (phase.step task r).1.getLeft?) (phase.step task r).2 := by
  have keeps := (phase.steps task r).keeps
  have stays : going' → going ∧ (phase.step task r).2.shutdown = false :=
    fun goes => ⟨(lower goes).1, keeps.shutdown.trans (lower goes).2⟩
  cases sound.serves there served.known with
  | spares untold spares owes =>
    refine ⟨[], List.nil_sublist _, ?_⟩
    rw [untold, List.map_nil, List.append_nil, List.append_nil]
    exact served.spared spares stays fun goes live =>
      owing_set there (owes (stays goes).2 live)
  | takes event begins next same =>
    subst begins
    refine ⟨[], List.nil_sublist _, ?_⟩
    rw [same, next, List.append_nil]
    exact served.takes sound there lower
  | gives event owed live unshut gives settled =>
    have goes : going := by
      rcases onward (Phase.offers_of_owes owed) with goes | shut
      · exact goes
      · rw [unshut] at shut
        cases shut
    refine ⟨[], List.nil_sublist _, ?_⟩
    rw [Phase.takes_of_owes owed, List.map_nil, List.append_nil, List.append_nil, served.plain goes]
    exact served.gives sound there goes owed live gives settled
  | tries event tries known accepted =>
    subst tries
    -- An event is offered unasked only after a shutdown.
    have stopped : ¬ going' := by
      intro goes
      have shut := sound.late task _ there rfl
      rw [(lower goes).2] at shut
      cases shut
    rw [show (Phase.trying event).takes = [] from rfl, List.map_nil, List.append_nil]
    rcases accepted with same | more
    · exact ⟨[], List.nil_sublist _,
        served.tries stopped known (same.trans (List.append_nil _).symm)⟩
    · exact ⟨[event], List.Sublist.refl _, served.tries stopped known more⟩

end Served

end Registry

end HardwareSigner
