import HardwareSigner.Proofs.Engine.Working

/-!
# What a listener may learn of a connection

A connection is announced, then there is traffic, then reading may fail, and then the connection may
be closed. Each of these but the traffic happens once at most. What is told in this order reaches
every listener in this order: it is given a stretch of what dispatches have told, and then what it
is offered when the connection is closed.

> `Engine.kept_run`: at every point of every run everybody keeps to his role and every mailbox has
> been served so.
> `Engine.Kept.grammatical`: so whatever a mailbox has been given follows the grammar.
-/

namespace HardwareSigner

namespace Event

variable {M : Type}

/-- The place of an event in the life of a connection. -/
def rank : Event M → Nat
  | .message _ _ => 1
  | .system .connected => 0
  | .system .endOfStream => 1
  | .system .failure => 2
  | .system .disconnected => 3

/-- Of two events of a connection the first may come before the second. Only traffic may be
followed by its like. -/
def Precedes (first second : Event M) : Prop :=
  first.rank < second.rank ∨ (first.isTraffic = true ∧ second.isTraffic = true)

theorem rank_of_traffic {event : Event M} (traffic : event.isTraffic = true) : event.rank = 1 := by
  cases event with
  | message type body => rfl
  | system event => cases event <;> first | rfl | cases traffic

theorem not_precedes {first second : Event M} (below : second.rank ≤ first.rank)
    (apart : first.isTraffic = false ∨ second.isTraffic = false) : ¬ first.Precedes second := by
  rintro (less | ⟨traffic, traffic'⟩)
  · exact absurd less (Nat.not_lt_of_le below)
  · rcases apart with quiet | quiet
    · rw [quiet] at traffic
      cases traffic
    · rw [quiet] at traffic'
      cases traffic'

/-- What may be told of a connection: that it is open, what comes from the other side, that reading
has failed, and that the connection has been closed. -/
def Grammatical (events : List (Event M)) : Prop :=
  ∃ opening body failing closing, events = opening ++ body ++ failing ++ closing ∧
    (opening = [] ∨ opening = [.system .connected]) ∧
    (∀ event ∈ body, event.isTraffic = true) ∧
    (failing = [] ∨ failing = [.system .failure]) ∧
    (closing = [] ∨ closing = [.system .disconnected])

/-- Events that are in the right order two by two follow the grammar. -/
theorem grammatical_of_pairwise {events : List (Event M)} (ordered : events.Pairwise Precedes) :
    Grammatical events := by
  induction events with
  | nil =>
    exact ⟨[], [], [], [], rfl, Or.inl rfl, fun _ there => absurd there List.not_mem_nil,
      Or.inl rfl, Or.inl rfl⟩
  | cons first rest ih =>
    obtain ⟨before, ordered⟩ := List.pairwise_cons.mp ordered
    obtain ⟨opening, body, failing, closing, rfl, opens, all, fails, closes⟩ := ih ordered
    -- What is told after something else is not the beginning.
    have unopened : opening = [] := by
      rcases opens with none | rfl
      · exact none
      · exact absurd (before (.system .connected) List.mem_cons_self)
          (not_precedes (Nat.zero_le _) (Or.inr rfl))
    subst unopened
    -- The higher the rank of the first event, the less can follow it.
    have quiet : first.isTraffic = false → 1 ≤ first.rank → body = [] := by
      intro other above
      cases body with
      | nil => rfl
      | cons event more =>
        have low : event.rank ≤ first.rank := by
          rw [rank_of_traffic (all event List.mem_cons_self)]
          exact above
        exact absurd (before event List.mem_cons_self) (not_precedes low (Or.inl other))
    have unfailing : 2 ≤ first.rank → failing = [] := by
      intro above
      rcases fails with none | rfl
      · exact none
      · refine absurd (before (.system .failure) ?_) (not_precedes above (Or.inr rfl))
        exact List.mem_append_left _ (List.mem_append_right _ List.mem_cons_self)
    have unclosed : 3 ≤ first.rank → closing = [] := by
      intro above
      rcases closes with none | rfl
      · exact none
      · refine absurd (before (.system .disconnected) ?_) (not_precedes above (Or.inr rfl))
        exact List.mem_append_right _ List.mem_cons_self
    have traffic : first.isTraffic = true →
        Grammatical (first :: ([] ++ body ++ failing ++ closing)) :=
      fun traffic => ⟨[], first :: body, failing, closing, rfl, Or.inl rfl,
        List.forall_mem_cons.mpr ⟨traffic, all⟩, fails, closes⟩
    cases first with
    | message type body => exact traffic rfl
    | system event =>
      cases event with
      | connected =>
        exact ⟨[.system .connected], body, failing, closing, rfl, Or.inr rfl, all, fails, closes⟩
      | endOfStream => exact traffic rfl
      | failure =>
        obtain rfl := quiet rfl (Nat.le_succ 1)
        obtain rfl := unfailing (Nat.le_refl 2)
        exact ⟨[], [], [.system .failure], closing, rfl, Or.inl rfl, all, Or.inr rfl, closes⟩
      | disconnected =>
        obtain rfl := quiet rfl (Nat.le_add_left 1 2)
        obtain rfl := unfailing (Nat.le_succ 2)
        obtain rfl := unclosed (Nat.le_refl 3)
        exact ⟨[], [], [], [.system .disconnected], rfl, Or.inl rfl, all, Or.inl rfl, Or.inr rfl⟩

end Event

namespace Engine

open Registry (Bounded Served)

variable {M : Type}

/-! ## What has been told -/

theorem Opened.pairwise {told : List (Event M)} (opened : Opened told) :
    told.Pairwise Event.Precedes := by
  obtain ⟨body, rfl, all⟩ := opened
  refine List.pairwise_cons.mpr ⟨fun event there => Or.inl ?_, ?_⟩
  · rw [Event.rank_of_traffic (all event there)]
    exact Nat.one_pos
  · exact List.pairwise_of_forall_mem_list fun first there second there' =>
      Or.inr ⟨all first there, all second there'⟩

theorem Opened.rank_le {told : List (Event M)} (opened : Opened told) :
    ∀ event ∈ told, event.rank ≤ 1 := by
  obtain ⟨body, rfl, all⟩ := opened
  intro event there
  rcases List.mem_cons.mp there with rfl | later
  · exact Nat.zero_le 1
  · exact Nat.le_of_eq (Event.rank_of_traffic (all event later))

theorem Spoken.rank_le {told : List (Event M)} (spoken : Spoken told) :
    ∀ event ∈ told, event.rank ≤ 2 := by
  rcases spoken with rfl | opened | ⟨before, opened, rfl⟩
  · exact fun _ there => absurd there List.not_mem_nil
  · exact fun event there => Nat.le_succ_of_le (opened.rank_le event there)
  · intro event there
    rcases List.mem_append.mp there with earlier | last
    · exact Nat.le_succ_of_le (opened.rank_le event earlier)
    · rw [List.mem_singleton.mp last]
      exact Nat.le_refl 2

theorem Spoken.pairwise {told : List (Event M)} (spoken : Spoken told) :
    told.Pairwise Event.Precedes := by
  rcases spoken with rfl | opened | ⟨before, opened, rfl⟩
  · exact List.Pairwise.nil
  · exact opened.pairwise
  · refine List.pairwise_append.mpr ⟨opened.pairwise, List.pairwise_singleton _ _, ?_⟩
    intro event there last same
    rw [List.mem_singleton.mp same]
    exact Or.inl (Nat.lt_succ_of_le (opened.rank_le event there))

/-- All that a listener may be told is in the right order. -/
theorem Roles.pairwise {stages : Work (Stage M)} {e : Engine M} {told tried : List (Event M)}
    (roles : Roles stages e told tried) : (told ++ tried).Pairwise Event.Precedes := by
  rcases roles.parted with rfl | rfl
  · rw [List.append_nil]
    exact roles.spoken.pairwise
  · refine List.pairwise_append.mpr ⟨roles.spoken.pairwise, List.pairwise_singleton _ _, ?_⟩
    intro event there last same
    rw [List.mem_singleton.mp same]
    exact Or.inl (Nat.lt_succ_of_le (roles.spoken.rank_le event there))

/-- The connection is announced once at most. -/
theorem Spoken.countP_connected {told : List (Event M)} (spoken : Spoken told) :
    told.countP (·.isThe .connected) ≤ 1 := by
  have opens : ∀ {told : List (Event M)}, Opened told → told.countP (·.isThe .connected) ≤ 1 := by
    rintro told ⟨body, rfl, all⟩
    have none : body.countP (·.isThe .connected) = 0 := by
      refine List.countP_eq_zero.mpr fun event there => ?_
      have traffic := all event there
      cases event with
      | message type message => exact fun same => by cases same
      | system event => cases event <;> first | (intro same; cases same; done) | cases traffic
    rw [List.countP_cons, none]
    exact Nat.le_refl 1
  rcases spoken with rfl | opened | ⟨before, opened, rfl⟩
  · exact Nat.zero_le 1
  · exact opens opened
  · rw [List.countP_append]
    exact opens opened

/-! ## Every run -/

/-- Everybody has kept to his role, and every mailbox has been given a stretch of what dispatches
have told, from when it was linked, and then some of what has been offered unasked. -/
structure Kept (w : Site M) (told : List (TaskId × Event M)) (tried : List (Event M)) : Prop where
  numbered : w.Numbered
  bounded : Bounded (operations (stages w)) w.state.registry
  roles : Roles (stages w) w.state (told.map Prod.snd) tried
  served : ∀ box < w.state.registry.mailboxes.length, ∃ earlier later tail,
    told = earlier ++ later ∧ tail.Sublist tried ∧
      Served box later tail (Going (stages w) w.state) (operations (stages w)) w.state.registry

theorem kept_create (codec : RequestCodec M) (settings : EngineSettings) (link : ScriptedLink) :
    Kept (World.ofState (create codec settings link)) [] [] where
  numbered := World.numbered_ofState _
  bounded := ⟨Registry.ordered_empty _, fun _ _ there => by cases there⟩
  roles := roles_create codec settings link
  served box known := absurd known (Nat.not_lt_zero box)

section

variable {w : Site M} {told : List (TaskId × Event M)} {tried : List (Event M)} {deed : Deed M}
  {deeds : List (Deed M)} {box : MailboxId}

theorem Kept.moves (kept : Kept w told tried) (lawful : Lawful w deed) :
    Registry.Moves (Going (stages (w.apply machine deed)) (w.apply machine deed).state)
      (operations (stages w)) w.state.registry (takes w deed) (tries w deed)
      (operations (stages (w.apply machine deed))) (w.apply machine deed).state.registry :=
  moves_effect kept.roles (effect kept.numbered lawful)

/-- What a mailbox has been given after one more action. -/
theorem Kept.served_apply (kept : Kept w told tried) (lawful : Lawful w deed)
    {later : List (TaskId × Event M)} {tail : List (Event M)}
    (served : Served box later tail (Going (stages w) w.state) (operations (stages w))
      w.state.registry) :
    ∃ more, more.Sublist (tries w deed) ∧
      Served box (later ++ takes w deed) (tail ++ more)
        (Going (stages (w.apply machine deed)) (w.apply machine deed).state)
        (operations (stages (w.apply machine deed))) (w.apply machine deed).state.registry :=
  (kept.moves lawful).served (kept.roles.sound kept.bounded) served
    (fun _ _ there offers => kept.roles.going_of_offers there offers)
    fun going => ⟨going_effect kept.roles (effect kept.numbered lawful) going, going.1⟩

theorem Kept.apply (kept : Kept w told tried) (lawful : Lawful w deed) :
    Kept (w.apply machine deed) (told ++ takes w deed) (tried ++ tries w deed) where
  numbered := kept.numbered.apply machine deed
  bounded := (kept.moves lawful).bounded kept.bounded
  roles := by
    rw [List.map_append]
    exact roles_effect kept.roles kept.bounded (effect kept.numbered lawful)
  served box known := by
    by_cases earlier : box < w.state.registry.mailboxes.length
    · obtain ⟨before, later, tail, all, unasked, served⟩ := kept.served box earlier
      obtain ⟨more, offered, served⟩ := kept.served_apply lawful served
      refine ⟨before, _, _, ?_, unasked.append offered, served⟩
      rw [all, List.append_assoc]
    · -- A mailbox that is new has its stretch begin here.
      obtain ⟨untold, untried, served⟩ := (kept.moves lawful).linked
        (kept.roles.sound kept.bounded) (Nat.le_of_not_lt earlier) known And.left
      rw [untold, List.append_nil]
      exact ⟨told, [], [], (List.append_nil told).symm, List.nil_sublist _, served⟩

theorem kept_run (kept : Kept w told tried) (obeys : w.Obeys machine Lawful deeds) :
    Kept (w.applyAll machine deeds) (told ++ w.history machine takes deeds)
      (tried ++ w.history machine tries deeds) := by
  refine World.keeps_run ?_ ?_ obeys
  · rw [World.history, World.history, List.append_nil, List.append_nil]
    exact kept
  · intro before deed _ lawful kept
    rw [World.applyAll_snoc, World.history_snoc, World.history_snoc, ← List.append_assoc,
      ← List.append_assoc]
    exact kept.apply lawful

/-- Whatever a mailbox has been given is part of what has been told, in the same order. -/
theorem Kept.accepted (kept : Kept w told tried) (box : MailboxId) :
    (w.state.registry.accepted box).Sublist (told.map Prod.snd ++ tried) := by
  by_cases known : box < w.state.registry.mailboxes.length
  · obtain ⟨earlier, later, tail, rfl, unasked, served⟩ := kept.served box known
    obtain ⟨given, before, accepted⟩ := served.block
    rw [accepted]
    refine List.Sublist.append (List.Sublist.map _ ?_) unasked
    exact before.sublist.trans (List.sublist_append_right earlier later)
  · rw [Registry.Moves.accepted_of_unknown (Nat.le_of_not_lt known)]
    exact List.nil_sublist _

/-- Whatever a mailbox has been given follows the grammar. -/
theorem Kept.grammatical (kept : Kept w told tried) (box : MailboxId) :
    Event.Grammatical (w.state.registry.accepted box) :=
  Event.grammatical_of_pairwise (kept.roles.pairwise.sublist (kept.accepted box))

end

end Engine

end HardwareSigner
