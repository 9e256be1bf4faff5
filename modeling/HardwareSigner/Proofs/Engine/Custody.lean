import HardwareSigner.Proofs.Engine.Links

/-!
# Who has the writing half of the link

The link is opened by one call and closed by another, and either may come first where they meet.
This file follows the writing half from hand to hand, for any number of calls, without looking at
what else they do.

Of all that a call does only a `Part` matters here, and of the engine only its `Custody`.
`Custody.Move` lists the ways in which a step changes both. `Place` is where the writing half is,
and with it who has opened the link; `Custody.Held` ties all this together with what has been
achieved so far.

> `Custody.held_move`: every move keeps it.
-/

namespace HardwareSigner

/-- What a call has to do with opening and closing the link. -/
inductive Part
  /-- Opens the link. -/
  | opens
  /-- Has opened it, and has the writing half. -/
  | carries
  /-- Takes the writing half out again. -/
  | retracts
  /-- Tells the listeners that the link is open. -/
  | announces
  /-- Has closed the engine, and is to take the writing half out. -/
  | detaches
  deriving DecidableEq

/-- What a step of a call achieves. -/
inductive Milestone
  /-- The link has been opened. -/
  | opened
  /-- A reader has been started. -/
  | started
  /-- The engine has been closed. -/
  | shut
  deriving DecidableEq

/-- Who has achieved it. -/
def doers (milestone : Milestone) (log : List (TaskId × Milestone)) : List TaskId :=
  (log.filter fun entry => entry.2 = milestone).map Prod.fst

theorem doers_append (milestone : Milestone) (log more : List (TaskId × Milestone)) :
    doers milestone (log ++ more) = doers milestone log ++ doers milestone more := by
  rw [doers, List.filter_append, List.map_append]
  rfl

theorem doers_singleton_of_ne {milestone other : Milestone} (different : other ≠ milestone)
    (task : TaskId) : doers milestone [(task, other)] = [] := by
  rw [doers, List.filter_cons_of_neg (decide_eq_false different ▸ Bool.false_ne_true)]
  rfl

/-- The state of an engine as far as its link is concerned. -/
structure Custody where
  state : ConnectionState
  /-- The writing half is in its place. -/
  writer : Bool
  /-- How often the link has been closed. -/
  closes : Nat

/-- Where the writing half is. -/
inductive Place
  /-- There is none, and nobody is opening the link. -/
  | nowhere
  /-- The link is being opened. -/
  | awaited (opener : TaskId)
  /-- The call that has opened the link has it. -/
  | carried (opener : TaskId)
  /-- It is in its place. -/
  | placed (opener : TaskId)
  /-- It has been closed. -/
  | closed (opener : TaskId)

namespace Place

def opener? : Place → Option TaskId
  | nowhere => none
  | awaited opener | carried opener | placed opener | closed opener => some opener

/-- Who has opened the link. -/
def openers : Place → List TaskId
  | nowhere | awaited _ => []
  | carried opener | placed opener | closed opener => [opener]

def inside : Place → Bool
  | placed _ => true
  | _ => false

def closes : Place → Nat
  | closed _ => 1
  | _ => 0

/-- How often the connection can have been open so far. -/
def installs : Place → Nat
  | placed _ | closed _ => 1
  | _ => 0

theorem length_openers_le (place : Place) : place.openers.length ≤ 1 := by
  cases place with
  | nowhere | awaited => exact Nat.zero_le 1
  | carried | placed | closed => exact Nat.le_refl 1

theorem installs_le (place : Place) : place.installs ≤ 1 := by
  cases place with
  | nowhere | awaited | carried => exact Nat.zero_le 1
  | placed | closed => exact Nat.le_refl 1

/-- What the opener can be doing. -/
def Allows : Place → Part → Prop
  | nowhere, _ => False
  | awaited _, part => part = .opens
  | carried _, part => part = .carries
  | placed _, part | closed _, part => part = .retracts ∨ part = .announces

/-- What has to be so while the writing half is there. As long as it is in its place in an engine
that is closed, somebody is about to take it out. -/
def Stands (parts : Work Part) (state : ConnectionState) : Place → Prop
  | nowhere => state = .disconnected ∨ state = .closed
  | awaited opener => parts opener = some .opens ∧ (state = .connecting ∨ state = .closed)
  | carried opener => parts opener = some .carries ∧ (state = .connecting ∨ state = .closed)
  | placed opener => state = .connected ∧ parts opener ≠ some .retracts ∨
      state = .closed ∧
        (parts opener = some .retracts ∨ ∃ closer, parts closer = some .detaches)
  | closed _ => state = .closed

end Place

namespace Custody

/-- The state that is entered from one moment to the next. -/
def enters (c c' : Custody) : List ConnectionState :=
  if c.state = c'.state then [] else [c'.state]

/-- The writing half is taken out and closed, if it is there. -/
def release (c : Custody) : Custody :=
  if c.writer then { c with writer := false, closes := c.closes + 1 } else c

/-- What a step makes of the part of its task and of the custody, and what it achieves. -/
inductive Move : Option Part → Custody → List Milestone → Option Part → Custody → Prop
  | rests (part? : Option Part) (c : Custody) : Move part? c [] part? c
  | tries {c : Custody} (disconnected : c.state = .disconnected) :
      Move none c [] (some .opens) { c with state := .connecting }
  | opens (c : Custody) : Move (some .opens) c [.opened] (some .carries) c
  | fails (c : Custody) : Move (some .opens) c [] none
      { c with state := if c.state = .connecting then .disconnected else c.state }
  | installs {c : Custody} (connecting : c.state = .connecting) :
      Move (some .carries) c [] (some .announces) { c with state := .connected, writer := true }
  | withdraws {c : Custody} (unconnecting : c.state ≠ .connecting) :
      Move (some .carries) c [] (some .retracts) { c with writer := true }
  | retracts (c : Custody) : Move (some .retracts) c [] none c.release
  | detaches (c : Custody) : Move (some .detaches) c [] none c.release
  | refuses (c : Custody) : Move (some .announces) c [] none c
  | starts (c : Custody) : Move (some .announces) c [.started] none c
  | shuts {c : Custody} (unclosed : c.state ≠ .closed) :
      Move none c [.shut] (some .detaches) { c with state := .closed }

/-- The writing half is at `place`. The link had been closed `n` times at the beginning. -/
structure Held (n : Nat) (place : Place) (parts : Work Part) (c : Custody)
    (log : List (TaskId × Milestone)) (entered : List ConnectionState) : Prop where
  /-- Apart from who closes the engine, only the opener does anything. -/
  alone : ∀ task part, parts task = some part →
    part = .detaches ∨ place.opener? = some task ∧ place.Allows part
  stands : place.Stands parts c.state
  writer : c.writer = place.inside
  closes : c.closes = n + place.closes
  opened : doers .opened log = place.openers
  started : (doers .started log).length ≤ place.installs
  unstarted : ∀ task, parts task = some .announces → doers .started log = []
  entered : entered.count .connected ≤ place.installs
  /-- Who is to take the writing half out has closed the engine. -/
  detaching : ∀ task, parts task = some .detaches → task ∈ doers .shut log
  once : (doers .shut log).length ≤ 1
  shut : c.state = .closed ↔ doers .shut log ≠ []

namespace Held

variable {n : Nat} {place place' : Place} {parts : Work Part} {c c' : Custody}
  {log : List (TaskId × Milestone)} {entered : List ConnectionState} {task : TaskId}
  {part? : Option Part}

/-! ## What the part of a task says about the place -/
theorem eq_nowhere (held : Held n place parts c log entered)
    (disconnected : c.state = .disconnected) : place = .nowhere := by
  have stands := held.stands
  rw [disconnected] at stands
  cases place with
  | nowhere => rfl
  | awaited opener => rcases stands.2 with same | same <;> cases same
  | carried opener => rcases stands.2 with same | same <;> cases same
  | placed opener => rcases stands with ⟨same, -⟩ | ⟨same, -⟩ <;> cases same
  | closed opener => cases stands

theorem eq_awaited (held : Held n place parts c log entered) (opens : parts task = some .opens) :
    place = .awaited task := by
  rcases held.alone task _ opens with same | ⟨mine, allows⟩
  · cases same
  · cases place with
    | nowhere => cases mine
    | awaited opener => rw [Option.some.inj mine]
    | carried opener => cases allows
    | placed opener => rcases allows with same | same <;> cases same
    | closed opener => rcases allows with same | same <;> cases same
theorem eq_carried (held : Held n place parts c log entered)
    (carries : parts task = some .carries) : place = .carried task := by
  rcases held.alone task _ carries with same | ⟨mine, allows⟩
  · cases same
  · cases place with
    | nowhere => cases mine
    | awaited opener => cases allows
    | carried opener => rw [Option.some.inj mine]
    | placed opener => rcases allows with same | same <;> cases same
    | closed opener => rcases allows with same | same <;> cases same

theorem eq_placed_or_closed (held : Held n place parts c log entered) {part : Part}
    (there : parts task = some part) (installed : part = .retracts ∨ part = .announces) :
    place = .placed task ∨ place = .closed task := by
  rcases held.alone task _ there with rfl | ⟨mine, allows⟩
  · rcases installed with same | same <;> cases same
  · cases place with
    | nowhere => cases mine
    | awaited opener =>
      cases allows
      rcases installed with same | same <;> cases same
    | carried opener =>
      cases allows
      rcases installed with same | same <;> cases same
    | placed opener => exact Or.inl (by rw [Option.some.inj mine])
    | closed opener => exact Or.inr (by rw [Option.some.inj mine])

/-! ## What stays when one task moves -/

/-- If a task moves and there is no other opener, then it is the only one who does anything. -/
theorem alone_set (held : Held n place parts c log entered)
    (mine : ∀ opener, place.opener? = some opener → opener = task)
    (now : ∀ part, part? = some part →
      part = .detaches ∨ place'.opener? = some task ∧ place'.Allows part) :
    ∀ other part, parts.set task part? other = some part →
      part = .detaches ∨ place'.opener? = some other ∧ place'.Allows part := by
  intro other part there
  rcases Work.set_cases _ _ _ there with ⟨rfl, fresh⟩ | ⟨different, before⟩
  · exact now part fresh
  · rcases held.alone other part before with detaches | ⟨opens, -⟩
    · exact Or.inl detaches
    · exact absurd (mine other opens) different

theorem unstarted_set (held : Held n place parts c log entered) (silent : part? ≠ some .announces) :
    ∀ other, parts.set task part? other = some .announces → doers .started log = [] := by
  intro other there
  rcases Work.set_cases _ _ _ there with ⟨-, now⟩ | ⟨-, before⟩
  · exact absurd now silent
  · exact held.unstarted other before

theorem detaching_set (held : Held n place parts c log entered) (other : part? ≠ some .detaches) :
    ∀ other, parts.set task part? other = some .detaches → other ∈ doers .shut log := by
  intro closer there
  rcases Work.set_cases _ _ _ there with ⟨-, now⟩ | ⟨-, before⟩
  · exact absurd now other
  · exact held.detaching closer before

/-- Nobody has started a reader before the writing half was in its place. -/
theorem started_nil (held : Held n place parts c log entered) (before : place.installs = 0) :
    doers .started log = [] := by
  have started := held.started
  rw [before] at started
  exact List.eq_nil_of_length_eq_zero (Nat.le_zero.mp started)

theorem count_enters (other : c'.state ≠ .connected) :
    (entered ++ c.enters c').count .connected = entered.count .connected := by
  unfold enters
  split
  · rw [List.append_nil]
  · rw [List.count_append, List.count_singleton]
    simp only [beq_iff_eq, other, if_false, Nat.add_zero]

/-! ## The moves

What a move does not say anything about stays as it was. -/

theorem rests (held : Held n place parts c log entered) (task : TaskId) :
    Held n place (parts.set task (parts task)) c (log ++ []) (entered ++ c.enters c) := by
  rw [Work.set_same rfl, List.append_nil, enters, if_pos rfl, List.append_nil]
  exact held

theorem tries (held : Held n place parts c log entered) (disconnected : c.state = .disconnected) :
    Held n (.awaited task) (parts.set task (some .opens)) { c with state := .connecting }
      (log ++ []) (entered ++ c.enters { c with state := .connecting }) := by
  obtain rfl := held.eq_nowhere disconnected
  have unshut := held.shut
  rw [disconnected] at unshut
  rw [List.append_nil]
  exact { held with
    alone := held.alone_set (fun _ mine => by cases mine)
      fun part now => Or.inr ⟨rfl, by cases now; rfl⟩
    stands := ⟨Work.set_self _ _ _, Or.inl rfl⟩
    unstarted := held.unstarted_set (by decide)
    entered := Nat.le_trans (Nat.le_of_eq (count_enters nofun)) held.entered
    detaching := held.detaching_set (by decide)
    shut := ⟨nofun, fun shut => nomatch unshut.mpr shut⟩ }

theorem opens (held : Held n place parts c log entered) (there : parts task = some .opens) :
    Held n (.carried task) (parts.set task (some .carries)) c (log ++ [(task, .opened)])
      (entered ++ c.enters c) := by
  obtain rfl := held.eq_awaited there
  have unstarted : doers .started (log ++ [(task, .opened)]) = doers .started log := by
    rw [doers_append]
    exact List.append_nil _
  have unshut : doers .shut (log ++ [(task, .opened)]) = doers .shut log := by
    rw [doers_append]
    exact List.append_nil _
  rw [enters, if_pos rfl, List.append_nil]
  exact { held with
    alone := held.alone_set (fun _ same => (Option.some.inj same).symm)
      fun part now => Or.inr ⟨rfl, by cases now; rfl⟩
    stands := ⟨Work.set_self _ _ _, held.stands.2⟩
    opened := by rw [doers_append, held.opened]; rfl
    started := unstarted ▸ held.started
    unstarted := unstarted ▸ held.unstarted_set (by decide)
    detaching := unshut ▸ held.detaching_set (by decide)
    once := unshut ▸ held.once
    shut := unshut ▸ held.shut }

theorem fails (held : Held n place parts c log entered) (there : parts task = some .opens) :
    Held n .nowhere (parts.set task none)
      { c with state := if c.state = .connecting then .disconnected else c.state } (log ++ [])
      (entered ++
        c.enters { c with state := if c.state = .connecting then .disconnected else c.state }) := by
  obtain rfl := held.eq_awaited there
  have after : (if c.state = .connecting then .disconnected else c.state) = .disconnected ∧
        c.state = .connecting ∨
      (if c.state = .connecting then .disconnected else c.state) = .closed ∧ c.state = .closed := by
    rcases held.stands.2 with same | same
    · exact Or.inl ⟨if_pos same, same⟩
    · exact Or.inr ⟨by rw [same]; rfl, same⟩
  rw [List.append_nil]
  exact { held with
    alone := held.alone_set (fun _ same => (Option.some.inj same).symm) fun _ now => by cases now
    stands := after.imp And.left And.left
    unstarted := held.unstarted_set (by decide)
    entered := by
      refine Nat.le_trans (Nat.le_of_eq (count_enters ?_)) held.entered
      rcases after with ⟨same, -⟩ | ⟨same, -⟩ <;> rw [same] <;> exact nofun
    detaching := held.detaching_set (by decide)
    shut := by
      refine Iff.trans ?_ held.shut
      rcases after with ⟨now, before⟩ | ⟨now, before⟩ <;> rw [now, before]
      exact ⟨nofun, nofun⟩ }

theorem installs (held : Held n place parts c log entered) (there : parts task = some .carries)
    (connecting : c.state = .connecting) :
    Held n (.placed task) (parts.set task (some .announces))
      { c with state := .connected, writer := true } (log ++ [])
      (entered ++ c.enters { c with state := .connected, writer := true }) := by
  obtain rfl := held.eq_carried there
  have unshut := held.shut
  rw [connecting] at unshut
  have unstarted := held.started_nil rfl
  rw [List.append_nil]
  exact { held with
    alone := held.alone_set (fun _ same => (Option.some.inj same).symm)
      fun part now => Or.inr ⟨rfl, by cases now; exact Or.inr rfl⟩
    stands := Or.inl ⟨rfl, by rw [Work.set_self]; decide⟩
    writer := rfl
    started := by rw [unstarted]; exact Nat.zero_le _
    unstarted := fun _ _ => unstarted
    entered := by
      have none : entered.count .connected = 0 := Nat.le_zero.mp held.entered
      rw [List.count_append, none, enters, connecting]
      exact Nat.le_refl 1
    detaching := held.detaching_set (by decide)
    shut := ⟨nofun, fun shut => nomatch unshut.mpr shut⟩ }

theorem withdraws (held : Held n place parts c log entered) (there : parts task = some .carries)
    (unconnecting : c.state ≠ .connecting) :
    Held n (.placed task) (parts.set task (some .retracts)) { c with writer := true } (log ++ [])
      (entered ++ c.enters { c with writer := true }) := by
  obtain rfl := held.eq_carried there
  have closed : c.state = .closed := held.stands.2.resolve_left unconnecting
  have unstarted := held.started_nil rfl
  rw [List.append_nil, enters, if_pos rfl, List.append_nil]
  exact { held with
    alone := held.alone_set (fun _ same => (Option.some.inj same).symm)
      fun part now => Or.inr ⟨rfl, by cases now; exact Or.inl rfl⟩
    stands := Or.inr ⟨closed, Or.inl (Work.set_self _ _ _)⟩
    writer := rfl
    started := by rw [unstarted]; exact Nat.zero_le _
    unstarted := fun _ _ => unstarted
    entered := Nat.le_trans held.entered (Nat.zero_le _)
    detaching := held.detaching_set (by decide) }

theorem alone_leave (held : Held n place parts c log entered) (task : TaskId) :
    ∀ other part, parts.set task none other = some part →
      part = .detaches ∨ place.opener? = some other ∧ place.Allows part := by
  intro other part there
  rcases Work.set_cases _ _ _ there with ⟨-, now⟩ | ⟨-, before⟩
  · cases now
  · exact held.alone other part before

/-- Somebody takes the writing half out in an engine that is closed, if it is in its place. -/
theorem released (held : Held n place parts c log entered) (closed : c.state = .closed)
    (stands : place.inside = false → place.Stands (parts.set task none) c.state) :
    ∃ place', Held n place' (parts.set task none) c.release (log ++ [])
      (entered ++ c.enters c.release) := by
  have state : c.release.state = c.state := by
    unfold release
    split <;> rfl
  rw [List.append_nil, enters, if_pos state.symm, List.append_nil]
  by_cases inside : c.writer = true
  · have placed := held.writer.symm.trans inside
    cases place with
    | placed opener =>
      have taken : c.release = { c with writer := false, closes := c.closes + 1 } := if_pos inside
      refine ⟨.closed opener, ?_⟩
      rw [taken]
      exact { held with
        alone := held.alone_leave task
        stands := closed
        writer := rfl
        closes := congrArg (· + 1) held.closes
        unstarted := held.unstarted_set (by decide)
        detaching := held.detaching_set (by decide) }
    | _ => cases placed
  · have out : place.inside = false := held.writer.symm.trans (Bool.eq_false_iff.mpr inside)
    have kept : c.release = c := if_neg inside
    rw [kept]
    exact ⟨place, { held with
      alone := held.alone_leave task
      stands := stands out
      unstarted := held.unstarted_set (by decide)
      detaching := held.detaching_set (by decide) }⟩

theorem retracts (held : Held n place parts c log entered) (there : parts task = some .retracts) :
    ∃ place', Held n place' (parts.set task none) c.release (log ++ [])
      (entered ++ c.enters c.release) := by
  have stands := held.stands
  rcases held.eq_placed_or_closed there (Or.inl rfl) with rfl | rfl
  · rcases stands with ⟨-, other⟩ | ⟨closed, -⟩
    · exact absurd there other
    · exact held.released closed fun out => nomatch out
  · exact held.released stands fun _ => stands

theorem detaches (held : Held n place parts c log entered) (there : parts task = some .detaches) :
    ∃ place', Held n place' (parts.set task none) c.release (log ++ [])
      (entered ++ c.enters c.release) := by
  have closed : c.state = .closed :=
    held.shut.mpr (List.ne_nil_of_mem (held.detaching task there))
  refine held.released closed fun out => ?_
  -- The opener, if it still has to do with the link, is somebody else.
  have other : ∀ {opener part}, parts opener = some part → part ≠ .detaches →
      parts.set task none opener = some part := by
    intro opener part at_work different
    rw [Work.set_of_ne _ _ _ fun same => ?_, at_work]
    rw [same, there] at at_work
    exact different (Option.some.inj at_work).symm
  have stands := held.stands
  cases place with
  | nowhere => exact stands
  | awaited opener => exact ⟨other stands.1 (by decide), stands.2⟩
  | carried opener => exact ⟨other stands.1 (by decide), stands.2⟩
  | placed opener => cases out
  | closed opener => exact stands

/-- The opener has told the listeners, and nothing becomes of the writing half. -/
theorem stands_announced (held : Held n place parts c log entered)
    (there : parts task = some .announces) : place.Stands (parts.set task none) c.state := by
  have stands := held.stands
  rcases held.eq_placed_or_closed there (Or.inr rfl) with rfl | rfl
  · rcases stands with ⟨connected, -⟩ | ⟨closed, retracts | ⟨closer, detaches⟩⟩
    · exact Or.inl ⟨connected, by rw [Work.set_self]; decide⟩
    · cases there.symm.trans retracts
    · refine Or.inr ⟨closed, Or.inr ⟨closer, ?_⟩⟩
      rw [Work.set_of_ne _ _ _ fun same => ?_, detaches]
      rw [same, there] at detaches
      cases detaches
  · exact stands

theorem refuses (held : Held n place parts c log entered) (there : parts task = some .announces) :
    Held n place (parts.set task none) c (log ++ []) (entered ++ c.enters c) := by
  rw [List.append_nil, enters, if_pos rfl, List.append_nil]
  exact { held with
    alone := held.alone_leave task
    stands := held.stands_announced there
    unstarted := held.unstarted_set (by decide)
    detaching := held.detaching_set (by decide) }

theorem starts (held : Held n place parts c log entered) (there : parts task = some .announces) :
    Held n place (parts.set task none) c (log ++ [(task, .started)]) (entered ++ c.enters c) := by
  have kept : ∀ milestone, milestone ≠ .started →
      doers milestone (log ++ [(task, .started)]) = doers milestone log := by
    intro milestone other
    rw [doers_append, doers_singleton_of_ne other.symm, List.append_nil]
  have placed := held.eq_placed_or_closed there (Or.inr rfl)
  have unstarted := held.unstarted task there
  rw [enters, if_pos rfl, List.append_nil]
  exact { held with
    alone := held.alone_leave task
    stands := held.stands_announced there
    opened := (kept .opened (by decide)).trans held.opened
    started := by
      rw [doers_append, unstarted]
      rcases placed with rfl | rfl <;> exact Nat.le_refl 1
    unstarted := by
      -- Nobody but the opener announces anything.
      intro other announces
      rcases Work.set_cases _ _ _ announces with ⟨-, now⟩ | ⟨different, before⟩
      · cases now
      · rcases placed with rfl | rfl <;>
          rcases held.alone other _ before with same | ⟨same, -⟩ <;> cases same <;>
          exact absurd rfl different
    detaching := by
      rw [kept .shut (by decide)]
      exact held.detaching_set (by decide)
    once := by
      rw [kept .shut (by decide)]
      exact held.once
    shut := by
      rw [kept .shut (by decide)]
      exact held.shut }

theorem shuts (held : Held n place parts c log entered) (idle : parts task = none)
    (unclosed : c.state ≠ .closed) :
    Held n place (parts.set task (some .detaches)) { c with state := .closed }
      (log ++ [(task, .shut)]) (entered ++ c.enters { c with state := .closed }) := by
  have kept : ∀ milestone, milestone ≠ .shut →
      doers milestone (log ++ [(task, .shut)]) = doers milestone log := by
    intro milestone other
    rw [doers_append, doers_singleton_of_ne other.symm, List.append_nil]
  have unshut : doers .shut log = [] :=
    Classical.not_not.mp fun shut => unclosed (held.shut.mpr shut)
  have now : doers .shut (log ++ [(task, .shut)]) = [task] := by
    rw [doers_append, unshut]
    rfl
  have others : ∀ {opener part}, parts opener = some part →
      parts.set task (some .detaches) opener = some part := by
    intro opener part at_work
    rw [Work.set_of_ne _ _ _ fun same => ?_, at_work]
    rw [same, idle] at at_work
    cases at_work
  exact { held with
    alone := by
      intro other part there
      rcases Work.set_cases _ _ _ there with ⟨-, fresh⟩ | ⟨-, before⟩
      · exact Or.inl (Option.some.inj fresh).symm
      · exact held.alone other part before
    stands := by
      have stands := held.stands
      cases place with
      | nowhere => exact Or.inr rfl
      | awaited opener => exact ⟨others stands.1, Or.inr rfl⟩
      | carried opener => exact ⟨others stands.1, Or.inr rfl⟩
      | placed opener => exact Or.inr ⟨rfl, Or.inr ⟨task, Work.set_self _ _ _⟩⟩
      | closed opener => rfl
    opened := (kept .opened (by decide)).trans held.opened
    started := by
      rw [kept .started (by decide)]
      exact held.started
    unstarted := by
      rw [kept .started (by decide)]
      exact held.unstarted_set (by decide)
    entered := Nat.le_trans (Nat.le_of_eq (count_enters nofun)) held.entered
    detaching := by
      intro other there
      rw [now]
      rcases Work.set_cases _ _ _ there with ⟨same, -⟩ | ⟨-, before⟩
      · exact List.mem_singleton.mpr same
      · exact absurd (held.detaching other before) (by rw [unshut]; exact List.not_mem_nil)
    once := by rw [now]; exact Nat.le_refl 1
    shut := by
      rw [now]
      exact ⟨fun _ => List.cons_ne_nil _ _, fun _ => rfl⟩ }

/-! ## What follows -/

/-- As long as the link is being opened, exactly one call is at it. -/
theorem connecting (held : Held n place parts c log entered) (connecting : c.state = .connecting) :
    ∃ opener, (∃ part, parts opener = some part ∧ part ≠ .detaches) ∧
      ∀ other part, parts other = some part → part ≠ .detaches → other = opener := by
  have stands := held.stands
  rw [connecting] at stands
  have single : ∀ {opener}, place.opener? = some opener →
      ∀ other part, parts other = some part → part ≠ .detaches → other = opener := by
    intro opener mine other part there different
    rcases held.alone other part there with same | ⟨also, -⟩
    · exact absurd same different
    · exact Option.some.inj (also.symm.trans mine)
  cases place with
  | nowhere => rcases stands with same | same <;> cases same
  | awaited opener => exact ⟨opener, ⟨.opens, stands.1, by decide⟩, single rfl⟩
  | carried opener => exact ⟨opener, ⟨.carries, stands.1, by decide⟩, single rfl⟩
  | placed opener => rcases stands with ⟨same, -⟩ | ⟨same, -⟩ <;> cases same
  | closed opener => cases stands

/-- Once somebody opens the link, or has opened it, nobody else can try. -/
theorem tried (held : Held n place parts c log entered)
    (before : (∃ other part, parts other = some part ∧ part ≠ .detaches) ∨
      doers .opened log ≠ []) : c.state ≠ .disconnected := by
  intro disconnected
  obtain rfl := held.eq_nowhere disconnected
  rcases before with ⟨other, part, there, different⟩ | some
  · rcases held.alone other part there with same | ⟨none, -⟩
    · exact different same
    · cases none
  · exact some held.opened

theorem writer_of_connected (held : Held n place parts c log entered)
    (connected : c.state = .connected) : c.writer = true := by
  rw [held.writer]
  have stands := held.stands
  rw [connected] at stands
  cases place with
  | nowhere => rcases stands with same | same <;> cases same
  | awaited opener => rcases stands.2 with same | same <;> cases same
  | carried opener => rcases stands.2 with same | same <;> cases same
  | placed opener => rfl
  | closed opener => cases stands

/-- In an engine that is connected nobody has to do with the link but who has just opened it, and
tells the listeners. -/
theorem eq_announces_of_connected (held : Held n place parts c log entered)
    (connected : c.state = .connected) {part : Part} (there : parts task = some part) :
    part = .announces := by
  have stands := held.stands
  rw [connected] at stands
  rcases held.alone task part there with rfl | ⟨mine, allows⟩
  · have closed := held.shut.mpr (List.ne_nil_of_mem (held.detaching task there))
    cases connected.symm.trans closed
  · cases place with
    | nowhere => cases mine
    | awaited opener => rcases stands.2 with same | same <;> cases same
    | carried opener => rcases stands.2 with same | same <;> cases same
    | closed opener => cases stands
    | placed opener =>
      obtain rfl := Option.some.inj mine
      rcases allows with rfl | announces
      · rcases stands with ⟨-, other⟩ | ⟨same, -⟩
        · exact absurd there other
        · cases same
      · exact announces

/-- As long as the writing half is in its place the link has not been closed. -/
theorem closes_of_writer (held : Held n place parts c log entered) (there : c.writer = true) :
    c.closes = n := by
  have inside := held.writer.symm.trans there
  rw [held.closes]
  cases place with
  | placed opener => rfl
  | _ => cases inside

/-- A link that has been opened is closed at most once. -/
theorem closes_le (held : Held n place parts c log entered) :
    c.closes ≤ n + (doers .opened log).length := by
  rw [held.closes, held.opened]
  cases place with
  | closed opener => exact Nat.le_refl _
  | _ => exact Nat.le_add_right _ _

/-- It has been closed when those who have opened the link and closed the engine are gone. -/
theorem closed_of_gone (held : Held n place parts c log entered) {opener closer : TaskId}
    (opened : opener ∈ doers .opened log) (shut : closer ∈ doers .shut log)
    (opener_gone : parts opener = none) (closer_gone : parts closer = none) :
    c.closes = n + 1 ∧ c.writer = false := by
  have closed : c.state = .closed := held.shut.mpr (List.ne_nil_of_mem shut)
  have stands := held.stands
  rw [closed] at stands
  rw [held.opened] at opened
  rw [held.closes, held.writer]
  cases place with
  | nowhere => cases opened
  | awaited other => cases opened
  | carried other =>
    cases List.mem_singleton.mp opened
    cases opener_gone.symm.trans stands.1
  | placed other =>
    cases List.mem_singleton.mp opened
    rcases stands with ⟨same, -⟩ | ⟨-, retracts | ⟨another, detaches⟩⟩
    · cases same
    · cases opener_gone.symm.trans retracts
    · -- Nobody else has closed the engine.
      obtain ⟨only, all⟩ := List.length_eq_one_iff.mp
        (Nat.le_antisymm held.once (List.length_pos_of_mem shut))
      have same := held.detaching another detaches
      rw [all, List.mem_singleton] at same shut
      rw [same, ← shut] at detaches
      cases closer_gone.symm.trans detaches
  | closed other => exact ⟨rfl, rfl⟩

end Held

/-- Every move keeps account of the writing half. -/
theorem held_move {n : Nat} {place : Place} {parts : Work Part} {c c' : Custody}
    {log : List (TaskId × Milestone)} {entered : List ConnectionState}
    (held : Held n place parts c log entered) {task : TaskId} {done : List Milestone}
    {part? : Option Part} (move : Move (parts task) c done part? c') :
    ∃ place', Held n place' (parts.set task part?) c'
      (log ++ done.map fun milestone => (task, milestone)) (entered ++ c.enters c') := by
  generalize before : parts task = part₀ at move
  cases move with
  | rests => exact ⟨_, before ▸ held.rests task⟩
  | tries disconnected => exact ⟨_, held.tries disconnected⟩
  | opens => exact ⟨_, held.opens before⟩
  | fails => exact ⟨_, held.fails before⟩
  | installs connecting => exact ⟨_, held.installs before connecting⟩
  | withdraws unconnecting => exact ⟨_, held.withdraws before unconnecting⟩
  | retracts => exact held.retracts before
  | detaches => exact held.detaches before
  | refuses => exact ⟨_, held.refuses before⟩
  | starts => exact ⟨_, held.starts before⟩
  | shuts unclosed => exact ⟨_, held.shuts before unclosed⟩

end Custody

end HardwareSigner
