import HardwareSigner.Proofs.Client.Session

/-!
# What a client's calls bring

An event that is taken out of the client's mailbox is what the call under way is told, and the other
way round. So the events that the calls have returned or counted are those that have been taken out,
in the same order (`Brings`). A call that is told of no event is told the truth about the mailbox
(`Told.Agrees`).

> `Session.brings_move`: what a move brings.
> `Session.brings_run`: what a run brings.
> `Session.told_of_take`, `Session.told_of_drain`, `Session.told_of_waiting`, …: what a call is told
> that comes for events.
-/

namespace HardwareSigner

open Engine (Site Deed machine Lawful hands)

variable {M : Type}

/-- The events that a call has returned, or only counted. -/
def Told.Covers (told : Told M) (events : List (Event M)) : Prop :=
  match told.request, told.outcome with
  | .discard, .count count => events.length = count
  | _, .found (.received (.ok event)) => events = [event]
  | _, .found (.event? event?) => events = event?.toList
  | _, .found (.events all) => events = all
  | _, _ => events = []

/-- What a call without an event says of the mailbox is so. -/
structure Told.Agrees (told : Told M) (box : MailboxId) (r : Registry M) : Prop where
  unconnected : told.outcome = .found (.received (.error .notConnected)) →
    r.closed box = true ∧ r.queued box = []
  timedOut : ∀ after, told.outcome = .found (.received (.error (.timedOut after))) →
    r.closed box = false ∧ r.queued box = []
  nothing : told.outcome = .found (.event? none) →
    r.queued box = [] ∧ (told.request = .next → r.closed box = true)
  pending : told.request = .pending → told.outcome = .count (r.queued box).length

/-- The events of several calls, in the order of the calls. -/
inductive Covered : List (Told M) → List (Event M) → Prop
  | nil : Covered [] []
  | cons {told : Told M} {later : List (Told M)} {events others : List (Event M)}
      (covers : told.Covers events) (rest : Covered later others) :
      Covered (told :: later) (events ++ others)

theorem Covered.one {told : Told M} {events : List (Event M)} (covers : told.Covers events) :
    Covered [told] events := by
  have covered := Covered.cons covers .nil
  rwa [List.append_nil] at covered

theorem Covered.append {first second : List (Told M)} {events others : List (Event M)}
    (covered : Covered first events) (covered' : Covered second others) :
    Covered (first ++ second) (events ++ others) := by
  induction covered with
  | nil => exact covered'
  | cons covers _ ih =>
    rw [List.append_assoc]
    exact .cons covers ih

/-! ## What is said of a mailbox -/

/-- A receiver gives up only if there is nothing. -/
theorem Receiving.unserved_of_poll {waiting : Receiving} {clock : Nat} {r after : Registry M}
    {receipt : Receipt M} (polled : waiting.poll clock r = some (receipt, after)) :
    (∃ event, receipt = .arrived event) ∨
      after = r ∧ r.queued waiting.box = [] ∧
        ((receipt = .closed ∧ r.closed waiting.box = true) ∨
          (∃ time, receipt = .timedOut time) ∧ waiting.limit?.isSome = true ∧
            r.closed waiting.box = false) := by
  unfold poll at polled
  split at polled
  next event rest _ =>
    cases polled
    exact Or.inl ⟨event, rfl⟩
  next nothing =>
    have empty := Registry.receive?_eq_none_iff.mp nothing
    refine Or.inr ?_
    split at polled
    next closed =>
      cases polled
      exact ⟨rfl, empty, Or.inl ⟨rfl, closed⟩⟩
    next unclosed =>
      split at polled
      next => cases polled
      next latest time limit =>
        split at polled
        next =>
          cases polled
          exact ⟨rfl, empty, Or.inr ⟨⟨time, rfl⟩, by rw [limit]; rfl,
            Bool.eq_false_iff.mpr unclosed⟩⟩
        next => cases polled

namespace Told

variable {c : Client} {request : ClientRequest M}

/-- Who neither reports that there is no event nor is asked how many there are says nothing of the
mailbox. -/
theorem Agrees.of_spoken {told : Told M} {box : MailboxId} {r : Registry M}
    (unreceived : ∀ outcome, told.outcome ≠ .found (.received outcome))
    (something : told.outcome ≠ .found (.event? none)) (unasked : told.request ≠ .pending) :
    told.Agrees box r where
  unconnected same := absurd same (unreceived _)
  timedOut _ same := absurd same (unreceived _)
  nothing same := absurd same something
  pending same := absurd same unasked

/-- A call that has come to an end without waiting for an event. -/
theorem of_call (box : MailboxId) (unprompted : request.prompt = false) (answer : EngineCall.Answer)
    (wrote : List Bytes) (r : Registry M) :
    (⟨request, c.tells request (.call answer), wrote⟩ : Told M).Covers [] ∧
      (⟨request, c.tells request (.call answer), wrote⟩ : Told M).Agrees box r := by
  rw [Client.tells_call]
  have waits : request ≠ .pending := by
    rintro rfl
    cases unprompted
  constructor
  · cases request with
    | discard => cases unprompted
    | _ => cases answer <;> rfl
  · exact .of_spoken (fun outcome same => by cases answer <;> cases same)
      (fun same => by cases answer <;> cases same) waits

/-- A call that has been given up. -/
theorem of_blocked (box : MailboxId) (unprompted : request.prompt = false) (wrote : List Bytes)
    (r : Registry M) :
    (⟨request, .blocked, wrote⟩ : Told M).Covers [] ∧
      (⟨request, .blocked, wrote⟩ : Told M).Agrees box r := by
  refine ⟨by cases request <;> rfl, .of_spoken (fun _ same => nomatch same)
    (fun same => nomatch same) ?_⟩
  rintro rfl
  cases unprompted

/-- A call that has waited for an event. -/
theorem of_receipt {limit? : Option (Nat × Duration)}
    (unlimited : c.kind = .polling → request = .next → limit? = none)
    (unprompted : request.prompt = false) {clock : Nat} {r after : Registry M} {receipt : Receipt M}
    (polled : Receiving.poll ⟨c.box, limit?⟩ clock r = some (receipt, after)) (wrote : List Bytes) :
    (⟨request, c.tells request (.receipt receipt), wrote⟩ : Told M).Covers receipt.event?.toList ∧
      (⟨request, c.tells request (.receipt receipt), wrote⟩ : Told M).Agrees c.box after := by
  have waits : request ≠ .pending := by
    rintro rfl
    cases unprompted
  have unserved := Receiving.unserved_of_poll polled
  rcases c.tells_receipt request receipt with ⟨⟨polling, rfl⟩, tells⟩ | tells
  · rw [tells]
    refine ⟨rfl, (fun same => nomatch same), (fun _ same => nomatch same), fun same => ?_,
      fun same => nomatch same⟩
    rcases unserved with ⟨event, rfl⟩ | ⟨rfl, empty, ⟨-, closed⟩ | ⟨-, limited, -⟩⟩
    · cases same
    · exact ⟨empty, fun _ => closed⟩
    · rw [unlimited polling rfl] at limited
      cases limited
  · rw [tells]
    refine ⟨?_, fun same => ?_, fun time same => ?_, (fun same => nomatch same),
      fun same => absurd same waits⟩
    · cases request with
      | discard => cases unprompted
      | _ => cases receipt <;> rfl
    · rcases unserved with ⟨event, rfl⟩ | ⟨rfl, empty, ⟨rfl, closed⟩ | ⟨⟨time, rfl⟩, -⟩⟩
      · cases same
      · exact ⟨closed, empty⟩
      · cases same
    · rcases unserved with ⟨event, rfl⟩ | ⟨rfl, empty, ⟨rfl, -⟩ | ⟨-, -, unclosed⟩⟩
      · cases same
      · cases same
      · exact ⟨unclosed, empty⟩

end Told

/-! ## What a move brings -/

namespace Session

/-- Between two states of a session the client has been told of what has been taken out. -/
structure Brings (box : MailboxId) (s later : Session M) (new : List (Told M))
    (events : List (Event M)) : Prop where
  told : later.told = s.told ++ new
  taken : later.site.state.registry.taken box = s.site.state.registry.taken box ++ events
  covered : Covered new events

section

variable {c : Client} {s : Session M} {deed : Deed M} {request : ClientRequest M} {task : TaskId}
  {found : EngineTask M}

theorem Brings.refl (box : MailboxId) (s : Session M) : Brings box s s [] [] :=
  ⟨(List.append_nil _).symm, (List.append_nil _).symm, .nil⟩

theorem Brings.trans {box : MailboxId} {u v w : Session M} {new more : List (Told M)}
    {events others : List (Event M)} (first : Brings box u v new events)
    (second : Brings box v w more others) : Brings box u w (new ++ more) (events ++ others) where
  told := by rw [second.told, first.told, List.append_assoc]
  taken := by rw [second.taken, first.taken, List.append_assoc]
  covered := first.covered.append second.covered

/-- A call that a step ends is told of the event that the step takes out, if there is one. -/
theorem covers_of_finished {answer : EngineTask.Answer M} (serves : found.Serves c request)
    (unprompted : request.prompt = false) (at_work : s.site.phase? task = some found)
    (finished : (machine.step task s.site.clock found s.site.state).next = .inr answer)
    (wrote : List Bytes) :
    (⟨request, c.tells request answer, wrote⟩ : Told M).Covers (hands c.box s.site (.run task)) ∧
      (⟨request, c.tells request answer, wrote⟩ : Told M).Agrees c.box
        (s.site.run machine task).state.registry := by
  have steps : EngineTask.Steps task s.site.clock s.site.state found (.inr answer) :=
    finished ▸ EngineTask.steps task s.site.clock s.site.state found
  have unhanded : (∀ waiting, found ≠ .receive waiting) → hands c.box s.site (.run task) = [] :=
    fun calls => Engine.hands_of_unpolled fun waiting there =>
      absurd (Option.some.inj (at_work.symm.trans there)) (calls waiting)
  cases steps with
  | called turn =>
    rw [unhanded fun waiting same => nomatch same]
    exact Told.of_call c.box unprompted _ wrote _
  | fails box ms turn failed =>
    rw [unhanded fun waiting same => nomatch same]
    exact Told.of_call c.box unprompted _ wrote _
  | stops reading => cases serves
  | rests latest => cases serves
  | receives polled =>
    cases serves with
    | receive limit? unlimited =>
      rw [(Engine.state_run_receive at_work polled).1, Engine.hands_of_polled at_work polled]
      exact Told.of_receipt unlimited unprompted polled wrote

/-- With a move at most one call is over. What it is told is true, and no event is lost. -/
structure Moved (c : Client) (s later : Session M) (told? : Option (Told M))
    (events : List (Event M)) : Prop where
  brings : Brings c.box s later told?.toList events
  agrees : ∀ told, told? = some told → told.Agrees c.box later.site.state.registry

theorem moved_of_untold {later : Session M} (untold : later.told = s.told)
    (taken : later.site.state.registry.taken c.box = s.site.state.registry.taken c.box) :
    ∃ told? events, Moved c s later told? events :=
  ⟨none, [], ⟨untold.trans (List.append_nil _).symm, taken.trans (List.append_nil _).symm, .nil⟩,
    fun _ same => nomatch same⟩

theorem moved_of_told {later : Session M} {told : Told M} {events : List (Event M)}
    (ended : later.told = s.told ++ [told])
    (taken : later.site.state.registry.taken c.box =
      s.site.state.registry.taken c.box ++ events)
    (covers : told.Covers events) (agrees : told.Agrees c.box later.site.state.registry) :
    ∃ told? events, Moved c s later told? events := by
  refine ⟨some told, events, ⟨ended, taken, .one covers⟩, fun other same => ?_⟩
  cases same
  exact agrees

theorem moved_of_deed {later : Session M} (sound : Sound c s) (met : Met c s deed later) :
    ∃ told? events, Moved c s later told? events := by
  have taken := Engine.taken_apply sound.known deed
  cases met with
  | stays unhanded still =>
    rw [unhanded, List.append_nil] at taken
    exact moved_of_untold rfl taken
  | goesOn under at_work ready onward there unhanded =>
    rw [unhanded, List.append_nil] at taken
    exact moved_of_untold rfl taken
  | givenUp under =>
    obtain ⟨covers, agrees⟩ := Told.of_blocked c.box (sound.waits _ _ under) _ _
    exact moved_of_told rfl taken covers agrees
  | @returns request task found answer under at_work ready finished =>
    obtain ⟨before, same, serves⟩ := sound.working request task under
    cases at_work.symm.trans same
    obtain ⟨covers, agrees⟩ := covers_of_finished serves (sound.waits request task under) at_work
      finished (s.after (.run task)).wrote
    exact moved_of_told rfl taken covers agrees

/-- Who takes the oldest event and finds none has looked into an empty mailbox. -/
theorem agrees_of_take (r : Registry M) (box : MailboxId) (wrote : List Bytes) :
    (⟨.take, .found (.event? ((r.receive? box).map Prod.fst)), wrote⟩ : Told M).Agrees box
      (r.act (.take box)) where
  unconnected same := nomatch same
  timedOut _ same := nomatch same
  pending same := nomatch same
  nothing same := by
    have none : r.receive? box = none :=
      Option.map_eq_none_iff.mp (Finding.event?.inj (EngineOutcome.found.inj same))
    rw [Registry.queued_take, Registry.receive?_eq_none_iff.mp none]
    exact ⟨rfl, fun next => nomatch next⟩

theorem moved_of_ask (sound : Sound c s) (request : ClientRequest M) :
    ∃ told? events, Moved c s (s.ask c request) told? events := by
  unfold ask
  split
  next found meets => exact moved_of_untold rfl rfl
  next prompt =>
    have taken := fun act => Engine.taken_apply sound.known (.outside (.listeners act))
    cases request with
    | take =>
      have handed : hands c.box s.site (.outside (.listeners (.take c.box))) =
          ((s.site.state.registry.receive? c.box).map Prod.fst).toList := if_pos rfl
      exact moved_of_told rfl (taken _) (handed ▸ rfl) (agrees_of_take _ _ _)
    | drain =>
      have handed : hands c.box s.site (.outside (.listeners (.drain c.box))) =
          (s.site.state.registry.drain c.box).1 := if_pos rfl
      exact moved_of_told rfl (taken _) (handed ▸ rfl) (.of_spoken (fun _ same => nomatch same)
        (fun same => nomatch same) fun same => nomatch same)
    | discard =>
      have handed : hands c.box s.site (.outside (.listeners (.drain c.box))) =
          s.site.state.registry.queued c.box := if_pos rfl
      refine moved_of_told rfl (taken _) ?_ (.of_spoken (fun _ same => nomatch same)
        (fun same => nomatch same) fun same => nomatch same)
      rw [handed]
      exact (s.site.state.registry.pending_eq_length c.box).symm
    | pending =>
      refine moved_of_told rfl (List.append_nil _).symm rfl ⟨(fun same => nomatch same),
        (fun _ same => nomatch same), (fun same => nomatch same), fun _ => ?_⟩
      exact congrArg _ (s.site.state.registry.pending_eq_length c.box)
    | state =>
      exact moved_of_told rfl (List.append_nil _).symm rfl (.of_spoken (fun _ same => nomatch same)
        (fun same => nomatch same) fun same => nomatch same)
    | _ => cases prompt

/-! ## What a receiving call is told -/

/-- Who looks into the mailbox is told of the oldest event, and the others stay. -/
theorem told_of_take (c : Client) (s : Session M) :
    (s.ask c .take).told =
        s.told ++ [⟨.take, .found (.event? (s.site.state.registry.queued c.box).head?), []⟩] ∧
      (s.ask c .take).site.state.registry.queued c.box =
        (s.site.state.registry.queued c.box).tail := by
  rw [← Registry.map_receive?, ← Registry.queued_take]
  exact ⟨rfl, rfl⟩

/-- Who drains the mailbox is told of all its events, and none stays. -/
theorem told_of_drain (c : Client) (s : Session M) :
    (s.ask c .drain).told =
        s.told ++ [⟨.drain, .found (.events (s.site.state.registry.queued c.box)), []⟩] ∧
      (s.ask c .drain).site.state.registry.queued c.box = [] :=
  ⟨rfl, s.site.state.registry.queued_drain c.box⟩

/-- Who discards them is told how many there were. -/
theorem told_of_discard (c : Client) (s : Session M) :
    (s.ask c .discard).told =
        s.told ++ [⟨.discard, .count (s.site.state.registry.queued c.box).length, []⟩] ∧
      (s.ask c .discard).site.state.registry.queued c.box = [] := by
  rw [← Registry.pending_eq_length]
  exact ⟨rfl, s.site.state.registry.queued_drain c.box⟩

/-- A call that waits has the oldest event with its next step, if there is one. -/
theorem told_of_queued (sound : Sound c s) (under : s.call? = some (request, task))
    {waiting : Receiving} (at_work : s.site.phase? task = some (.receive waiting))
    {event : Event M} {rest : List (Event M)}
    (queued : s.site.state.registry.queued c.box = event :: rest) :
    (s.move c (.deed (.run task))).told =
      s.told ++ [⟨request, c.tells request (.receipt (.arrived event)), s.wrote⟩] := by
  have mine : waiting.box = c.box := by
    obtain ⟨found, there, serves⟩ := sound.working request task under
    cases at_work.symm.trans there
    cases serves
    rfl
  rw [← mine] at queued
  obtain ⟨after, polled⟩ := Engine.poll_of_queued queued s.site.clock
  have ready : machine.ready task s.site.clock (.receive waiting) s.site.state = true := by
    show (waiting.poll s.site.clock s.site.state.registry).isSome = true
    rw [polled]
    rfl
  have finished : (machine.step task s.site.clock (.receive waiting) s.site.state).next =
      .inr (.receipt (.arrived event)) := by
    show (EngineTask.step task s.site.clock (.receive waiting) s.site.state).next = _
    simp only [EngineTask.step, polled]
  have unwritten : (s.after (.run task)).wrote = s.wrote := by
    rw [wrote_after_run under, (Engine.state_run_receive at_work polled).1, List.drop_length,
      List.append_nil]
  rw [move_of_finished sound under at_work ready finished, unwritten]
  rfl

/-- A call that does nothing but wait has it with its first step. -/
theorem told_of_waiting (sound : Sound c s) (idle : s.call? = none)
    (waits : request = .next ∨ ∃ ms, request = .poll ms) {event : Event M}
    {rest : List (Event M)} (queued : s.site.state.registry.queued c.box = event :: rest) :
    ((s.ask c request).move c (.deed (.run s.site.next))).told =
      s.told ++ [⟨request, c.tells request (.receipt (.arrived event)), []⟩] := by
  obtain ⟨waiting, meets⟩ : ∃ waiting,
      c.task? s.site.state.codec s.site.clock request = some (.receive waiting) := by
    rcases waits with rfl | ⟨ms, rfl⟩
    · show ∃ waiting, some (c.nextTask s.site.clock) = some (.receive waiting)
      unfold Client.nextTask
      split
      next => exact ⟨_, rfl⟩
      next => exact ⟨_, rfl⟩
    · exact ⟨_, rfl⟩
  have at_work :
      (s.site.start (.receive waiting)).phase? s.site.next = some (.receive waiting) := by
    rw [World.phase?_start sound.numbered, Work.set_self]
  have asked : Sound c (s.ask c request) := sound_ask sound idle
  unfold ask at asked ⊢
  simp only [meets] at asked ⊢
  exact told_of_queued asked rfl at_work queued

/-- What comes of a move. -/
theorem moved_move {next : Move M} (sound : Sound c s) (allowed : s.Allowed c next) :
    ∃ told? events, Moved c s (s.move c next) told? events := by
  cases next with
  | ask request => exact moved_of_ask sound request
  | deed deed => exact moved_of_deed sound (met sound allowed.2)

/-- What comes of a run. -/
theorem brings_run {moves : List (Move M)} (sound : Sound c s) (obeys : s.Obeys c moves) :
    ∃ new events, Brings c.box s (s.run c moves) new events := by
  induction moves generalizing s with
  | nil => exact ⟨[], [], Brings.refl c.box s⟩
  | cons next rest ih =>
    obtain ⟨told?, events, moved⟩ := moved_move sound obeys.1
    obtain ⟨new, others, brings⟩ := ih (sound_move sound obeys.1) obeys.2
    exact ⟨_, _, moved.brings.trans brings⟩

/-- What was waiting and what comes in goes to the calls first and then waits, in this order. -/
theorem Brings.flows {later : Session M} {new : List (Told M)} {events : List (Event M)}
    (brings : Brings c.box s later new events) {given : List (Event M)}
    (accepted : later.site.state.registry.accepted c.box =
      s.site.state.registry.accepted c.box ++ given) :
    s.site.state.registry.queued c.box ++ given =
      events ++ later.site.state.registry.queued c.box := by
  rw [Registry.accepted_eq, Registry.accepted_eq, brings.taken, List.append_assoc,
    List.append_assoc] at accepted
  exact (List.append_cancel_left accepted).symm

end

end Session

end HardwareSigner
