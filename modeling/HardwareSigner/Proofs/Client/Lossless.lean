import HardwareSigner.Proofs.Client.Connecting
import HardwareSigner.Proofs.Client.Frames
import HardwareSigner.Proofs.Client.Replies

/-!
# A client loses no event

Whatever becomes of a client's calls, and whatever happens beside them: the events that the calls
have returned or counted and those that still wait are the events that the mailbox has been given.
In particular a call that fails leaves the mailbox alone, so what arrives after a timeout is there
for the next call: whichever call comes for events, it is told of those that wait, the oldest first.

> `Session.loses_no_event`: this is so in every session.
-/

namespace HardwareSigner

open Engine (Site Deed machine Elsewhere returned)

variable {M : Type}

/-- A call that has failed, or has been given up. -/
def Told.Failed (told : Told M) : Prop :=
  told.outcome = .blocked ∨ (∃ failure, told.outcome = .done (.error failure)) ∨
    ∃ failure, told.outcome = .found (.received (.error failure))

theorem Told.eq_nil_of_failed {told : Told M} {events : List (Event M)} (failed : told.Failed)
    (covers : told.Covers events) : events = [] := by
  obtain ⟨request, outcome, wrote⟩ := told
  rcases failed with rfl | ⟨failure, rfl⟩ | ⟨failure, rfl⟩ <;> cases request <;> exact covers

/-- Whoever has waited for an event that is there is told of it. -/
theorem Client.tells_arrived (c : Client) (request : ClientRequest M) (event : Event M) :
    ∃ finding, c.tells request (.receipt (.arrived event)) = .found finding ∧
      (finding = .received (.ok event) ∨ finding = .event? (some event)) := by
  rcases c.tells_receipt request (.arrived event) with ⟨-, tells⟩ | tells
  · exact ⟨_, tells, Or.inr rfl⟩
  · exact ⟨_, tells, Or.inl rfl⟩

theorem Covered.covers {told : Told M} {events : List (Event M)} (covered : Covered [told] events) :
    told.Covers events := by
  cases covered with
  | cons covers rest =>
    cases rest
    rwa [List.append_nil]

namespace Session

/-- The events that the client's mailbox has been given, in this order. -/
def accepted (c : Client) (s : Session M) : List (Event M) := s.site.state.registry.accepted c.box

/-- The events that wait in it. -/
def queued (c : Client) (s : Session M) : List (Event M) := s.site.state.registry.queued c.box

/-- What comes of a client's calls in a session. -/
structure Lossless (c : Client) (codec : RequestCodec M) (start : Session M)
    (moves : List (Move M)) : Prop where
  /-- The events that the calls have returned or counted, in the order of the calls, and those that
  still wait are the events that the mailbox has been given. -/
  whole : ∀ last, last = start.run c moves → ∃ events, Covered last.told events ∧
    last.accepted c = events ++ last.queued c
  /-- So it is from any point to any later one. -/
  flows : ∀ earlier later, moves = earlier ++ later →
    ∀ u v, u = start.run c earlier → v = u.run c later →
    ∃ new events given, v.told = u.told ++ new ∧ Covered new events ∧
      v.accepted c = u.accepted c ++ given ∧ u.queued c ++ given = events ++ v.queued c
  /-- With a move at most one call is over. What it says of the mailbox is so, and if it has failed
  nothing has been taken out. -/
  truthful : ∀ earlier next later, moves = earlier ++ next :: later →
    ∀ u v, u = start.run c earlier → v = u.move c next →
    v.told = u.told ∨ ∃ told, v.told = u.told ++ [told] ∧
      told.Agrees c.box v.site.state.registry ∧ (told.Failed → u.queued c <+: v.queued c)
  /-- What arrives after a timeout is what later calls return, from the first one on. -/
  late : ∀ earlier next later, moves = earlier ++ next :: later →
    ∀ u v w, u = start.run c earlier → v = u.move c next → w = v.run c later →
    ∀ told time, v.told = u.told ++ [told] →
    told.outcome = .found (.received (.error (.timedOut time))) →
    ∃ new events, w.told = v.told ++ new ∧ Covered new events ∧
      w.accepted c = v.accepted c ++ (events ++ w.queued c)
  /-- A blocking client's call waits for an event when the engine has done its part, unless it is to
  close the engine. -/
  waits : ∀ last, last = start.run c moves → ∀ request task ms,
    last.call? = some (request, task) → c.kind = .blocking ms → request ≠ .close →
    (∃ phase, last.site.phase? task = some (.exchange phase c.box ms)) ∨
      ∃ limit?, last.site.phase? task = some (.receive ⟨c.box, limit?⟩)
  /-- A call that waits for an event when there are some returns the oldest with its next step. -/
  served : ∀ last, last = start.run c moves → ∀ request task waiting event rest,
    last.call? = some (request, task) → last.site.phase? task = some (.receive waiting) →
    last.queued c = event :: rest →
    ∃ finding, (last.move c (.deed (.run task))).told =
        last.told ++ [⟨request, .found finding, last.wrote⟩] ∧
      (finding = .received (.ok event) ∨ finding = .event? (some event))
  /-- So a call that does nothing but wait returns it with its first step. -/
  receives : ∀ last, last = start.run c moves → last.call? = none → ∀ request event rest,
    request = .next ∨ (∃ ms, request = .poll ms) → last.queued c = event :: rest →
    ∃ finding, (last.run c [.ask request, .deed (.run last.site.next)]).told =
        last.told ++ [⟨request, .found finding, []⟩] ∧
      (finding = .received (.ok event) ∨ finding = .event? (some event))
  /-- A call that only looks into the mailbox takes the oldest event out, if there is one. -/
  takes : ∀ last next, last = start.run c moves → next = last.move c (.ask .take) →
    next.told = last.told ++ [⟨.take, .found (.event? (last.queued c).head?), []⟩] ∧
      next.queued c = (last.queued c).tail
  /-- Draining the mailbox gives all the events that wait, in their order. -/
  drains : ∀ last next, last = start.run c moves → next = last.move c (.ask .drain) →
    next.told = last.told ++ [⟨.drain, .found (.events (last.queued c)), []⟩] ∧
      next.queued c = []
  /-- Discarding them gives only their number. -/
  discards : ∀ last next, last = start.run c moves → next = last.move c (.ask .discard) →
    next.told = last.told ++ [⟨.discard, .count (last.queued c).length, []⟩] ∧
      next.queued c = []
  /-- Whoever waits for an event after sending a message has written its frame, and nothing else. -/
  written : ∀ last, last = start.run c moves → ∀ request task message waiting,
    last.call? = some (request, task) → c.message? codec request = some message →
    last.site.phase? task = some (.receive waiting) →
    ∃ frame, codec.encode message = .ok frame ∧ last.wrote = [frame]
  /-- So has who has waited, and who has failed before has written nothing. -/
  posts : ∀ told ∈ (start.run c moves).told, ∀ message,
    c.message? codec told.request = some message → told.Posts codec message
  /-- In an engine that is not connected the call fails at once and changes nothing. -/
  unconnected : ∀ last, last = start.run c moves → ∀ request task message,
    last.call? = some (request, task) → c.message? codec request = some message →
    last.site.phase? task = some (c.requestTask (.send message)) →
    last.site.state.state ≠ .connected →
    (last.move c (.deed (.run task))).told =
        last.told ++ [⟨request, .done (.error .notConnected), []⟩] ∧
      (last.move c (.deed (.run task))).site.state = last.site.state

section

variable {c : Client} {s : Session M} {codec : RequestCodec M} {moves later : List (Move M)}

/-- A mailbox is given nothing in front of what it has been given. -/
theorem accepted_run (sound : Sound c s) (obeys : s.Obeys c later) :
    ∃ given, (s.run c later).accepted c = s.accepted c ++ given := by
  obtain ⟨deeds, lawful, run⟩ := site_run obeys
  obtain ⟨told, tried, kept⟩ := sound.kept
  obtain ⟨given, more⟩ := (Engine.keeps_mailboxes kept lawful c.box).2
  rw [← run] at more
  exact ⟨given, more.symm⟩

/-- What a run brings. -/
theorem flows_run (sound : Sound c s) (obeys : s.Obeys c later) :
    ∃ new events given, (s.run c later).told = s.told ++ new ∧ Covered new events ∧
      (s.run c later).accepted c = s.accepted c ++ given ∧
      s.queued c ++ given = events ++ (s.run c later).queued c := by
  obtain ⟨new, events, brings⟩ := brings_run sound obeys
  obtain ⟨given, more⟩ := accepted_run sound obeys
  exact ⟨new, events, given, brings.told, brings.covered, more, brings.flows more⟩

/-- A call that is over says of the mailbox what is so, and has left it alone if it has failed. -/
theorem over_of_told {next : Move M} {told : Told M} (sound : Sound c s)
    (allowed : s.Allowed c next) (ended : (s.move c next).told = s.told ++ [told]) :
    told.Agrees c.box (s.move c next).site.state.registry ∧
      (told.Failed → s.queued c <+: (s.move c next).queued c) := by
  obtain ⟨told?, events, moved⟩ := moved_move sound allowed
  have same : told? = some told := by
    have both := List.append_cancel_left (ended.symm.trans moved.brings.told)
    cases told? with
    | none => cases both
    | some other => rw [List.singleton_inj.mp both]
  subst same
  refine ⟨moved.agrees told rfl, fun failed => ?_⟩
  have single : s.Obeys c [next] := ⟨allowed, trivial⟩
  obtain ⟨given, more⟩ := accepted_run sound single
  have flows := moved.brings.flows more
  rw [Told.eq_nil_of_failed failed moved.brings.covered.covers, List.nil_append] at flows
  exact ⟨given, flows⟩

/-- What comes of a session that begins with an empty mailbox. -/
theorem lossless_of_sound (sound : Sound c s) (posts : Posts c codec s) (untold : s.told = [])
    (empty : s.accepted c = []) (obeys : s.Obeys c moves) : Lossless c codec s moves where
  whole := by
    rintro last rfl
    obtain ⟨new, events, given, told, covered, accepted, flows⟩ := flows_run sound obeys
    have unqueued : s.queued c = [] := by
      have nothing : s.site.state.registry.accepted c.box = [] := empty
      rw [Registry.accepted_eq] at nothing
      exact (List.append_eq_nil_iff.mp nothing).2
    rw [untold, List.nil_append] at told
    rw [unqueued, List.nil_append] at flows
    rw [empty, List.nil_append] at accepted
    exact ⟨events, told ▸ covered, accepted.trans flows⟩
  flows := by
    rintro earlier later rfl u v rfl rfl
    obtain ⟨before, after⟩ := obeys_append.mp obeys
    exact flows_run (sound_run sound before) after
  truthful := by
    rintro earlier next later rfl u v rfl rfl
    obtain ⟨before, allowed, -⟩ := obeys_append.mp obeys
    have sound := sound_run sound before
    obtain ⟨told?, events, moved⟩ := moved_move sound allowed
    cases told? with
    | none => exact Or.inl (moved.brings.told.trans (List.append_nil _))
    | some told =>
      exact Or.inr ⟨told, moved.brings.told, over_of_told sound allowed moved.brings.told⟩
  late := by
    rintro earlier next later rfl u v w rfl rfl rfl told time ended timedOut
    obtain ⟨before, allowed, after⟩ := obeys_append.mp obeys
    have sound := sound_run sound before
    have empty := ((over_of_told sound allowed ended).1.timedOut time timedOut).2
    obtain ⟨new, events, given, told, covered, accepted, flows⟩ :=
      flows_run (sound_move sound allowed) after
    -- Nothing was waiting when the time was up, so all that later calls return has come since.
    have none : (((s.run c earlier).move c next).queued c) = [] := empty
    rw [none, List.nil_append] at flows
    exact ⟨new, events, told, covered, flows ▸ accepted⟩
  waits := by
    rintro last rfl request task ms under blocking other
    obtain ⟨found, at_work, serves⟩ := (sound_run sound obeys).working request task under
    cases serves with
    | call phase unwaiting =>
      rcases unwaiting with polling | same
      · cases blocking.symm.trans polling
      · exact absurd same other
    | exchange phase also =>
      cases blocking.symm.trans also
      exact Or.inl ⟨phase, at_work⟩
    | receive limit? => exact Or.inr ⟨limit?, at_work⟩
  served := by
    rintro last rfl request task waiting event rest under at_work queued
    obtain ⟨finding, tells, served⟩ := c.tells_arrived request event
    have told := told_of_queued (sound_run sound obeys) under at_work queued
    exact ⟨finding, tells ▸ told, served⟩
  receives := by
    rintro last rfl idle request event rest waits queued
    obtain ⟨finding, tells, served⟩ := c.tells_arrived request event
    have told := told_of_waiting (sound_run sound obeys) idle waits queued
    exact ⟨finding, tells ▸ told, served⟩
  takes := by
    rintro last next rfl rfl
    exact told_of_take c (s.run c moves)
  drains := by
    rintro last next rfl rfl
    exact told_of_drain c (s.run c moves)
  discards := by
    rintro last next rfl rfl
    exact told_of_discard c (s.run c moves)
  written := by
    rintro last rfl request task message waiting under sends at_work
    exact wrote_of_waiting (posts_run posts sound obeys) under sends at_work
  posts := (posts_run posts sound obeys).told
  unconnected := by
    rintro last rfl request task message under sends at_work unconnected
    exact told_of_unconnected (posts_run posts sound obeys) (sound_run sound obeys) under sends
      at_work unconnected

/-- A client loses no event, however the engine has been used before and whatever happens beside his
calls, as long as his mailbox is left to him. -/
theorem loses_no_event (c : Client) (codec : RequestCodec M) (settings : EngineSettings)
    (link : ScriptedLink) {before : List (Deed M)} {w : Site M} {adder : TaskId}
    (begun : w = (World.ofState (Engine.create codec settings link)).applyAll machine before)
    (elsewhere : (World.ofState (Engine.create codec settings link)).Obeys machine
      (Elsewhere c.box) before)
    (added : (adder, .added (.ok c.box)) ∈ returned w (.run adder))
    (obeys : (attached w adder).Obeys c moves) : Lossless c codec (attached w adder) moves := by
  obtain ⟨sound, empty⟩ := sound_start codec settings link begun elsewhere added
  have lawful := elsewhere.mono fun _ _ rule => rule.1
  have encodes : (attached w adder).site.state.codec = codec := by
    have all : (World.ofState (Engine.create codec settings link)).Obeys machine Engine.Lawful
        (before ++ [.run adder]) := World.obeys_append.mpr ⟨lawful, trivial, trivial⟩
    have same := Engine.codec_applyAll (World.numbered_ofState _) all
    rw [World.applyAll_snoc, ← begun] at same
    exact same
  have posts : Posts c codec (attached w adder) :=
    ⟨encodes, (fun _ _ _ same => nomatch same), fun _ among => nomatch among⟩
  exact lossless_of_sound sound posts rfl empty obeys

end

/-- A listener is added to an engine. -/
def joining : List (Deed RawMessage) :=
  [.start (.call (.begin (.addListener Engine.impatient.id))), .run 0, .run 0]

/-- The session of the client whose listener that is. -/
def joined (w : Site RawMessage) : Session RawMessage := attached (w.applyAll machine joining) 0

/-- A client sends before he is connected, connects, and sends again. The answer comes when he has
given up waiting for it; his next call returns it. What comes after it he does not want to see. -/
def belated : List (Move RawMessage) :=
  [.ask (.ping "a"), .deed (.run 1), .ask .connect, .deed (.run 2), .deed (.run 2), .deed (.run 2),
    .deed (.run 2), .deed (.run 2), .deed (.run 2), .deed (.run 2), .deed (.run 2), .deed (.run 2),
    .ask (.send ⟨.ping, [1]⟩), .deed (.run 4), .deed (.run 4), .deed (.run 4), .deed (.wait 60),
    .deed (.run 4),
    .deed (.outside (.feed [.outcome (.ok (.data
      [0x23, 0x23, 0, 2, 0, 0, 0, 1, 7, 0x23, 0x23, 0, 2, 0, 0, 0, 1, 8]))])),
    .deed (.run 3), .deed (.run 3), .deed (.run 3), .deed (.run 3), .ask .next, .deed (.run 5),
    .deed (.run 3), .deed (.run 3), .deed (.run 3), .deed (.run 3), .ask .discard]

/-- An engine with many places in its mailboxes. -/
def spacious : Site RawMessage := World.ofState (Engine.create RawMessage.codec {} {})

/-- A client of it who looks into his mailbox when he likes. -/
def watchful : Client := { Engine.impatient with kind := .polling }

/-- The client connects, and drains his mailbox. Then he waits for an event, in vain. When three
have come, he takes out the first and drains the rest. -/
def collecting : List (Move RawMessage) :=
  [.ask .connect, .deed (.run 1), .deed (.run 1), .deed (.run 1), .deed (.run 1), .deed (.run 1),
    .deed (.run 1), .deed (.run 1), .deed (.run 1), .ask .drain,
    .ask (.poll 50), .deed (.wait 60), .deed (.run 3),
    .deed (.outside (.feed [.outcome (.ok (.data
      [0x23, 0x23, 0, 2, 0, 0, 0, 1, 7, 0x23, 0x23, 0, 2, 0, 0, 0, 1, 8,
        0x23, 0x23, 0, 2, 0, 0, 0, 1, 9]))])),
    .deed (.run 2), .deed (.run 2), .deed (.run 2), .deed (.run 2), .deed (.run 2), .deed (.run 2),
    .deed (.run 2), .deed (.run 2), .deed (.run 2), .deed (.run 2), .deed (.run 2), .deed (.run 2),
    .ask .take, .ask .drain]

theorem loses_no_event_belated :
    (Engine.cramped.Obeys machine (Elsewhere Engine.impatient.box) joining ∧
      (joined Engine.cramped).Obeys Engine.impatient belated ∧
      Lossless Engine.impatient RawMessage.codec (joined Engine.cramped) belated ∧
      ((joined Engine.cramped).run Engine.impatient belated).told.map
          (fun told => (told.outcome, told.wrote)) =
        [(.done (.error .notConnected), []),
          (.found (.received (.ok (.system .connected))), []),
          (.found (.received (.error (.timedOut (.ofMillis 50)))),
            [[0x23, 0x23, 0, 1, 0, 0, 0, 1, 1]]),
          (.found (.received (.ok (.message .success ⟨.success, [7]⟩))), []),
          (.count 1, [])]) ∧
      spacious.Obeys machine (Elsewhere watchful.box) joining ∧
      (joined spacious).Obeys watchful collecting ∧
      Lossless watchful RawMessage.codec (joined spacious) collecting ∧
      ((joined spacious).run watchful collecting).told.map Told.outcome =
        [.done (.ok ()), .found (.events [.system .connected]),
          .found (.received (.error (.timedOut (.ofMillis 50)))),
          .found (.event? (some (.message .success ⟨.success, [7]⟩))),
          .found (.events [.message .success ⟨.success, [8]⟩,
            .message .success ⟨.success, [9]⟩])] := by
  have own : ∀ (s : Session RawMessage) c task, s.Allowed c (.deed (.run task)) :=
    fun _ _ _ => ⟨trivial, trivial⟩
  have elsewhere : ∀ (w : Site RawMessage) box, w.Obeys machine (Elsewhere box) joining :=
    fun _ _ => ⟨⟨trivial, fun same => nomatch same⟩, ⟨trivial, trivial⟩, ⟨trivial, trivial⟩,
      trivial⟩
  have obeys : (joined Engine.cramped).Obeys Engine.impatient belated :=
    ⟨rfl, own _ _ _, rfl, own _ _ _, own _ _ _, own _ _ _, own _ _ _, own _ _ _, own _ _ _,
      own _ _ _, own _ _ _, own _ _ _, rfl, own _ _ _, own _ _ _, own _ _ _, ⟨trivial, trivial⟩,
      own _ _ _, ⟨trivial, trivial⟩, own _ _ _, own _ _ _, own _ _ _, own _ _ _, rfl, own _ _ _,
      own _ _ _, own _ _ _, own _ _ _, own _ _ _, by with_unfolding_all rfl, trivial⟩
  have obeys' : (joined spacious).Obeys watchful collecting :=
    ⟨rfl, own _ _ _, own _ _ _, own _ _ _, own _ _ _, own _ _ _, own _ _ _, own _ _ _, own _ _ _,
      rfl, rfl, ⟨trivial, trivial⟩, own _ _ _, ⟨trivial, trivial⟩, own _ _ _, own _ _ _, own _ _ _,
      own _ _ _, own _ _ _, own _ _ _, own _ _ _, own _ _ _, own _ _ _, own _ _ _, own _ _ _,
      own _ _ _, rfl, rfl, trivial⟩
  have lossless := loses_no_event Engine.impatient RawMessage.codec { queueCapacity := 0 } {} rfl
    (elsewhere _ _) List.mem_cons_self obeys
  have lossless' := loses_no_event watchful RawMessage.codec {} {} rfl
    (elsewhere _ _) List.mem_cons_self obeys'
  refine ⟨⟨elsewhere _ _, obeys, lossless, ?_⟩, elsewhere _ _, obeys', lossless', ?_⟩
  · with_unfolding_all rfl
  · with_unfolding_all rfl

end Session

end HardwareSigner
