import HardwareSigner.Codec.Raw
import HardwareSigner.Proofs.Engine.Closing
import HardwareSigner.Proofs.Engine.Handing

/-!
# After an engine has been closed

A call that has closed an engine with no other call at work beside it has closed it for good. From
then on a call is refused at once or finds nobody to remove or to count, and leaves the engine as it
is. Only receivers still take out what is in their mailboxes, until they learn that there is no
more.

> `Engine.final_run`: what stays so, whatever is done to the engine.
> `Engine.closed_for_good`: what closing an engine comes to, and what comes after it.
-/

namespace HardwareSigner

/-- A receiver whose mailbox is empty learns that nobody can put anything in any more. -/
theorem Receiving.poll_of_drained {M : Type} {waiting : Receiving} {r : Registry M}
    (drained : r.queued waiting.box = []) (unlinked : r.entries = []) (clock : Nat) :
    waiting.poll clock r = some (.closed, r) := by
  have nothing := Registry.receive?_eq_none_iff.mpr drained
  have closed : r.closed waiting.box = true := by
    unfold Registry.closed
    rw [unlinked]
    rfl
  unfold Receiving.poll
  simp only [nothing, closed, if_true]

namespace EngineCall

variable {M : Type}

/-- The answer that an engine gives at once when it has been closed. -/
def onceClosed? : EngineCall M → Option Answer
  | .addListener _ => some (.added (.error .notConnected))
  | .connect | .send _ | .sendRaw _ _ => some (.done (.error .notConnected))
  | .close => some (.done (.ok ()))
  | .removeListener _ | .countListeners => none

namespace Phase

open Engine (Abstains)

/-- Whether a call does nothing else to an engine that has been closed than ask it for something. -/
def asksOnly : Phase M → Bool
  | .begin _ | .listeners (.begin (.remove _)) | .listeners (.begin .count)
  | .listeners .counting => true
  | _ => false

variable {call : EngineCall M} {phase : Phase M} {e : Engine M}

theorem start_of_closed (closed : e.state = .closed) {answer : Answer}
    (refused : call.onceClosed? = some answer) (task : TaskId) (clock : Nat) :
    start task clock call e = { next := .inr answer, engine := e } := by
  have unconnected : e.state ≠ .connected := by
    rw [closed]
    exact nofun
  cases call with
  | addListener id =>
    cases refused
    exact if_pos closed
  | connect =>
    cases refused
    simp only [start, closed]
    rfl
  | send message =>
    cases refused
    exact startSend_of_unconnected unconnected _
  | sendRaw type payload =>
    cases refused
    exact startSend_of_unconnected unconnected _
  | close =>
    cases refused
    exact if_pos closed
  | removeListener | countListeners => cases refused

/-- Nobody can be removed from an engine that knows nobody. -/
theorem step_of_unknown (unknown : e.registry.tokens = []) (id : ListenerId) (task : TaskId)
    (clock : Nat) :
    (Phase.listeners (.begin (.remove id))).step task clock e =
      { next := .inr (.done (.error (.unknownListener id))), engine := e } := by
  have nobody : e.registry.removable? id = none := by
    unfold Registry.removable?
    rw [unknown]
    rfl
  simp only [step, Operation.Phase.step, Operation.Phase.start, nobody]
  rfl

/-- What a call does that only asks. -/
structure Asks (e : Engine M) (step : Step M) : Prop where
  abstains : Abstains e step.engine
  state : step.engine.state = e.state
  onward : ∀ next, step.next = .inl next → next.asksOnly = true
  /-- Whoever counts finds nobody. -/
  counts : ∀ count, step.next = .inr (.counted count) → count = 0

theorem asks_of_answer {answer : Answer} (other : ∀ count, answer ≠ .counted count) :
    Asks e { next := .inr answer, engine := e } where
  abstains := ⟨.refl _, rfl, rfl⟩
  state := rfl
  onward _ same := nomatch same
  counts count same := absurd (Sum.inr.inj same) (other count)

theorem asks_of_goOn {next : Phase M} {now : Engine M} (abstains : Abstains e now)
    (state : now.state = e.state) (asksOnly : next.asksOnly = true) : Asks e (goOn next now) where
  abstains := abstains
  state := state
  onward _ same := Sum.inl.inj same ▸ asksOnly
  counts _ same := nomatch same

theorem asks_of_begin (closed : e.state = .closed) (call : EngineCall M) (task : TaskId)
    (clock : Nat) : Asks e ((Phase.begin call).step task clock e) := by
  cases refused : call.onceClosed? with
  | some answer =>
    show Asks e (start task clock call e)
    rw [start_of_closed closed refused]
    refine asks_of_answer fun count same => ?_
    subst same
    cases call <;> cases refused
  | none =>
    cases call with
    | removeListener | countListeners => exact asks_of_goOn ⟨.refl _, rfl, rfl⟩ rfl rfl
    | _ => cases refused

theorem asks_of_asksOnly (asksOnly : phase.asksOnly = true) (closed : e.state = .closed)
    (unlinked : e.registry.entries = []) (unknown : e.registry.tokens = []) (task : TaskId)
    (clock : Nat) : Asks e (phase.step task clock e) := by
  have waits : ∀ lock, Abstains e { e with registry := { e.registry with lock := lock } } := by
    intro lock
    refine ⟨.of_same rfl rfl rfl rfl, rfl, ?_⟩
    rw [Engine.outcome_closeWriter, Engine.outcome_closeWriter]
  cases phase with
  | begin call => exact asks_of_begin closed call task clock
  | listeners phase =>
    cases phase with
    | begin operation =>
      cases operation with
      | remove id =>
        rw [step_of_unknown unknown]
        exact asks_of_answer nofun
      | count => exact asks_of_goOn (waits _) rfl rfl
      | _ => cases asksOnly
    | counting =>
      refine ⟨waits _, rfl, (fun _ same => nomatch same), fun count same => ?_⟩
      cases same
      show e.registry.entries.countP _ = 0
      rw [unlinked]
      rfl
    | _ => cases asksOnly
  | _ => cases asksOnly

end Phase

end EngineCall

namespace Engine

open EngineCall.Phase (Asks asks_of_asksOnly)

variable {M : Type}

section

variable {w : Site M} {told : List (TaskId × Event M)} {tried : List (Event M)} {deed : Deed M}
  {deeds : List (Deed M)} {e : Engine M}

/-! ## What stays so -/

theorem abstains_release (task : TaskId) (stage : Stage M) (e : Engine M) :
    Abstains e (stage.release task e) := by
  have rests : Registry.Rests e.registry (stage.release task e).registry := by
    rw [Stage.registry_release]
    cases stage.operation? with
    | none => exact .refl _
    | some phase => exact Operation.Phase.rests_release phase task e.registry
  have writer : (stage.release task e).writer = e.writer := by
    rcases stage with phase | reading
    · cases phase <;> rfl
    · cases reading <;> rfl
  refine ⟨rests, writer, ?_⟩
  rw [outcome_closeWriter, outcome_closeWriter, writer, link_release]

/-- The engine was `e` when the call that had closed it returned. -/
structure Final (e : Engine M) (stages : Work (Stage M)) (now : Engine M) : Prop where
  closed : now.state = .closed
  writer : now.writer = false
  entries : now.registry.entries = []
  tokens : now.registry.tokens = []
  accepted : ∀ box, now.registry.accepted box = e.registry.accepted box
  asks : ∀ task phase, stages task = some (.inl phase) → phase.asksOnly = true

theorem Final.abstains {stages stages' : Work (Stage M)} {now after : Engine M}
    (final : Final e stages now) (closed : after.state = .closed) (abstains : Abstains now after)
    (asks : ∀ task phase, stages' task = some (.inl phase) → phase.asksOnly = true) :
    Final e stages' after where
  closed := closed
  writer := abstains.writer.trans final.writer
  entries := List.sublist_nil.mp (final.entries ▸ abstains.rests.entries)
  tokens := List.sublist_nil.mp (final.tokens ▸ abstains.rests.tokens)
  accepted box := by
    obtain ⟨taken, queued⟩ := abstains.rests.quiet box
    rw [← final.accepted box, Registry.accepted_eq, Registry.accepted_eq, taken, queued]
  asks := asks

theorem final_act {stages : Work (Stage M)} {now : Engine M} (final : Final e stages now)
    (act : Act) : Final e stages (now.act act) := by
  obtain ⟨closed, writer, entries, tokens, accepted, asks⟩ := final
  cases act with
  | listeners act =>
    obtain ⟨mailboxes, shut, same, -⟩ := now.registry.act_eq act
    refine ⟨closed, writer, ?_, ?_, fun box => ?_, asks⟩
    · exact (congrArg Registry.entries same).trans entries
    · exact (congrArg Registry.tokens same).trans tokens
    · exact (Registry.spares_act now.registry act box).accepted.trans (accepted box)
  | feed arrivals => exact ⟨closed, writer, entries, tokens, accepted, asks⟩
  | discard => exact ⟨closed, writer, entries, tokens, accepted, asks⟩
  | vanish => exact ⟨closed, writer, rfl, rfl, accepted, asks⟩

/-- Whoever is called from then on only asks. -/
theorem Final.asks_effect {took : List (TaskId × Event M)} {more : List (Event M)}
    {heard : List (Except Failure Received)} {stages' : Work (Stage M)} {after : Engine M}
    (final : Final e (stages w) w.state) (effect : Effect w took more heard stages' after)
    (task : TaskId) (phase : EngineCall.Phase M) (there : stages' task = some (.inl phase)) :
    phase.asksOnly = true := by
  cases effect.comes there with
  | stays stage before => exact final.asks task phase before
  | begins call new => rfl
  | calls found next before goesOn =>
    exact (asks_of_asksOnly (final.asks task found before) final.closed final.entries final.tokens
      task w.clock).onward phase goesOn

theorem final_effect {took : List (TaskId × Event M)} {more : List (Event M)}
    {heard : List (Except Failure Received)} {stages' : Work (Stage M)} {after : Engine M}
    (final : Final e (stages w) w.state) (shut : w.state.registry.shutdown = true)
    (dispatching : Dispatching (stages w)) (effect : Effect w took more heard stages' after) :
    Final e stages' after := by
  have only := final.asks_effect effect
  cases effect with
  | same => exact final
  | begins call fresh => exact { final with asks := only }
  | calls task phase there fresh =>
    have asks := asks_of_asksOnly (final.asks task phase there) final.closed final.entries
      final.tokens task w.clock
    exact final.abstains (asks.state.trans final.closed) asks.abstains only
  | reads task reading there unaborted =>
    have state := callsOnly_state.step task w.clock reading w.state
    exact final.abstains (state.trans final.closed)
      (Reading.abstains_of_step (dispatching task reading there) shut) only
  | leaves task stage there =>
    exact final.abstains ((Stage.state_release task stage w.state).trans final.closed)
      (abstains_release task stage w.state) only
  | acts act lawful => exact final_act final act

/-- What stays so, whatever is done to the engine. -/
theorem final_run (final : Final e (stages w) w.state) (upkeep : Upkeep w told tried)
    (dispatching : Dispatching (stages w)) (obeys : w.Obeys machine Lawful deeds) :
    Final e (stages (w.applyAll machine deeds)) (w.applyAll machine deeds).state := by
  refine World.keeps_run final ?_ obeys
  intro before deed earlier lawful final
  have kept := (upkeep_run upkeep earlier).kept
  rw [World.applyAll_snoc]
  exact final_effect final (kept.roles.shut (Or.inl final.closed))
    (dispatching_run dispatching upkeep.kept.numbered earlier) (effect kept.numbered lawful)

/-! ## What comes of closing -/

/-- A call is about to close an engine that has not been closed, and no other call is at work. -/
structure ClosesFirst (w : Site M) (closer : TaskId) : Prop where
  begins : stages w closer = some (.inl (.begin .close))
  unclosed : w.state.state ≠ .closed
  alone : ∀ task phase, stages w task = some (.inl phase) → task = closer

/-- What can still be had from an engine `v` to which `more` has been done since it was closed, when
it was `u`. -/
structure ForGood (u : Site M) (more : List (Deed M)) (v : Site M) : Prop where
  state : v.state.state = .closed
  writer : v.state.writer = false
  unlinked : v.state.registry.entries = []
  /-- A call is refused with its first step, unless it closes the engine again. It changes nothing,
  not even the link. -/
  refuses : ∀ task call answer, stages v task = some (.inl (.begin call)) →
    call.onceClosed? = some answer →
    returned v (.run task) = [(task, answer)] ∧ (v.apply machine (.run task)).state = v.state
  /-- A call that is to remove a listener changes nothing with its first step either, and with its
  second one it learns that there is no such listener. -/
  removes : ∀ task id, stages v task = some (.inl (.begin (.removeListener id))) →
    stages (v.apply machine (.run task)) task = some (.inl (.listeners (.begin (.remove id)))) ∧
      (v.apply machine (.run task)).state = v.state
  unknown : ∀ task id, stages v task = some (.inl (.listeners (.begin (.remove id)))) →
    returned v (.run task) = [(task, .done (.error (.unknownListener id)))] ∧
      (v.apply machine (.run task)).state = v.state
  counts : ∀ task count, (task, .counted count) ∈ returned v (.run task) → count = 0
  /-- What has been handed to a receiver since, and what is still in its mailbox, is what was in
  it. -/
  handed : ∀ box < u.state.registry.mailboxes.length,
    u.history machine (hands box) more ++ v.state.registry.queued box = u.state.registry.queued box
  /-- A receiver is given the oldest event, and when there is none it learns that none will come. -/
  arrives : ∀ (waiting : Receiving) clock event rest,
    v.state.registry.queued waiting.box = event :: rest →
      ∃ after, waiting.poll clock v.state.registry = some (.arrived event, after)
  ends : ∀ (waiting : Receiving) clock, v.state.registry.queued waiting.box = [] →
    waiting.poll clock v.state.registry = some (.closed, v.state.registry)

/-- What comes of a call that begins in `w` to close the engine, when `deeds` have been done since
with no other call at work. -/
structure ClosesForGood (w : Site M) (closer : TaskId) (deeds : List (Deed M)) : Prop where
  /-- As long as it has not returned, it can do so without waiting for anybody but the reader. -/
  finishes : (∀ answer, (closer, answer) ∉ w.history machine returned deeds) →
    CanReturn Beside closer (w.applyAll machine deeds)
  /-- It gives the outcome of closing the link, if it was open, and whatever that is it has closed
  the engine, told the listeners that had room and unlinked them all. -/
  outcome : ∀ answer, (closer, answer) ∈ w.history machine returned deeds →
    answer = .done (if w.state.writer then w.state.link.close.1 else .ok ()) ∧
      Remains w.state (w.applyAll machine deeds).state ∧
      (w.applyAll machine deeds).state.registry.count = 0
  /-- It need not be repeated, and nothing can be done any more. -/
  final : ∀ answer, (closer, answer) ∈ w.history machine returned deeds →
    ∀ u, u = w.applyAll machine deeds → ∀ more, u.Obeys machine Lawful more →
      ForGood u more (u.applyAll machine more)

theorem forGood_of_final {u v : Site M} {more : List (Deed M)}
    (final : Final u.state (stages v) v.state) (numbered : v.Numbered)
    (taken : ∀ box < u.state.registry.mailboxes.length, v.state.registry.taken box =
      u.state.registry.taken box ++ u.history machine (hands box) more) : ForGood u more v where
  state := final.closed
  writer := final.writer
  unlinked := final.entries
  refuses task call answer begins refused :=
    returned_at_once numbered begins
      (EngineCall.Phase.start_of_closed final.closed refused task v.clock)
  removes task id begins := by
    have acts := actor_of_run (ready_of_begin begins) begins
    exact ⟨stage_of_call numbered acts, (apply_of_call numbered acts).2⟩
  unknown task id there := by
    have ready : v.ready machine task = true := ready_eq_of_call there
    have acts := actor_of_run ready there
    have step := EngineCall.Phase.step_of_unknown final.tokens id task v.clock
    refine ⟨returned_of_actor acts (by rw [step]), ?_⟩
    rw [(apply_of_call numbered acts).2, step]
  counts task count returns := by
    obtain ⟨-, -, phase, there, finished⟩ := run_of_returned returns
    exact (asks_of_asksOnly (final.asks task phase there) final.closed final.entries final.tokens
      task v.clock).counts count finished
  handed box known := by
    have all := final.accepted box
    rw [Registry.accepted_eq, Registry.accepted_eq, taken box known, List.append_assoc] at all
    exact List.append_cancel_left all
  arrives _ clock _ _ queued := poll_of_queued queued clock
  ends _ clock drained := Receiving.poll_of_drained drained final.entries clock

/-- The first call to close an engine closes it for good if no other call is at work. -/
theorem closed_for_good (codec : RequestCodec M) (settings : EngineSettings) (link : ScriptedLink)
    {earlier : List (Deed M)} {closer : TaskId}
    (obeys : (World.ofState (create codec settings link)).Obeys machine Lawful earlier)
    (reached : w = (World.ofState (create codec settings link)).applyAll machine earlier)
    (first : ClosesFirst w closer) (beside : w.Obeys machine Beside (.run closer :: deeds)) :
    ClosesForGood w closer (.run closer :: deeds) := by
  have upkeep := upkeep_run (upkeep_create codec settings link) obeys
  have dispatching : Dispatching (stages w) := by
    rw [reached]
    exact dispatching_run (fun _ _ none => nomatch none) (World.numbered_ofState _) obeys
  rw [← reached] at upkeep
  have lawful : w.Obeys machine Lawful (.run closer :: deeds) :=
    beside.mono fun _ _ => lawful_of_beside
  have numbered := upkeep.kept.numbered
  -- The call takes its first step, and then only the reader is at work beside it.
  have closing := closesAlone_run
    (closesAlone_of_begin upkeep first.begins first.unclosed first.alone)
    (upkeep.apply lawful.1) (dispatching_apply dispatching numbered lawful.1) beside.2
  have later := upkeep_run upkeep lawful
  have dispatching := dispatching_run dispatching numbered lawful
  have returned_of : ∀ answer,
      (closer, answer) ∈ w.history machine returned (.run closer :: deeds) →
      stages (w.applyAll machine (.run closer :: deeds)) closer = none ∧
        answer = .done w.state.closeWriter.1 ∧
        Remains w.state (w.applyAll machine (.run closer :: deeds)).state := by
    intro answer returns
    have gone := ((gone_of_history numbered lawful).2 closer answer returns).2
    rcases closing.course with ⟨phase, there, -⟩ | ⟨-, returned, remains⟩
    · cases gone.symm.trans there
    · exact ⟨gone, eq_of_returned numbered lawful closer _ _ returns returned, remains⟩
  refine ⟨fun unreturned => ?_, fun answer returns => ?_, ?_⟩
  · rcases closing.course with ⟨phase, there, -⟩ | ⟨-, returned, -⟩
    · exact closing.canReturn later dispatching there
    · exact absurd returned (unreturned _)
  · obtain ⟨-, same, remains⟩ := returned_of answer returns
    rw [outcome_closeWriter] at same
    refine ⟨same, remains, ?_⟩
    unfold Registry.count
    rw [remains.entries]
    rfl
  · rintro answer returns u rfl more obeys
    obtain ⟨gone, -, remains⟩ := returned_of answer returns
    have final : Final (w.applyAll machine (.run closer :: deeds)).state
        (stages (w.applyAll machine (.run closer :: deeds)))
        (w.applyAll machine (.run closer :: deeds)).state := by
      refine ⟨remains.state, remains.writer, remains.entries, remains.tokens, fun _ => rfl, ?_⟩
      intro task phase there
      obtain rfl := closing.alone task phase there
      cases gone.symm.trans there
    have after := final_run final later dispatching obeys
    exact forGood_of_final after (numbered_applyAll later.kept.numbered more)
      fun box known => taken_history later.kept known obeys

end

/-- An engine whose mailboxes hold one event each, and whose link cannot be closed without an
error. -/
def jammed : Site RawMessage :=
  World.ofState
    (create RawMessage.codec { queueCapacity := 1 } { closeFailure? := some "unplugged" })

/-- Of its two listeners one takes what he is told. For the other one the reader is waiting when a
call is to close the engine. -/
def congested : List (Deed RawMessage) :=
  [.start (.call (.begin (.addListener ⟨7⟩))), .run 0, .run 0, .run 0,
    .start (.call (.begin (.addListener ⟨8⟩))), .run 1, .run 1, .run 1,
    .start (.call (.begin .connect)), .run 2, .run 2, .run 2, .run 2, .run 2, .run 2, .run 2,
    .run 2, .run 2, .outside (.listeners (.take 0)),
    .outside (.feed [.outcome (.ok .endOfStream)]),
    .run 3, .run 3, .run 3, .run 3, .run 3, .outside (.listeners (.take 0)),
    .start (.call (.begin .close))]

/-- The reader is not given a turn until the call has made it stop. -/
def abrupt : List (Deed RawMessage) :=
  [.wait 500, .run 4, .run 4, .run 4, .run 3, .run 4, .run 4, .run 4]

/-- What is asked of the engine when it has been closed. -/
def belated : List (Deed RawMessage) :=
  [.start (.call (.begin (.removeListener ⟨7⟩))), .run 5, .run 5,
    .start (.call (.begin (.addListener ⟨9⟩))), .run 6, .start (.call (.begin .connect)), .run 7,
    .start (.call (.begin .close)), .run 8, .start (.receive (.unlimited 1)), .run 9,
    .start (.receive (.unlimited 1)), .run 10]

theorem closed_for_good_when_jammed :
    jammed.Obeys machine Lawful congested ∧
      ClosesFirst (jammed.applyAll machine congested) 4 ∧
      (jammed.applyAll machine congested).Obeys machine Beside (.run 4 :: abrupt) ∧
      ClosesForGood (jammed.applyAll machine congested) 4 (.run 4 :: abrupt) ∧
      (jammed.applyAll machine congested).history machine returned (.run 4 :: abrupt) =
        [(4, .done (.error (.io (.reported "unplugged"))))] ∧
      (jammed.applyAll machine (congested ++ .run 4 :: abrupt)).state.registry.mailboxes.map
        Mailbox.queued = [[.system .disconnected], [.system .connected]] ∧
      (jammed.applyAll machine (congested ++ .run 4 :: abrupt)).history machine returned belated =
        [(5, .done (.error (.unknownListener ⟨7⟩))), (6, .added (.error .notConnected)),
          (7, .done (.error .notConnected)), (8, .done (.ok ()))] ∧
      (jammed.applyAll machine (congested ++ .run 4 :: abrupt ++ belated)).results.drop 9 =
        [(9, .receipt (.arrived (.system .connected))), (10, .receipt .closed)] := by
  have obeys : jammed.Obeys machine Lawful congested :=
    ⟨trivial, trivial, trivial, trivial, trivial, trivial, trivial, trivial, trivial, trivial,
      trivial, trivial, trivial, trivial, trivial, trivial, trivial, trivial, trivial, trivial,
      trivial, trivial, trivial, trivial, trivial, trivial, trivial, trivial⟩
  have first : ClosesFirst (jammed.applyAll machine congested) 4 := by
    refine ⟨rfl, nofun, fun task phase there => ?_⟩
    by_contra different
    by_cases reader : task = 3
    · subst reader
      cases there
    · have nobody : (jammed.applyAll machine congested).phase? task = none := by
        show List.lookup task [(3, _), (4, _)] = none
        rw [World.lookup_cons_of_ne reader, World.lookup_cons_of_ne different]
        rfl
      cases (stages_of_none nobody).symm.trans there
  have beside : (jammed.applyAll machine congested).Obeys machine Beside (.run 4 :: abrupt) :=
    ⟨rfl, trivial, rfl, rfl, rfl, rfl, rfl, rfl, rfl, trivial⟩
  exact ⟨obeys, first, beside, closed_for_good RawMessage.codec _ _ obeys rfl first beside, rfl,
    rfl, rfl, rfl⟩

end Engine

end HardwareSigner
