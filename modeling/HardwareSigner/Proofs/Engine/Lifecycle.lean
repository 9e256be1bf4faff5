import HardwareSigner.Proofs.Engine.Parts
import HardwareSigner.Proofs.Engine.Returning

/-!
# One link in the life of an engine

However the calls to an engine are interleaved, its state only moves forward, apart from links that
cannot be opened; its link is opened once at most, and a link that has been opened is closed once,
by whoever comes last of the call that has opened it and the call that has closed the engine. No
call may be given up in between.

> `Engine.link_opened_and_closed_once`: this is so in every run of an engine.
-/

namespace HardwareSigner

namespace EngineCall.Phase

variable {M : Type} {task : TaskId} {e : Engine M}

/-- A call that is to connect and finds that this has been tried changes nothing. -/
theorem start_connect_of_ne (clock : Nat) (tried : e.state ≠ .disconnected) :
    start task clock .connect e =
      answer (.error (if e.state = .closed then .notConnected else .alreadyConnected)) e := by
  cases state : e.state with
  | disconnected => exact absurd state tried
  | connecting => simp only [start, state, reduceCtorEq, if_false]
  | connected => simp only [start, state, reduceCtorEq, if_false]
  | closed => simp only [start, state, if_true]

/-- The call that opens the link returns at once only if the link cannot be opened. -/
theorem failed_of_answer {failure? : Option String} {found : Answer}
    (finished : (opened task failure? e).next = .inr found) :
    ∃ failure, (e.link.openLink failure?).1 = .error failure := by
  unfold opened at finished
  simp only at finished
  split at finished
  · cases finished
  next failure failed => exact ⟨failure, failed⟩

end EngineCall.Phase

namespace Engine

variable {M : Type}

/-! ## How the state changes -/

/-- The ways in which an action changes the state of a connection. -/
inductive Changes (w : Site M) (deed : Deed M) : ConnectionState → ConnectionState → Prop
  | tries (caller : TaskId) (acts : actor w deed = some (caller, .inl (.begin .connect))) :
      Changes w deed .disconnected .connecting
  /-- The link cannot be opened. -/
  | fails (caller : TaskId) {latest : Nat} {failure? : Option String} {failure : Failure}
      (acts : actor w deed = some (caller, .inl (.opening latest failure?)))
      (failed : (w.state.link.openLink failure?).1 = .error failure) :
      Changes w deed .connecting .disconnected
  | succeeds (caller : TaskId) (acts : actor w deed = some (caller, .inl .installing)) :
      Changes w deed .connecting .connected
  | shuts (closer : TaskId) (acts : actor w deed = some (closer, .inl (.begin .close)))
      {state : ConnectionState} (unclosed : state ≠ .closed) : Changes w deed state .closed

section

variable {w : Site M} {deed : Deed M}

theorem changes_call {task : TaskId} {phase : EngineCall.Phase M}
    (acts : actor w deed = some (task, .inl phase)) :
    (phase.step task w.clock w.state).engine.state = w.state.state ∨
      Changes w deed w.state.state (phase.step task w.clock w.state).engine.state := by
  have steps := phase.steps task w.clock w.state
  generalize turn : phase.step task w.clock w.state = step at steps
  cases steps with
  | tries disconnected =>
    rw [disconnected]
    exact Or.inr (.tries task acts)
  | detaches unclosed => exact Or.inr (.shuts task acts unclosed)
  | joins unclosed latest => exact Or.inr (.shuts task acts unclosed)
  | fails latest failure? failure link lock =>
    obtain ⟨failure, failed⟩ :=
      EngineCall.Phase.failed_of_answer (congrArg EngineCall.Step.next turn)
    show (if w.state.state = .connecting then .disconnected else w.state.state) = _ ∨
      Changes w deed _ (if w.state.state = .connecting then .disconnected else w.state.state)
    split
    next connecting =>
      rw [connecting]
      exact Or.inr (.fails task acts failed)
    next => exact Or.inl rfl
  | installs connecting =>
    rw [connecting]
    exact Or.inr (.succeeds task acts)
  | retracts => exact Or.inl (state_closeWriter w.state)
  | parts outcome => exact Or.inl (state_closeWriter w.state)
  | _ => exact Or.inl rfl

theorem changes_apply (numbered : w.Numbered) (patient : Patient w deed) :
    (w.apply machine deed).state.state = w.state.state ∨
      Changes w deed w.state.state (w.apply machine deed).state.state := by
  by_cases called : ∃ task phase, actor w deed = some (task, .inl phase)
  · obtain ⟨task, phase, acts⟩ := called
    rw [(apply_of_call numbered acts).2]
    exact changes_call acts
  · obtain ⟨-, unmoved⟩ := rests numbered patient
      fun task phase acts => called ⟨task, phase, acts⟩
    exact Or.inl (congrArg Custody.state unmoved)

end

/-! ## The whole run -/

/-- What there is to know of a run in which the link had been closed `n` times before. -/
structure Accounted (n : Nat) (w : Site M) (log : List (TaskId × Milestone))
    (entered : List ConnectionState) : Prop where
  numbered : w.Numbered
  held : ∃ place, Custody.Held n place (parts (stages w)) w.state.custody log entered

theorem accounted_create (codec : RequestCodec M) (settings : EngineSettings)
    (link : ScriptedLink) :
    Accounted link.closes (World.ofState (create codec settings link)) [] [] where
  numbered := World.numbered_ofState _
  held := ⟨.nowhere, {
    alone := nofun
    stands := Or.inl rfl
    writer := rfl
    closes := rfl
    opened := rfl
    started := Nat.le_refl 0
    unstarted := nofun
    entered := Nat.le_refl 0
    detaching := nofun
    once := Nat.zero_le 1
    shut := ⟨nofun, fun shut => absurd rfl shut⟩ }⟩

section

variable {n : Nat} {w : Site M} {log : List (TaskId × Milestone)} {entered : List ConnectionState}
  {deed : Deed M} {deeds : List (Deed M)}

theorem Accounted.apply (accounted : Accounted n w log entered) (patient : Patient w deed) :
    Accounted n (w.apply machine deed) (log ++ milestones w deed) (entered ++ enters w deed) where
  numbered := accounted.numbered.apply machine deed
  held := by
    obtain ⟨place, held⟩ := accounted.held
    exact held_apply accounted.numbered patient held

theorem accounted_run (accounted : Accounted n w log entered)
    (obeys : w.Obeys machine Patient deeds) :
    Accounted n (w.applyAll machine deeds) (log ++ w.history machine milestones deeds)
      (entered ++ w.history machine enters deeds) := by
  refine World.keeps_run ?_ ?_ obeys
  · rw [World.history, World.history, List.append_nil, List.append_nil]
    exact accounted
  · intro before deed _ patient accounted
    rw [World.applyAll_snoc, World.history_snoc, World.history_snoc, ← List.append_assoc,
      ← List.append_assoc]
    exact accounted.apply patient

end

/-- A call that connects is between its start and its outcome. -/
def Connects (w : Site M) (caller : TaskId) : Prop :=
  ∃ part, parts (stages w) caller = some part ∧ part ≠ .detaches

/-- The life of an engine and of its link in a run from `start`. As every beginning of a run is one
itself, what is said of its end is so at any time. -/
structure Lifecycle (start : Site M) (deeds : List (Deed M)) : Prop where
  /-- The state changes in four ways only, and never once the engine is closed. -/
  changes : ∀ before deed after, deeds = before ++ deed :: after →
    ∀ v, v = start.applyAll machine before →
      (v.apply machine deed).state.state = v.state.state ∨
        Changes v deed v.state.state (v.apply machine deed).state.state
  connecting : (start.applyAll machine deeds).state.state = .connecting →
    ∃ caller, Connects (start.applyAll machine deeds) caller ∧
      ∀ other, Connects (start.applyAll machine deeds) other → other = caller
  opened : (doers .opened (start.history machine milestones deeds)).length ≤ 1
  connected : (start.history machine enters deeds).count .connected ≤ 1
  started : (doers .started (start.history machine milestones deeds)).length ≤ 1
  /-- A call that is to connect while another one does, or after the link has been opened, has no
  effect but its answer. -/
  refused : ∀ before caller after, deeds = before ++ .run caller :: after →
    ∀ v, v = start.applyAll machine before → stages v caller = some (.inl (.begin .connect)) →
    ((∃ other, Connects v other) ∨ doers .opened (start.history machine milestones before) ≠ []) →
      (v.apply machine (.run caller)).state = v.state ∧
      returned v (.run caller) =
        [(caller, .done (.error (if v.state.state = .closed then .notConnected
          else .alreadyConnected)))]
  writer : (start.applyAll machine deeds).state.state = .connected →
    (start.applyAll machine deeds).state.writer = true
  /-- A link that has been opened is closed at most once, -/
  closes : (start.applyAll machine deeds).state.link.closes ≤
    start.state.link.closes + (doers .opened (start.history machine milestones deeds)).length
  /-- and exactly once when those who have opened it and closed the engine have returned. -/
  closed : ∀ opener ∈ doers .opened (start.history machine milestones deeds),
    ∀ closer ∈ doers .shut (start.history machine milestones deeds), ∀ outcome outcome',
    (opener, outcome) ∈ start.history machine returned deeds →
    (closer, outcome') ∈ start.history machine returned deeds →
      (start.applyAll machine deeds).state.link.closes = start.state.link.closes + 1 ∧
      (start.applyAll machine deeds).state.writer = false

/-- A call that is to connect and finds that this has been tried only gives its answer. -/
theorem refused_of_tried {w : Site M} (numbered : w.Numbered) {caller : TaskId}
    (there : stages w caller = some (.inl (.begin .connect)))
    (tried : w.state.state ≠ .disconnected) :
    (w.apply machine (.run caller)).state = w.state ∧
      returned w (.run caller) =
        [(caller, .done (.error (if w.state.state = .closed then .notConnected
          else .alreadyConnected)))] := by
  obtain ⟨answered, unchanged⟩ := returned_at_once numbered there
    (EngineCall.Phase.start_connect_of_ne w.clock tried)
  exact ⟨unchanged, answered⟩

/-- In every run of an engine in which no call is given up, the link is opened at most once, and
closed once. -/
theorem link_opened_and_closed_once (codec : RequestCodec M) (settings : EngineSettings)
    (link : ScriptedLink) {deeds : List (Deed M)}
    (obeys : (World.ofState (create codec settings link)).Obeys machine Patient deeds) :
    Lifecycle (World.ofState (create codec settings link)) deeds := by
  have accounted := accounted_run (accounted_create codec settings link) obeys
  rw [List.nil_append, List.nil_append] at accounted
  obtain ⟨place, held⟩ := accounted.held
  have lawful := obeys.mono fun _ _ patient => patient.1
  obtain ⟨-, gone⟩ := gone_of_history (World.numbered_ofState _) lawful
  refine {
    changes := ?_
    connecting := ?_
    opened := held.opened ▸ place.length_openers_le
    connected := Nat.le_trans held.entered place.installs_le
    started := Nat.le_trans held.started place.installs_le
    refused := ?_
    writer := held.writer_of_connected
    closes := held.closes_le
    closed := ?_ }
  · rintro before deed after rfl v rfl
    obtain ⟨earlier, patient, -⟩ := World.obeys_append.mp obeys
    have begun := accounted_run (accounted_create codec settings link) earlier
    exact changes_apply begun.numbered patient
  · intro connecting
    obtain ⟨caller, connects, single⟩ := held.connecting connecting
    exact ⟨caller, connects, fun other ⟨part, there, different⟩ =>
      single other part there different⟩
  · rintro before caller after rfl v rfl there tried
    have begun := accounted_run (accounted_create codec settings link)
      (World.obeys_append.mp obeys).1
    obtain ⟨place, held⟩ := begun.held
    exact refused_of_tried begun.numbered there (held.tried tried)
  · intro opener opened closer shut outcome outcome' returns returns'
    exact held.closed_of_gone opened shut
      (parts_of_none (gone opener outcome returns).2)
      (parts_of_none (gone closer outcome' returns').2)

/-- While one call opens the link, another one wants to as well, and a third closes the engine just
before the writing half is in its place. -/
def contended : List (Deed RawMessage) :=
  [.start (.call (.begin .connect)), .run 0, .start (.call (.begin .connect)), .run 1, .run 0,
    .run 0, .start (.call (.begin .close)), .run 2, .run 0, .run 2, .run 0, .run 2, .run 2, .run 2,
    .run 2]

theorem link_opened_and_closed_once_when_contended :
    (World.ofState (create RawMessage.codec {} {})).Obeys machine Patient contended ∧
      Lifecycle (World.ofState (create RawMessage.codec {} {})) contended ∧
      doers .opened ((World.ofState (create RawMessage.codec {} {})).history machine milestones
        contended) = [0] ∧
      doers .shut ((World.ofState (create RawMessage.codec {} {})).history machine milestones
        contended) = [2] ∧
      (World.ofState (create RawMessage.codec {} {})).history machine returned contended =
        [(1, .done (.error .alreadyConnected)), (0, .done (.error .notConnected)),
          (2, .done (.ok ()))] ∧
      ((World.ofState (create RawMessage.codec {} {})).applyAll machine
        contended).state.link.closes = 1 := by
  have obeys : (World.ofState (create RawMessage.codec {} {})).Obeys machine Patient contended := by
    have begins : ∀ {w : Site RawMessage} {call : EngineCall RawMessage},
        Patient w (.start (.call (.begin call))) := ⟨trivial, fun _ _ same => nomatch same⟩
    have runs : ∀ {w : Site RawMessage} {task : TaskId}, Patient w (.run task) :=
      ⟨trivial, fun _ _ same => nomatch same⟩
    exact ⟨begins, runs, begins, runs, runs, runs, begins, runs, runs, runs, runs, runs, runs, runs,
      runs, trivial⟩
  exact ⟨obeys, link_opened_and_closed_once RawMessage.codec {} {} obeys, rfl, rfl, rfl, rfl⟩

end Engine

end HardwareSigner
