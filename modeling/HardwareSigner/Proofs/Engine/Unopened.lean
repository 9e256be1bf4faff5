import HardwareSigner.Proofs.Engine.Callers
import HardwareSigner.Proofs.Engine.Grammar

/-!
# Before the connection is open

Until an engine is connected nothing has been told, the writing half is not in its place and nobody
reads, whatever has been tried and given up meanwhile.

> `Engine.blank_effect`: every action keeps this.
> `Engine.accepted_of_unopened`: so no listener has been given anything.
-/

namespace HardwareSigner

/-- The connection is neither open nor closed. -/
def ConnectionState.unopened : ConnectionState → Bool
  | .disconnected | .connecting => true
  | .connected | .closed => false

/-- Whether a task is there only because the connection has been opened. -/
def Stage.speaks {M : Type} : Stage M → Bool
  | .inl (.announcing _) => true
  | .inr _ => true
  | _ => false

namespace Engine

variable {M : Type}

/-- Without the writing half in its place there is nothing to close. -/
theorem closeWriter_of_gone {e : Engine M} (gone : e.writer = false) :
    e.closeWriter = (.ok (), e) := by
  unfold closeWriter
  rw [gone]
  rfl

/-- The state of the connection is left to the calls. -/
theorem callsOnly_state : CallsOnly (fun e : Engine M => e.state) where
  registry _ _ := rfl
  reader _ _ := rfl
  aborted _ _ := rfl
  receives _ _ _ _ := rfl
  feeds _ _ := rfl

/-- There is nothing yet that comes of an open connection. -/
structure Blank (stages : Work (Stage M)) (e : Engine M) (told : List (Event M)) : Prop where
  untold : told = []
  writer : e.writer = false
  reader : e.reader = .unstarted
  silent : ∀ task stage, stages task = some stage → stage.speaks = false

section

variable {stages stages' : Work (Stage M)} {e e' : Engine M} {told tried : List (Event M)}
  {task : TaskId}

/-- A task leaves its stage, or comes to one that does not depend on an open connection. -/
theorem Blank.set (blank : Blank stages e told) (writer : e'.writer = e.writer)
    (reader : e'.reader = e.reader) {next? : Option (Stage M)}
    (silent : ∀ next ∈ next?, next.speaks = false) :
    Blank (Work.set stages task next?) e' told where
  untold := blank.untold
  writer := writer.trans blank.writer
  reader := reader.trans blank.reader
  silent other stage there := by
    rcases Work.set_cases _ _ _ there with ⟨-, now⟩ | ⟨-, before⟩
    · exact silent stage now
    · exact blank.silent other stage before

/-- A step that leaves the connection unopened has found it so. -/
theorem unopened_of_step {clock : Nat} {phase : EngineCall.Phase M} {step : EngineCall.Step M}
    (steps : phase.Steps task clock e step) (still : step.engine.state.unopened = true) :
    e.state.unopened = true := by
  cases steps with
  | tries disconnected =>
    rw [disconnected]
    rfl
  | detaches | joins | installs => cases still
  | fails latest failure? failure link lock =>
    by_cases connecting : e.state = .connecting
    · rw [connecting]
      rfl
    · exact (congrArg ConnectionState.unopened (if_neg connecting)).symm.trans still
  | retracts => exact (congrArg ConnectionState.unopened (state_closeWriter e)).symm.trans still
  | parts => exact (congrArg ConnectionState.unopened (state_closeWriter e)).symm.trans still
  | _ => exact still

/-- What a call leaves alone with a step that leaves the connection unopened. -/
structure Withholds (e : Engine M) (phase : EngineCall.Phase M) (step : EngineCall.Step M) :
    Prop where
  writer : step.engine.writer = e.writer
  reader : step.engine.reader = e.reader
  nobody : step.reader? = none
  silent : ∀ next ∈ step.next.getLeft?, Stage.speaks (.inl next : Stage M) = false
  untold : toldBy (Stage.operation? (.inl phase)) = []

theorem Blank.withholds (blank : Blank stages e told) (roles : Roles stages e told tried)
    {clock : Nat} {phase : EngineCall.Phase M} {step : EngineCall.Step M}
    (there : stages task = some (.inl phase)) (steps : phase.Steps task clock e step)
    (still : step.engine.state.unopened = true) : Withholds e phase step := by
  have before := unopened_of_step steps still
  have unspoken := blank.silent task _ there
  have unclosing : Stage.closes (.inl phase : Stage M) = false := by
    refine (roles.unclosed fun closed => ?_).2 task _ there
    rw [closed] at before
    cases before
  cases steps with
  | answers | fails | denies | writesOut =>
    exact ⟨rfl, rfl, rfl, fun next none => (nomatch none), rfl⟩
  | listens | tries | sends | plans | opens | writes =>
    refine ⟨rfl, rfl, rfl, ?_, rfl⟩
    rintro next ⟨⟩
    rfl
  | registers phase =>
    refine ⟨rfl, rfl, rfl, fun next goesOn => ?_, ?_⟩
    · cases turn : (phase.step task e.registry).1 with
      | inl later => rw [turn] at goesOn; cases goesOn; rfl
      | inr answer => rw [turn] at goesOn; cases goesOn
    · have idle : phase.offers = false := (roles.fits task _ there).1
      rw [List.eq_nil_iff_forall_not_mem]
      intro event takes
      rw [Operation.Phase.offers_of_takes takes] at idle
      cases idle
  | withdraws unconnecting =>
    -- A call that is to put the writing half in has made the connection, unless it has been closed.
    have tried := roles.not_disconnected there rfl
    have still : e.state.unopened = true := still
    cases state : e.state with
    | disconnected => exact absurd state tried
    | connecting => exact absurd state unconnecting
    | connected => rw [state] at still; cases still
    | closed => rw [state] at still; cases still
  | retracts =>
    refine ⟨?_, ?_, rfl, fun next none => (nomatch none), rfl⟩
    · show e.closeWriter.2.writer = _
      rw [closeWriter_of_gone blank.writer]
    · show e.closeWriter.2.reader = _
      rw [closeWriter_of_gone blank.writer]
  | detaches | joins | installs => cases still
  | announces | refuses | connects => cases unspoken
  | joined | parts | tells | unlinks | clears | closes => cases unclosing

/-- A call takes a step that leaves the connection unopened. -/
theorem Blank.call (blank : e.state.unopened = true → Blank stages e told)
    (roles : Roles stages e told tried) {clock : Nat} {phase : EngineCall.Phase M}
    {step : EngineCall.Step M} (there : stages task = some (.inl phase))
    (steps : phase.Steps task clock e step) (fresh : TaskId)
    (still : step.engine.state.unopened = true) :
    Blank (Work.set (Work.set stages task (step.next.getLeft?.map .inl)) fresh
        (step.reader?.map .inr))
      step.engine (told ++ toldBy (Stage.operation? (.inl phase))) := by
  have blank := blank (unopened_of_step steps still)
  have withholds := blank.withholds roles there steps still
  rw [withholds.untold, withholds.nobody, List.append_nil]
  have moved : Blank (Work.set stages task (step.next.getLeft?.map .inl)) step.engine told := by
    refine blank.set withholds.writer withholds.reader fun next now => ?_
    obtain ⟨later, goesOn, rfl⟩ := Option.map_eq_some_iff.mp now
    exact withholds.silent later goesOn
  exact moved.set rfl rfl fun next none => nomatch none

end

section

variable {w : Site M} {told : List (TaskId × Event M)} {tried : List (Event M)} {deed : Deed M}

/-- An action that leaves the connection unopened leaves nothing behind. -/
theorem blank_effect {more : List (Event M)} {took : List (TaskId × Event M)}
    {heard : List (Except Failure Received)} {stages' : Work (Stage M)} {e' : Engine M}
    (blank : w.state.state.unopened = true → Blank (stages w) w.state (told.map Prod.snd))
    (roles : Roles (stages w) w.state (told.map Prod.snd) tried)
    (effect : Effect w took more heard stages' e') (still : e'.state.unopened = true) :
    Blank stages' e' ((told ++ took).map Prod.snd) := by
  have untouched : Blank (stages w) w.state (told.map Prod.snd) →
      Blank (stages w) w.state ((told ++ []).map Prod.snd) := by
    rw [List.append_nil]
    exact id
  cases effect with
  | same => exact untouched (blank still)
  | begins call fresh =>
    refine (untouched (blank still)).set rfl rfl ?_
    rintro next ⟨⟩
    rfl
  | calls task phase there fresh =>
    rw [List.map_append, map_tookBy]
    exact Blank.call blank roles there (phase.steps task w.clock w.state) w.next still
  | reads task reading there unaborted =>
    -- There is no reader before the connection is open.
    have same := callsOnly_state.step task w.clock reading w.state
    rw [same] at still
    cases (blank still).silent task _ there
  | leaves task stage there =>
    rw [Stage.state_release] at still
    have blank := untouched (blank still)
    rcases stage with phase | reading
    · have writer : (phase.release task w.state).writer = w.state.writer := by cases phase <;> rfl
      have reader : (phase.release task w.state).reader = w.state.reader := by cases phase <;> rfl
      exact blank.set writer reader fun next none => nomatch none
    · cases blank.silent task _ there
  | acts act lawful =>
    have state : (w.state.act act).state = w.state.state := by cases act <;> rfl
    have writer : (w.state.act act).writer = w.state.writer := by cases act <;> rfl
    have reader : (w.state.act act).reader = w.state.reader := by cases act <;> rfl
    rw [state] at still
    have blank := untouched (blank still)
    exact ⟨blank.untold, writer.trans blank.writer, reader.trans blank.reader, blank.silent⟩

theorem blank_create (codec : RequestCodec M) (settings : EngineSettings) (link : ScriptedLink) :
    Blank (fun _ => none) (create codec settings link) [] where
  untold := rfl
  writer := rfl
  reader := rfl
  silent _ _ none := nomatch none

/-- Before the connection is open no listener has been given anything. -/
theorem accepted_of_unopened
    (blank : w.state.state.unopened = true → Blank (stages w) w.state (told.map Prod.snd))
    (kept : Kept w told tried) (unopened : w.state.state.unopened = true) (box : MailboxId) :
    w.state.registry.accepted box = [] := by
  have unclosed : w.state.state ≠ .closed := fun closed => by
    rw [closed] at unopened
    cases unopened
  have given := kept.accepted box
  rw [(blank unopened).untold, (kept.roles.unclosed unclosed).1] at given
  exact List.sublist_nil.mp given

end

end Engine

end HardwareSigner
