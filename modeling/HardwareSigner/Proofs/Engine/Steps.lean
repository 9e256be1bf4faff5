import HardwareSigner.Engine.Call

/-!
# What a step can be

`EngineCall.Phase.Steps` lists the steps that calls take, and `Reading.Steps` those of the reader,
each with what comes next and with what it makes of the engine. What is said of all steps is said by
cases on these.

> `EngineCall.Phase.steps`: calls take no others.
> `Reading.steps`: nor does a reader, as long as it has not been told to stop.
-/

namespace HardwareSigner

namespace Engine

variable {M : Type}

@[simp] theorem state_closeWriter (e : Engine M) : e.closeWriter.2.state = e.state := by
  unfold closeWriter
  split <;> rfl

@[simp] theorem registry_closeWriter (e : Engine M) : e.closeWriter.2.registry = e.registry := by
  unfold closeWriter
  split <;> rfl

@[simp] theorem aborted_closeWriter (e : Engine M) : e.closeWriter.2.aborted = e.aborted := by
  unfold closeWriter
  split <;> rfl

end Engine

namespace EngineCall

variable {M : Type}

/-- What a call asks of the registry, if this is all that it does. -/
def operation? : EngineCall M → Option (Operation M)
  | .addListener id => some (.add id)
  | .removeListener id => some (.remove id)
  | .countListeners => some .count
  | _ => none

namespace Phase

/-- The steps that calls take in an engine. -/
inductive Steps (task : TaskId) (clock : Nat) (e : Engine M) : Phase M → Step M → Prop
  /-- There is nothing to be done; a call that is to connect does not succeed so. -/
  | answers (call : EngineCall M) (answer : Answer)
      (unconnected : call = .connect → answer ≠ .done (.ok ())) :
      Steps task clock e (.begin call) { next := .inr answer, engine := e }
  | listens {call : EngineCall M} {operation : Operation M}
    (asks : call.operation? = some operation) :
      Steps task clock e (.begin call) (goOn (.listeners (.begin operation)) e)
  | tries (disconnected : e.state = .disconnected) :
      Steps task clock e (.begin .connect)
        (goOn .connecting
          { e with state := .connecting, openLock := e.openLock.request task .exclusive })
  | sends {call : EngineCall M} (block : Bytes) (other : call ≠ .connect) :
      Steps task clock e (.begin call) (goOn (.sending block) (e.asksWriter task))
  /-- There is no reader to wait for. -/
  | detaches (unclosed : e.state ≠ .closed) :
      Steps task clock e (.begin .close)
        (goOn .detaching ({ e with state := .closed }.shutdown.asksWriter task))
  | joins (unclosed : e.state ≠ .closed) (latest : Nat) :
      Steps task clock e (.begin .close)
        (goOn (.joining latest) { e with state := .closed }.shutdown)
  | registers (phase : Operation.Phase M) :
      Steps task clock e (.listeners phase)
        { next := (phase.step task e.registry).1.map .listeners ofRegistry
          engine := { e with registry := (phase.step task e.registry).2 } }
  | plans (latest : Nat) (failure? : Option String) (link : ScriptedLink) :
      Steps task clock e .connecting (goOn (.opening latest failure?) { e with link := link })
  | opens (latest : Nat) (failure? : Option String) (link : ScriptedLink) :
      Steps task clock e (.opening latest failure?)
        (goOn .installing
          ({ e with link := link, openLock := e.openLock.release task }.asksWriter task))
  | fails (latest : Nat) (failure? : Option String) (failure : Failure) (link : ScriptedLink)
      (lock : Lock) :
      Steps task clock e (.opening latest failure?)
        (answer (.error failure)
          { e with
            link := link
            openLock := lock
            state := if e.state = .connecting then .disconnected else e.state })
  | installs (connecting : e.state = .connecting) :
      Steps task clock e .installing
        (goOn (.announcing (.begin (.dispatch (.system .connected))))
          { { e with writer := true }.releasesWriter task with state := .connected })
  | withdraws (unconnecting : e.state ≠ .connecting) :
      Steps task clock e .installing
        (goOn .retracting (({ e with writer := true }.releasesWriter task).asksWriter task))
  | retracts : Steps task clock e .retracting
      (answer (.error .notConnected) (e.closeWriter.2.releasesWriter task))
  | announces {phase next : Operation.Phase M} {registry : Registry M}
      (turn : phase.step task e.registry = (.inl next, registry)) :
      Steps task clock e (.announcing phase)
        (goOn (.announcing next) { e with registry := registry })
  /-- The engine has been closed while the listeners were told. -/
  | refuses {phase : Operation.Phase M} {result : Operation.Answer} {registry : Registry M}
      (turn : phase.step task e.registry = (.inr result, registry)) :
      Steps task clock e (.announcing phase)
        (answer (.error .notConnected) { e with registry := registry })
  | connects {phase : Operation.Phase M} {result : Operation.Answer} {registry : Registry M}
      (turn : phase.step task e.registry = (.inr result, registry))
      (unshut : registry.shutdown = false) :
      Steps task clock e (.announcing phase)
        { next := .inr (.done (.ok ()))
          engine := { e with registry := registry, reader := .running }
          reader? := some (.first { e with registry := registry }) }
  | denies (block : Bytes) :
      Steps task clock e (.sending block) (answer (.error .notConnected) (e.releasesWriter task))
  | writes (block : Bytes) (latest : Nat) (failure? : Option String) (link : ScriptedLink) :
      Steps task clock e (.sending block)
        (goOn (.writing block latest failure?) { e with link := link })
  | writesOut (block : Bytes) (latest : Nat) (failure? : Option String)
      (outcome : Except Failure Unit) (link : ScriptedLink) :
      Steps task clock e (.writing block latest failure?)
        (answer outcome ({ e with link := link }.releasesWriter task))
  | joined (latest : Nat) :
      Steps task clock e (.joining latest)
        (goOn .detaching
          (({ e with aborted := e.aborted || e.reader == .running } : Engine M).asksWriter task))
  | parts (outcome : Except Failure Unit) :
      Steps task clock e .detaching
        (goOn (.parting (.begin (.tryDispatch (.system .disconnected))) outcome)
          (e.closeWriter.2.releasesWriter task))
  | tells {phase next : Operation.Phase M} {registry : Registry M} (outcome : Except Failure Unit)
      (turn : phase.step task e.registry = (.inl next, registry)) :
      Steps task clock e (.parting phase outcome)
        (goOn (.parting next outcome) { e with registry := registry })
  | unlinks {phase : Operation.Phase M} {result : Operation.Answer} {registry : Registry M}
      (outcome : Except Failure Unit)
      (turn : phase.step task e.registry = (.inr result, registry)) :
      Steps task clock e (.parting phase outcome)
        (goOn (.clearing (.begin .clear) outcome) { e with registry := registry })
  | clears {phase next : Operation.Phase M} {registry : Registry M} (outcome : Except Failure Unit)
      (turn : phase.step task e.registry = (.inl next, registry)) :
      Steps task clock e (.clearing phase outcome)
        (goOn (.clearing next outcome) { e with registry := registry })
  | closes {phase : Operation.Phase M} {result : Operation.Answer} {registry : Registry M}
      (outcome : Except Failure Unit)
      (turn : phase.step task e.registry = (.inr result, registry)) :
      Steps task clock e (.clearing phase outcome)
        (answer outcome { e with registry := registry })

variable (task : TaskId) (clock : Nat) (e : Engine M)

theorem steps_startSend {call : EngineCall M} (other : call ≠ .connect)
    (block : Except Failure Bytes) : Steps task clock e (.begin call) (startSend task block e) := by
  unfold startSend
  split
  · exact .answers call _ fun same => absurd same other
  · split
    · exact .answers call _ fun same => absurd same other
    next block => exact .sends block other

theorem steps_start (call : EngineCall M) :
    Steps task clock e (.begin call) (start task clock call e) := by
  cases call with
  | addListener id =>
    simp only [start]
    split
    · exact .answers _ _ fun same => nomatch same
    · exact .listens rfl
  | removeListener id => exact .listens rfl
  | countListeners => exact .listens rfl
  | connect =>
    simp only [start]
    split
    next disconnected => exact .tries disconnected
    · exact .answers _ _ fun _ same => nomatch same
    · exact .answers _ _ fun _ same => nomatch same
    · exact .answers _ _ fun _ same => nomatch same
  | send message =>
    have other : EngineCall.send message ≠ .connect := fun same => nomatch same
    exact steps_startSend task clock e other _
  | sendRaw type payload =>
    have other : (EngineCall.sendRaw type payload : EngineCall M) ≠ .connect :=
      fun same => nomatch same
    exact steps_startSend task clock e other _
  | close =>
    simp only [start]
    split
    · exact .answers _ _ fun same => nomatch same
    next unclosed =>
      split
      · exact .detaches unclosed
      · exact .joins unclosed _

theorem steps_opened (latest : Nat) (failure? : Option String) :
    Steps task clock e (.opening latest failure?) (opened task failure? e) := by
  unfold opened
  simp only
  split
  · exact .opens latest failure? _
  next failure failed =>
    have fails : Steps task clock e _ _ := .fails latest failure? failure
      (e.link.openLink failure?).2 (e.openLock.release task)
    split
    next connecting =>
      rw [if_pos connecting] at fails
      exact fails
    next other =>
      rw [if_neg other] at fails
      exact fails

/-- The steps of calls are these. -/
theorem steps (phase : Phase M) : Steps task clock e phase (phase.step task clock e) := by
  cases phase with
  | begin call => exact steps_start task clock e call
  | listeners phase => exact .registers phase
  | connecting => exact .plans _ _ _
  | opening latest failure? => exact steps_opened task clock e latest failure?
  | installing =>
    show Steps task clock e .installing (install task e)
    unfold install
    simp only
    split
    next connecting => exact .installs connecting
    next other => exact .withdraws other
  | retracting => exact .retracts
  | announcing phase =>
    unfold step
    simp only
    split
    next next registry turn => exact .announces turn
    next result registry turn =>
      unfold announced
      split
      · exact .refuses turn
      next unshut => exact .connects turn (Bool.eq_false_iff.mpr unshut)
  | sending block =>
    show Steps task clock e (.sending block) (startWrite task clock block e)
    unfold startWrite
    split
    · exact .denies block
    · exact .writes block _ _ _
  | writing block latest failure? => exact .writesOut block latest failure? _ _
  | joining latest => exact .joined latest
  | detaching => exact .parts _
  | parting phase outcome =>
    unfold step
    simp only
    split
    next next registry turn => exact .tells outcome turn
    next result registry turn => exact .unlinks outcome turn
  | clearing phase outcome =>
    unfold step
    simp only
    split
    next next registry turn => exact .clears outcome turn
    next result registry turn => exact .closes outcome turn

/-- Only the call that has announced the connection starts a reader, which has read nothing. -/
theorem Steps.of_reader {phase : Phase M} {step : Step M} {task : TaskId} {clock : Nat}
    {e : Engine M} (steps : Steps task clock e phase step) {reading : Reading M}
    (starts : step.reader? = some reading) :
    ∃ announced, phase = .announcing announced ∧
      reading = .receiving (.ofLimit e.settings.maxPayload) := by
  cases steps with
  | connects turn unshut =>
    cases starts
    exact ⟨_, rfl, rfl⟩
  | _ => cases starts

end Phase

end EngineCall

namespace Reading

variable {M : Type}

/-- How the reader goes on that still has some events to dispatch and then takes its course. -/
inductive Onward (intake : Intake) (e : Engine M) :
    List (Event M) → Course → Option (Reading M) → Engine M → Prop
  | dispatches (event : Event M) (rest : List (Event M)) (course : Course) :
      Onward intake e (event :: rest) course
        (some (.dispatching (.begin (.dispatch event)) rest course intake)) e
  | receives : Onward intake e [] .goOn (some (.receiving intake)) e
  | pauses (latest : Nat) : Onward intake e [] .pause (some (.pausing latest intake)) e
  | stops (shut : e.registry.shutdown = true) :
      Onward intake e [] .fail none { e with reader := .stopped }
  | fails :
      Onward intake e [] .fail (some (.failing (.begin (.dispatch (.system .failure))))) e

/-- The steps that the reader of an engine takes. -/
inductive Steps (task : TaskId) (e : Engine M) : Reading M → Option (Reading M) → Engine M → Prop
  | stopsReceiving (intake : Intake) (shut : e.registry.shutdown = true) :
      Steps task e (.receiving intake) none { e with reader := .stopped }
  | stopsPausing (latest : Nat) (intake : Intake) (shut : e.registry.shutdown = true) :
      Steps task e (.pausing latest intake) none { e with reader := .stopped }
  | waits (intake : Intake) (unshut : e.registry.shutdown = false)
      (nothing : e.link.receive? = none) :
      Steps task e (.receiving intake) (some (.receiving intake)) e
  | hears (intake : Intake) {outcome : Except Failure Received} {link : ScriptedLink}
      {next? : Option (Reading M)} {e' : Engine M} (unshut : e.registry.shutdown = false)
      (receives : e.link.receive? = some (outcome, link))
      (onward : Onward (intake.take e.codec.toCodec outcome).2 { e with link := link }
        (intake.take e.codec.toCodec outcome).1.1 (intake.take e.codec.toCodec outcome).1.2
        next? e') :
      Steps task e (.receiving intake) next? e'
  | resumes (latest : Nat) (intake : Intake) :
      Steps task e (.pausing latest intake) (some (.receiving intake)) e
  | dispatches {phase next : Operation.Phase M} {registry : Registry M} (rest : List (Event M))
      (course : Course) (intake : Intake)
      (turn : phase.step task e.registry = (.inl next, registry)) :
      Steps task e (.dispatching phase rest course intake)
        (some (.dispatching next rest course intake)) { e with registry := registry }
  | proceeds {phase : Operation.Phase M} {answer : Operation.Answer} {registry : Registry M}
      {rest : List (Event M)} {course : Course} {intake : Intake} {next? : Option (Reading M)}
      {e' : Engine M} (turn : phase.step task e.registry = (.inr answer, registry))
      (onward : Onward intake { e with registry := registry } rest course next? e') :
      Steps task e (.dispatching phase rest course intake) next? e'
  | fails {phase next : Operation.Phase M} {registry : Registry M}
      (turn : phase.step task e.registry = (.inl next, registry)) :
      Steps task e (.failing phase) (some (.failing next)) { e with registry := registry }
  | stopsFailing {phase : Operation.Phase M} {answer : Operation.Answer} {registry : Registry M}
      (turn : phase.step task e.registry = (.inr answer, registry)) :
      Steps task e (.failing phase) none { e with registry := registry, reader := .stopped }

theorem onward (clock : Nat) (events : List (Event M)) (course : Course) (intake : Intake)
    (e : Engine M) :
    Onward intake e events course (proceed clock events course intake e).1
      (proceed clock events course intake e).2 := by
  unfold proceed
  split
  next event rest => exact .dispatches event rest course
  · exact .receives
  · exact .pauses _
  · split
    next shut => exact .stops shut
    next => exact .fails

/-- The steps of the reader are these. -/
theorem steps {e : Engine M} (unaborted : e.aborted = false) (task : TaskId) (clock : Nat)
    (reading : Reading M) :
    Steps task e reading (reading.step task clock e).1 (reading.step task clock e).2 := by
  unfold step
  rw [if_neg (Bool.eq_false_iff.mp unaborted)]
  cases reading with
  | receiving intake =>
    simp only
    split
    next shut => exact .stopsReceiving intake shut
    next unshut =>
      split
      next nothing => exact .waits intake (Bool.eq_false_iff.mpr unshut) nothing
      next outcome link receives =>
        exact .hears intake (Bool.eq_false_iff.mpr unshut) receives (onward ..)
  | pausing latest intake =>
    simp only
    split
    next shut => exact .stopsPausing latest intake shut
    next => exact .resumes latest intake
  | dispatching phase rest course intake =>
    simp only
    split
    next next registry turn => exact .dispatches rest course intake turn
    next answer registry turn => exact .proceeds turn (onward ..)
  | failing phase =>
    simp only
    split
    next next registry turn => exact .fails turn
    next answer registry turn => exact .stopsFailing turn

end Reading

end HardwareSigner
