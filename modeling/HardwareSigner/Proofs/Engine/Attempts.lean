import HardwareSigner.Codec.Raw
import HardwareSigner.Proofs.Engine.Upkeep
import HardwareSigner.Proofs.Listener.Backpressure
import HardwareSigner.Proofs.Listener.Uninterrupted

/-!
# Attempts to open the link

An attempt to open the link that fails leaves nothing behind, and one that is refused has not done
anything at all. So however many have failed before, the one that succeeds finds the engine as the
first one did.

> `Engine.Front.step`: how far the attempts have got that nobody comes between.
> `Engine.retryable`: what any attempts come to, in any engine that is in use.
-/

namespace HardwareSigner

namespace EngineCall.Phase

variable {M : Type}

/-- Whether a call is about to open the link, or is opening it. -/
def attempts : Phase M → Bool
  | .begin .connect | .connecting | .opening _ _ => true
  | _ => false

theorem connects_of_attempts {phase : Phase M} (attempts : phase.attempts = true) :
    phase.connects = true := by
  cases phase with
  | begin call => cases call <;> first | rfl | cases attempts
  | connecting | opening => rfl
  | _ => cases attempts

section

variable {task : TaskId} {failure? : Option String} {e : Engine M}

theorem opened_of_ok (opens : (e.link.openLink failure?).1 = .ok ()) :
    opened task failure? e = goOn .installing
      ({ e with
        link := (e.link.openLink failure?).2
        openLock := e.openLock.release task }.asksWriter task) := by
  unfold opened
  simp only [opens]

/-- If the link cannot be opened, the engine is as if nobody had tried. -/
theorem opened_of_error {failure : Failure}
    (fails : (e.link.openLink failure?).1 = .error failure) (connecting : e.state = .connecting) :
    opened task failure? e = answer (.error failure)
      { e with
        link := (e.link.openLink failure?).2
        openLock := e.openLock.release task
        state := .disconnected } := by
  unfold opened
  simp only [fails, connecting, if_true]

/-- Unless the engine has been closed meanwhile, the writing half goes into its place. -/
theorem install_of_connecting (connecting : e.state = .connecting) :
    install task e = goOn (.announcing (.begin (.dispatch (.system .connected))))
      { { e with writer := true }.releasesWriter task with state := .connected } := by
  unfold install
  exact if_pos connecting

end

end EngineCall.Phase

namespace Engine

open Operation.Phase (Uninterrupted)

variable {M : Type}

/-! ## One attempt -/

section

variable {w : Site M} {told : List (TaskId × Event M)} {tried : List (Event M)} {caller : TaskId}

/-- What an attempt does not touch. -/
structure Spared (e : Engine M) (step : EngineCall.Step M) : Prop where
  registry : step.engine.registry = e.registry
  writer : step.engine.writer = e.writer
  reader : step.engine.reader = e.reader
  nobody : step.reader? = none

theorem spared_of_attempts {task : TaskId} {clock : Nat} {e : Engine M}
    {phase : EngineCall.Phase M} {step : EngineCall.Step M} (steps : phase.Steps task clock e step)
    (attempts : phase.attempts = true) : Spared e step := by
  cases steps with
  | answers | tries | plans | opens | fails => exact ⟨rfl, rfl, rfl, rfl⟩
  | listens asks =>
    obtain rfl := EngineCall.Phase.eq_connect (EngineCall.Phase.connects_of_attempts attempts)
    cases asks
  | sends block other =>
    exact absurd (EngineCall.Phase.eq_connect (EngineCall.Phase.connects_of_attempts attempts))
      other
  | detaches | joins => cases attempts
  | _ => cases attempts

/-- What is left of an attempt that has failed: nothing. -/
structure Failed (w : Site M) (caller : TaskId) (failure : Failure) : Prop where
  returns : returned w (.run caller) = [(caller, .done (.error failure))]
  state : (w.apply machine (.run caller)).state.state = .disconnected
  writer : (w.apply machine (.run caller)).state.writer = false
  reader : (w.apply machine (.run caller)).state.reader = .unstarted
  nobody : ∀ task reading, stages (w.apply machine (.run caller)) task ≠ some (.inr reading)
  silent : ∀ box, (w.apply machine (.run caller)).state.registry.accepted box = []
  listeners : (w.apply machine (.run caller)).state.registry = w.state.registry

end

/-! ## Attempts only -/

/-- What is done while there are only attempts to open the link: whoever begins is to open it, and
only calls take steps. -/
def Attempting (w : Site M) : Deed M → Prop
  | .start (.call (.begin .connect)) => True
  | .start (.exchange (.begin .connect) _ _) => True
  | .run task => ∃ phase, stages w task = some (.inl phase)
  | .wait _ => True
  | _ => False

/-- Whoever begins has not taken a step yet. -/
theorem stage_of_attempting {w : Site M} {found : EngineTask M}
    (attempting : Attempting w (.start found)) : found.stage? = some (.inl (.begin .connect)) := by
  unfold Attempting at attempting
  split at attempting
  next same => cases same; rfl
  next same => cases same; rfl
  next same => cases same
  next same => cases same
  next => exact attempting.elim

/-- An engine before anybody has tried to open its link. -/
structure Poised (e : Engine M) : Prop where
  disconnected : e.state = .disconnected
  openLock : e.openLock = {}
  writerLock : e.writerLock = {}
  idle : e.registry.lock = {}
  unshut : e.registry.shutdown = false
  roomy : e.registry.Roomy
  once : e.registry.boxes.Nodup

/-- The engine once its link is open, the listeners know and the reader runs. -/
def onceConnected (e : Engine M) (link : ScriptedLink) : Engine M :=
  { e with
    link := link
    state := .connected
    writer := true
    reader := .running
    registry := e.registry.tell (.system .connected) }

/-- How far attempts have got on an engine that was `e` before them: who has come furthest, what has
become of the engine, and whether an attempt has succeeded. -/
inductive Front (e : Engine M) : Option (TaskId × Stage M) → Engine M → Bool → Prop
  | rests (link : ScriptedLink) : Front e none { e with link := link } false
  | opens (task : TaskId) {phase : EngineCall.Phase M} (opening : phase.opening?.isSome = true)
      (link : ScriptedLink) :
      Front e (some (task, .inl phase))
        { e with
          link := link
          state := .connecting
          openLock := ⟨[(task, .exclusive)]⟩ } false
  | installs (task : TaskId) (link : ScriptedLink) :
      Front e (some (task, .inl .installing))
        { e with
          link := link
          state := .connecting
          writerLock := ⟨[(task, .exclusive)]⟩ } false
  | announces (task : TaskId) (link : ScriptedLink) {phase : Operation.Phase M}
      {registry : Registry M}
      (uninterrupted : Uninterrupted task (.system .connected) e.registry phase registry) :
      Front e (some (task, .inl (.announcing phase)))
        { e with link := link, state := .connected, writer := true, registry := registry } false
  | reads (reader : TaskId) (link : ScriptedLink) :
      Front e (some (reader, .inr (.first e))) (e.onceConnected link) true

/-- What a step of the call that has come furthest makes of it: it goes on, or gives up, or has
succeeded and leaves the reader behind. -/
inductive Advances (e : Engine M) (task fresh : TaskId) : EngineCall.Step M → Prop
  | goesOn {next : EngineCall.Phase M} {now : Engine M}
      (front : Front e (some (task, .inl next)) now false) :
      Advances e task fresh { next := .inl next, engine := now }
  | fails {now : Engine M} (failure : Failure) (front : Front e none now false) :
      Advances e task fresh { next := .inr (.done (.error failure)), engine := now }
  | succeeds {now : Engine M} (front : Front e (some (fresh, .inr (.first e))) now true) :
      Advances e task fresh
        { next := .inr (.done (.ok ())), engine := now, reader? := some (.first e) }

section

variable {e now : Engine M} {task : TaskId} {clock : Nat} {succeeded : Bool}

theorem release_alone (task : TaskId) : (⟨[(task, .exclusive)]⟩ : Lock).release task = {} := by
  simp [Lock.release]

theorem Front.step (poised : Poised e) {phase : EngineCall.Phase M}
    (front : Front e (some (task, .inl phase)) now succeeded) (clock : Nat) (fresh : TaskId) :
    Advances e task fresh (phase.step task clock now) := by
  obtain ⟨disconnected, openLock, writerLock, idle, unshut, roomy, once⟩ := poised
  -- Every step spells the engine out, so the one before the attempts is spelt out as well.
  obtain ⟨codec, settings, link₀, registry₀, state, lock, lock', writer, reader, aborted⟩ := e
  subst disconnected openLock writerLock
  cases front with
  | opens _ opening link =>
    cases phase with
    | connecting => exact .goesOn (.opens task rfl _)
    | opening latest failure? =>
      show Advances _ task fresh (EngineCall.Phase.opened task failure? _)
      cases outcome : (link.openLink failure?).1 with
      | ok =>
        rw [EngineCall.Phase.opened_of_ok outcome]
        simp only [release_alone]
        exact .goesOn (.installs task _)
      | error failure =>
        rw [EngineCall.Phase.opened_of_error outcome rfl]
        simp only [release_alone]
        exact .fails failure (.rests _)
    | _ => cases opening
  | installs _ link =>
    have turn : ∀ now : Engine M, EngineCall.Phase.installing.step task clock now =
        EngineCall.Phase.install task now := fun _ => rfl
    rw [turn, EngineCall.Phase.install_of_connecting rfl]
    unfold releasesWriter
    simp only [release_alone]
    exact .goesOn (.announces task link .begins)
  | @announces _ link phase registry uninterrupted =>
    rcases uninterrupted.step roomy unshut idle once with ⟨next, after, turn, onward⟩ | turn
    · unfold EngineCall.Phase.step
      simp only [turn]
      exact .goesOn (.announces task link onward)
    · have open' : (registry₀.tell (.system .connected)).shutdown = false :=
        (Registry.shutdown_give registry₀ _ _).trans unshut
      unfold EngineCall.Phase.step
      simp only [turn]
      unfold EngineCall.Phase.announced
      simp only [open', Bool.false_eq_true, if_false]
      exact .succeeds (.reads fresh link)

end

/-- Whoever has come furthest is where he is, and everybody else is about to begin. -/
structure Led (front? : Option (TaskId × Stage M)) (stages' : Work (Stage M)) : Prop where
  there : ∀ task stage, front? = some (task, stage) → stages' task = some stage
  others : ∀ task stage, stages' task = some stage →
    stage = .inl (.begin .connect) ∨ front? = some (task, stage)

namespace Led

variable {front? : Option (TaskId × Stage M)} {stages' : Work (Stage M)} {task : TaskId}

/-- All but one are about to begin. -/
theorem apart (led : Led front? stages') (mine : ∀ other stage, front? = some (other, stage) →
    other = task) (other : TaskId) (stage : Stage M) (different : other ≠ task)
    (there : stages' other = some stage) : stage = .inl (.begin .connect) :=
  (led.others other stage there).resolve_right fun front =>
    different (mine other stage front)

/-- One is now in front. -/
theorem leads (apart : ∀ other stage, other ≠ task → stages' other = some stage →
      stage = .inl (.begin .connect)) (next : Stage M) :
    Led (some (task, next)) (Work.set stages' task (some next)) where
  there := by
    rintro other stage ⟨⟩
    exact Work.set_self _ _ _
  others other stage at_work := by
    rcases Work.set_cases _ _ _ at_work with ⟨rfl, ⟨⟩⟩ | ⟨different, before⟩
    · exact Or.inr rfl
    · exact Or.inl (apart other stage different before)

/-- Nobody is in front any more. -/
theorem leaves (apart : ∀ other stage, other ≠ task → stages' other = some stage →
    stage = .inl (.begin .connect)) : Led none (Work.set stages' task none) where
  there _ _ none := nomatch none
  others other stage at_work := by
    rcases Work.set_cases _ _ _ at_work with ⟨-, gone⟩ | ⟨different, before⟩
    · cases gone
    · exact Or.inl (apart other stage different before)

/-- Somebody else comes, or goes again. -/
theorem aside (led : Led front? stages') (behind : ∀ stage, front? ≠ some (task, stage))
    {next? : Option (Stage M)} (begins : ∀ next ∈ next?, next = .inl (.begin .connect)) :
    Led front? (Work.set stages' task next?) where
  there other stage front := by
    have different : other ≠ task := by
      rintro rfl
      exact behind stage front
    rw [Work.set_of_ne _ _ _ different]
    exact led.there other stage front
  others other stage at_work := by
    rcases Work.set_cases _ _ _ at_work with ⟨-, now⟩ | ⟨-, before⟩
    · exact Or.inl (begins stage now)
    · exact led.others other stage before

end Led

/-! ## Any number of attempts -/

/-- Whether an attempt has succeeded. -/
def Succeeds (answers : List (TaskId × EngineCall.Answer)) : Prop :=
  ∃ caller, (caller, .done (.ok ())) ∈ answers

/-- Where attempts have got that found the engine as `e`. -/
structure Attempts (e : Engine M) (w : Site M) (answers : List (TaskId × EngineCall.Answer)) :
    Prop where
  numbered : w.Numbered
  front : ∃ front? succeeded, Front e front? w.state succeeded ∧ Led front? (stages w) ∧
    (succeeded = true ↔ Succeeds answers)

section

variable {e : Engine M} {w : Site M} {deed : Deed M} {deeds : List (Deed M)} {task : TaskId}
  {answers : List (TaskId × EngineCall.Answer)}

theorem succeeds_append_failure (failure : Failure) :
    Succeeds (answers ++ [(task, .done (.error failure))]) ↔ Succeeds answers := by
  constructor
  · rintro ⟨caller, among⟩
    rcases List.mem_append.mp among with before | last
    · exact ⟨caller, before⟩
    · cases List.mem_singleton.mp last
  · rintro ⟨caller, among⟩
    exact ⟨caller, List.mem_append_left _ among⟩

/-- Whoever is in front has tried to open the link. -/
theorem Front.tried {front : TaskId × Stage M} {now : Engine M} {succeeded : Bool}
    (there : Front e (some front) now succeeded) :
    now.state ≠ .disconnected ∧ front.2 ≠ .inl (.begin .connect) := by
  cases there with
  | opens task opening link =>
    refine ⟨nofun, ?_⟩
    rintro ⟨⟩
    cases opening
  | _ => exact ⟨nofun, nofun⟩

/-- As long as a call is in front none has succeeded. -/
theorem Front.unsettled {phase : EngineCall.Phase M} {now : Engine M} {succeeded : Bool}
    (front : Front e (some (task, .inl phase)) now succeeded) : succeeded = false := by
  cases front <;> rfl

/-- A task that has not begun is not in front. -/
theorem Front.behind {front? : Option (TaskId × Stage M)} {now : Engine M} {succeeded : Bool}
    (front : Front e front? now succeeded) (led : Led front? (stages w)) {stage : Stage M}
    (begins : ∀ stage ∈ stages w task, stage = .inl (.begin .connect)) :
    front? ≠ some (task, stage) := by
  rintro rfl
  exact front.tried.2 (begins stage (led.there task stage rfl))

/-- The call that is in front takes a step. -/
theorem Attempts.advances (numbered : w.Numbered) {phase : EngineCall.Phase M} {succeeded : Bool}
    (poised : Poised e) (front : Front e (some (task, .inl phase)) w.state succeeded)
    (led : Led (some (task, .inl phase)) (stages w)) (account : succeeded = true ↔ Succeeds answers)
    (acts : actor w deed = some (task, .inl phase)) :
    Attempts e (w.apply machine deed) (answers ++ returned w deed) := by
  obtain rfl := front.unsettled
  have apart : ∀ other stage, other ≠ task → stages w other = some stage →
      stage = .inl (.begin .connect) := led.apart fun _ _ same => by cases same; rfl
  obtain ⟨moved, state⟩ := apply_of_call numbered acts
  have answered := returned_of_call acts
  have fresh := stages_of_none numbered.phase?_next
  have advances := front.step poised w.clock w.next
  generalize phase.step task w.clock w.state = step at advances moved state answered
  refine ⟨numbered.apply machine deed, ?_⟩
  rw [moved, state, answered]
  have newest : ∀ next?, Work.set (Work.set (stages w) task next?) w.next none = _ :=
    set_next_none numbered (led.there task _ rfl)
  cases advances with
  | goesOn front =>
    refine ⟨_, _, front, ?_, ?_⟩
    · show Led _ (Work.set (Work.set (stages w) task _) w.next none)
      rw [newest]
      exact Led.leads apart _
    · exact (List.append_nil answers).symm ▸ account
  | fails failure front =>
    refine ⟨_, _, front, ?_, account.trans (succeeds_append_failure failure).symm⟩
    show Led _ (Work.set (Work.set (stages w) task none) w.next none)
    rw [newest]
    exact Led.leaves apart
  | succeeds front =>
    refine ⟨_, _, front, ?_, iff_of_true rfl ⟨task, List.mem_append_right _ List.mem_cons_self⟩⟩
    refine Led.leads (fun other stage _ at_work => ?_) _
    exact ((Led.leaves apart).others other stage at_work).resolve_right nofun

/-- A call that finds the link unopened goes on to open it. -/
theorem start_connect_of_disconnected (disconnected : w.state.state = .disconnected)
    (task : TaskId) (clock : Nat) :
    (EngineCall.Phase.begin .connect).step task clock w.state =
      EngineCall.Phase.goOn .connecting
        { w.state with
          state := .connecting
          openLock := w.state.openLock.request task .exclusive } := by
  show EngineCall.Phase.start task clock .connect w.state = _
  simp only [EngineCall.Phase.start, disconnected]

/-- A call that was about to begin takes its first step. -/
theorem Attempts.begins (numbered : w.Numbered) {front? : Option (TaskId × Stage M)}
    {succeeded : Bool} (poised : Poised e) (front : Front e front? w.state succeeded)
    (led : Led front? (stages w)) (account : succeeded = true ↔ Succeeds answers)
    (acts : actor w deed = some (task, .inl (.begin .connect))) :
    Attempts e (w.apply machine deed) (answers ++ returned w deed) := by
  have state := (apply_of_call numbered acts).2
  have answered := returned_of_call acts
  have there := (run_of_actor acts).2.2
  have behind : ∀ stage, front? ≠ some (task, stage) := fun stage =>
    front.behind led fun now same => by cases there.symm.trans same; rfl
  refine ⟨numbered.apply machine deed, ?_⟩
  cases front? with
  | none =>
    -- Nobody has tried before, so this call is in front from now on.
    generalize found : w.state = now at front
    cases front with
    | rests link =>
      have disconnected : w.state.state = .disconnected := by
        rw [found]
        exact poised.disconnected
      have turn := start_connect_of_disconnected disconnected task w.clock
      have moved := stages_of_call numbered acts (by rw [turn]; rfl)
      rw [turn] at moved state answered
      rw [moved, state, answered, found]
      have asks : e.openLock.request task .exclusive = ⟨[(task, .exclusive)]⟩ := by
        rw [poised.openLock]
        rfl
      refine ⟨some (task, .inl .connecting), false, ?_, ?_,
        (List.append_nil answers).symm ▸ account⟩
      · have opens := @Front.opens M e task .connecting rfl link
        rw [← asks] at opens
        exact opens
      · exact Led.leads (fun other stage _ at_work =>
          (led.others other stage at_work).resolve_right nofun) _
  | some foremost =>
    have refused : (EngineCall.Phase.begin .connect).step task w.clock w.state = _ :=
      EngineCall.Phase.start_connect_of_ne w.clock front.tried.1
    have moved := stages_of_call numbered acts (by rw [refused]; rfl)
    rw [refused] at moved state answered
    rw [moved, state, answered]
    refine ⟨some foremost, succeeded, front, ?_, account.trans (succeeds_append_failure _).symm⟩
    exact led.aside behind fun _ none => nomatch none

theorem Attempts.apply (attempts : Attempts e w answers) (poised : Poised e)
    (attempting : Attempting w deed) :
    Attempts e (w.apply machine deed) (answers ++ returned w deed) := by
  obtain ⟨front?, succeeded, front, led, account⟩ := attempts.front
  have numbered := attempts.numbered
  cases deed with
  | start found =>
    refine ⟨numbered.apply machine (.start found), front?, succeeded, front, ?_,
      (List.append_nil answers).symm ▸ account⟩
    show Led front? (stages (w.start found))
    rw [stages_of_phase? (World.phase?_start numbered found)]
    have fresh := stages_of_none numbered.phase?_next
    refine led.aside (fun stage => front.behind led fun now same => ?_) fun next same => ?_
    · cases fresh.symm.trans same
    · have next : found.stage? = some next := same
      exact Option.some.inj (next.symm.trans (stage_of_attempting attempting))
  | wait ms =>
    refine ⟨numbered.apply machine (.wait ms), front?, succeeded, front, led, ?_⟩
    exact (List.append_nil answers).symm ▸ account
  | run task =>
    obtain ⟨phase, there⟩ := attempting
    cases ready : w.ready machine task with
    | false =>
      obtain ⟨same, silent⟩ := unmoved_of_unready ready
      rw [same, silent, List.append_nil]
      exact attempts
    | true =>
      have acts := actor_of_run ready there
      rcases led.others task _ there with begins | mine
      · cases begins
        exact Attempts.begins numbered poised front led account acts
      · subst mine
        exact Attempts.advances numbered poised front led account acts
  | _ => exact attempting.elim

theorem attempts_run (attempts : Attempts e w []) (poised : Poised e)
    (obeys : w.Obeys machine Attempting deeds) :
    Attempts e (w.applyAll machine deeds) (w.history machine returned deeds) := by
  refine World.keeps_run attempts ?_ obeys
  intro before deed _ attempting attempts
  rw [World.applyAll_snoc, World.history_snoc]
  exact attempts.apply poised attempting

end

/-! ## Attempts that are refused -/

/-- The answer to an attempt that finds that the link has been opened, is being opened or has been
closed. -/
def refusal (e : Engine M) : Failure :=
  if e.state = .closed then .notConnected else .alreadyConnected

/-- So far all attempts have been refused that found the engine as `e`. -/
structure Refused (e : Engine M) (w : Site M) (answers : List (TaskId × EngineCall.Answer)) :
    Prop where
  numbered : w.Numbered
  same : w.state = e
  begun : ∀ task phase, stages w task = some (.inl phase) → phase = .begin .connect
  answered : ∀ entry ∈ answers, entry.2 = .done (.error (refusal e))

section

variable {e : Engine M} {w : Site M} {deed : Deed M} {deeds : List (Deed M)}
  {answers : List (TaskId × EngineCall.Answer)}

theorem Refused.apply (refused : Refused e w answers) (before : e.state ≠ .disconnected)
    (attempting : Attempting w deed) :
    Refused e (w.apply machine deed) (answers ++ returned w deed) := by
  have numbered := refused.numbered.apply machine deed
  cases deed with
  | start found =>
    refine ⟨numbered, refused.same, fun task phase there => ?_, ?_⟩
    · have there : stages (w.start found) task = some (.inl phase) := there
      rw [stages_of_phase? (World.phase?_start refused.numbered found)] at there
      rcases Work.set_cases _ _ _ there with ⟨-, now⟩ | ⟨-, earlier⟩
      · have now : found.stage? = some (.inl phase) := now
        cases now.symm.trans (stage_of_attempting attempting)
        rfl
      · exact refused.begun task phase earlier
    · exact (List.append_nil answers).symm ▸ refused.answered
  | wait ms =>
    exact ⟨numbered, refused.same, refused.begun, (List.append_nil answers).symm ▸ refused.answered⟩
  | run task =>
    obtain ⟨phase, there⟩ := attempting
    cases ready : w.ready machine task with
    | false =>
      obtain ⟨same, silent⟩ := unmoved_of_unready ready
      rw [same, silent, List.append_nil]
      exact refused
    | true =>
      obtain rfl := refused.begun task phase there
      obtain ⟨unchanged, returns⟩ := refused_of_tried refused.numbered there
        (refused.same ▸ before)
      refine ⟨numbered, unchanged.trans refused.same, fun other phase at_work => ?_, ?_⟩
      · have step : (EngineCall.Phase.begin .connect).step task w.clock w.state = _ :=
          EngineCall.Phase.start_connect_of_ne w.clock (refused.same ▸ before)
        rw [stages_of_call refused.numbered (actor_of_run ready there) (by rw [step]; rfl), step]
          at at_work
        rcases Work.set_cases _ _ _ at_work with ⟨-, ⟨⟩⟩ | ⟨-, earlier⟩
        exact refused.begun other phase earlier
      · intro entry among
        rcases List.mem_append.mp among with earlier | now
        · exact refused.answered entry earlier
        · rw [returns] at now
          rw [List.mem_singleton.mp now, refused.same]
          rfl
  | _ => exact attempting.elim

theorem refused_run (refused : Refused e w []) (before : e.state ≠ .disconnected)
    (obeys : w.Obeys machine Attempting deeds) :
    Refused e (w.applyAll machine deeds) (w.history machine returned deeds) := by
  refine World.keeps_run refused ?_ obeys
  intro before' deed _ attempting refused
  rw [World.applyAll_snoc, World.history_snoc]
  exact refused.apply before attempting

end

/-! ## In any engine -/

section

variable {w : Site M} {told : List (TaskId × Event M)} {tried : List (Event M)}

/-- Whoever fails to open the link leaves nothing behind. -/
theorem failed_of_error (upkeep : Upkeep w told tried) {caller : TaskId} {latest : Nat}
    {failure? : Option String} {failure : Failure}
    (acts : actor w (.run caller) = some (caller, .inl (.opening latest failure?)))
    (fails : (w.state.link.openLink failure?).1 = .error failure)
    (unclosed : w.state.state ≠ .closed) : Failed w caller failure := by
  have there := (run_of_actor acts).2.2
  have connecting := (upkeep.preparing caller _ there rfl).resolve_right unclosed
  have step : (EngineCall.Phase.opening latest failure?).step caller w.clock w.state = _ :=
    EngineCall.Phase.opened_of_error fails connecting
  have state := (apply_of_call upkeep.kept.numbered acts).2
  rw [step] at state
  have disconnected : (w.apply machine (.run caller)).state.state = .disconnected := by
    rw [state]
    rfl
  have unopened : (w.apply machine (.run caller)).state.state.unopened = true := by
    rw [disconnected]
    rfl
  have lawful : Lawful w (.run caller) := trivial
  have after := upkeep.apply lawful
  have blank := after.blank unopened
  refine ⟨returned_of_actor acts (by rw [step]; rfl), disconnected, blank.writer, blank.reader, ?_,
    accepted_of_unopened after.blank after.kept unopened, by rw [state]; rfl⟩
  intro task reading reads
  cases blank.silent task _ reads

/-- Nobody waits for anything in an engine in which no call is at work and whose link has not been
opened. -/
theorem Upkeep.poised (upkeep : Upkeep w told tried) (shutBy : ShutByClosing w.state)
    (uncalled : ∀ task phase, stages w task ≠ some (.inl phase))
    (disconnected : w.state.state = .disconnected) :
    Poised w.state ∧ ∀ task, stages w task = none := by
  have unopened : w.state.state.unopened = true := by
    rw [disconnected]
    rfl
  have unclosed : w.state.state ≠ .closed := by
    rw [disconnected]
    exact nofun
  have nobody : ∀ task, stages w task = none := by
    intro task
    cases there : stages w task with
    | none => rfl
    | some stage =>
      rcases stage with phase | reading
      · exact absurd there (uncalled task phase)
      · cases (upkeep.blank unopened).silent task _ there
  have idle : ∀ task, operations (stages w) task = none :=
    fun task => operations_of_none (nobody task)
  refine ⟨{
    disconnected := disconnected
    openLock := upkeep.openLock_eq uncalled
    writerLock := upkeep.writerLock_eq uncalled
    idle := eq_empty_of_line fun task there => ?_
    unshut := Bool.eq_false_iff.mpr fun shut => unclosed (shutBy shut)
    roomy := fun box _ live => ?_
    once := List.nodup_range.sublist upkeep.kept.bounded.ordered }, nobody⟩
  · have stands := (upkeep.lined.inLine task).mp there
    rw [idle task] at stands
    cases stands
  · -- Nothing has been put into the mailbox, and nobody waits there.
    have empty := accepted_of_unopened upkeep.blank upkeep.kept unopened box
    have alone : w.state.registry.senders box = [] := by
      rw [List.eq_nil_iff_forall_not_mem]
      intro task waits
      have parks := (upkeep.parked.mem box task).mp waits
      rw [idle task] at parks
      cases parks
    rw [Registry.accepted_eq] at empty
    rw [Registry.hasRoom_iff live, alone, Registry.pending_eq_length,
      (List.append_eq_nil_iff.mp empty).2]
    exact upkeep.roomy

end

/-- The same world with another link. -/
def relinked (w : Site M) (link : ScriptedLink) : Site M :=
  { w with state := { w.state with link := link } }

/-- The engine is connected, its reader has just started, and all other calls are about to begin. -/
structure Connected (e : Engine M) (v : Site M) : Prop where
  state : v.state = e.onceConnected v.state.link
  reader : ∃ reader, stages v reader = some (.inr (.first e)) ∧
    ∀ task stage, stages v task = some stage → task = reader ∨ stage = .inl (.begin .connect)

section

variable {w : Site M} {deeds : List (Deed M)}

theorem attempts_of_idle (numbered : w.Numbered) (nobody : ∀ task, stages w task = none) :
    Attempts w.state w [] where
  numbered := numbered
  front := by
    refine ⟨none, false, .rests w.state.link, ⟨(fun _ _ none => by cases none), ?_⟩, ?_⟩
    · intro task stage there
      cases (nobody task).symm.trans there
    · exact iff_of_false Bool.false_ne_true fun ⟨_, among⟩ => nomatch among

/-- An attempt that succeeds finds the engine as the first one did. -/
theorem connected_of_succeeds (numbered : w.Numbered) (poised : Poised w.state)
    (nobody : ∀ task, stages w task = none) (obeys : w.Obeys machine Attempting deeds)
    (succeeds : Succeeds (w.history machine returned deeds)) :
    Connected w.state (w.applyAll machine deeds) := by
  obtain ⟨front?, succeeded, front, led, account⟩ :=
    (attempts_run (attempts_of_idle numbered nobody) poised obeys).front
  obtain rfl := account.mpr succeeds
  generalize reached : World.applyAll machine w deeds = v at front led
  generalize found : v.state = now at front
  cases front with
  | reads reader link =>
    refine ⟨by rw [found]; rfl, reader, led.there reader _ rfl, fun task stage at_work => ?_⟩
    rcases led.others task stage at_work with begins | mine
    · exact Or.inr begins
    · cases mine
      exact Or.inl rfl

/-- As long as no attempt succeeds, those that have come to an end have left the engine as it
was. -/
theorem unconnected_of_fails (numbered : w.Numbered) (poised : Poised w.state)
    (nobody : ∀ task, stages w task = none) (obeys : w.Obeys machine Attempting deeds)
    (fails : ¬ Succeeds (w.history machine returned deeds))
    (settled : ∀ task phase, stages (w.applyAll machine deeds) task = some (.inl phase) →
      phase = .begin .connect) :
    (w.applyAll machine deeds).state =
        { w.state with link := (w.applyAll machine deeds).state.link } ∧
      ∀ task reading, stages (w.applyAll machine deeds) task ≠ some (.inr reading) := by
  obtain ⟨front?, succeeded, front, led, account⟩ :=
    (attempts_run (attempts_of_idle numbered nobody) poised obeys).front
  obtain rfl : succeeded = false :=
    Bool.eq_false_iff.mpr fun succeeds => fails (account.mp succeeds)
  generalize World.applyAll machine w deeds = v at front led settled ⊢
  generalize found : v.state = now at front ⊢
  cases front with
  | rests link =>
    refine ⟨rfl, fun task reading at_work => ?_⟩
    rcases led.others task _ at_work with begins | mine
    · cases begins
    · cases mine
  | opens task opening link =>
    cases settled task _ (led.there task _ rfl)
    cases opening
  | installs task link => cases settled task _ (led.there task _ rfl)
  | announces task link uninterrupted => cases settled task _ (led.there task _ rfl)

end

/-- What attempts to open the link come to that are made in a world from some point on. -/
structure Retryable (w : Site M) : Prop where
  /-- An attempt is refused if the link has been opened, is being opened or has been closed; nothing
  is done then, not even to the link. -/
  refused : ∀ caller, stages w caller = some (.inl (.begin .connect)) →
    w.state.state ≠ .disconnected →
    (w.apply machine (.run caller)).state = w.state ∧
      returned w (.run caller) = [(caller, .done (.error (refusal w.state)))]
  /-- Until the link is open an attempt leaves the listeners, the writing half and the reader alone,
  whatever others do meanwhile. -/
  spared : ∀ caller phase, stages w caller = some (.inl phase) → phase.attempts = true →
    Spared w.state (phase.step caller w.clock w.state)
  /-- If the link cannot be opened, the attempt gives the error and leaves nothing behind. -/
  failed : ∀ caller latest failure? failure,
    actor w (.run caller) = some (caller, .inl (.opening latest failure?)) →
    (w.state.link.openLink failure?).1 = .error failure → w.state.state ≠ .closed →
    Failed w caller failure
  /-- However many attempts are refused, they are all answered alike, and the engine is as
  before. -/
  unchanged : (∀ task phase, stages w task ≠ some (.inl phase)) → w.state.state ≠ .disconnected →
    ∀ deeds, w.Obeys machine Attempting deeds →
      (w.applyAll machine deeds).state = w.state ∧
      ∀ entry ∈ w.history machine returned deeds, entry.2 = .done (.error (refusal w.state))
  /-- However many attempts fail, the engine is as before, apart from the link. -/
  unsuccessful : (∀ task phase, stages w task ≠ some (.inl phase)) →
    w.state.state = .disconnected → ∀ deeds, w.Obeys machine Attempting deeds →
    ¬ Succeeds (w.history machine returned deeds) → ∀ v, v = w.applyAll machine deeds →
    (∀ task phase, stages v task = some (.inl phase) → phase = .begin .connect) →
      v.state = { w.state with link := v.state.link } ∧
      ∀ task reading, stages v task ≠ some (.inr reading)
  /-- Once an attempt has succeeded, nothing is left of those before. -/
  successful : (∀ task phase, stages w task ≠ some (.inl phase)) →
    w.state.state = .disconnected → ∀ deeds, w.Obeys machine Attempting deeds →
    Succeeds (w.history machine returned deeds) → Connected w.state (w.applyAll machine deeds)
  /-- It is all the same whether others have failed before, and what they have done with the
  link. -/
  alike : (∀ task phase, stages w task ≠ some (.inl phase)) →
    w.state.state = .disconnected → ∀ deeds link deeds', w.Obeys machine Attempting deeds →
    (relinked w link).Obeys machine Attempting deeds' →
    Succeeds (w.history machine returned deeds) →
    Succeeds ((relinked w link).history machine returned deeds') →
    ∀ v v', v = w.applyAll machine deeds → v' = (relinked w link).applyAll machine deeds' →
      v'.state = { v.state with link := v'.state.link } ∧
      ∀ reading, (∃ reader, stages v reader = some (.inr reading)) ↔
        ∃ reader, stages v' reader = some (.inr reading)

theorem Connected.reads {e : Engine M} {v : Site M} (connected : Connected e v)
    (reading : Reading M) :
    (∃ reader, stages v reader = some (.inr reading)) ↔ reading = .first e := by
  obtain ⟨reader, reads, others⟩ := connected.reader
  constructor
  · rintro ⟨task, there⟩
    rcases others task _ there with rfl | begins
    · cases reads.symm.trans there
      rfl
    · cases begins
  · rintro rfl
    exact ⟨reader, reads⟩

/-- In an engine that is in use any attempts to open the link may be made, one after the other or at
the same time. -/
theorem retryable (codec : RequestCodec M) (settings : EngineSettings) (link : ScriptedLink)
    {earlier : List (Deed M)}
    (obeys : (World.ofState (create codec settings link)).Obeys machine InUse earlier) :
    Retryable ((World.ofState (create codec settings link)).applyAll machine earlier) := by
  have upkeep := upkeep_run (upkeep_create codec settings link)
    (obeys.mono fun _ _ inUse => inUse.1)
  have shutBy := shutByClosing_run (World.numbered_ofState _) (fun shut => by cases shut) obeys
  have numbered := upkeep.kept.numbered
  generalize World.applyAll machine (World.ofState (create codec settings link)) earlier = w
    at upkeep shutBy numbered
  refine {
    refused := fun caller there before => refused_of_tried numbered there before
    spared := fun caller phase _ attempts =>
      spared_of_attempts (phase.steps caller w.clock w.state) attempts
    failed := fun caller latest failure? failure acts fails unclosed =>
      failed_of_error upkeep acts fails unclosed
    unchanged := ?_
    unsuccessful := ?_
    successful := ?_
    alike := ?_ }
  · intro uncalled before deeds attempting
    have start : Refused w.state w [] := {
      numbered := numbered
      same := rfl
      begun := fun task phase there => absurd there (uncalled task phase)
      answered := fun _ none => nomatch none }
    have refused := refused_run start before attempting
    exact ⟨refused.same, refused.answered⟩
  · rintro uncalled disconnected deeds attempting fails v rfl settled
    obtain ⟨poised, nobody⟩ := upkeep.poised shutBy uncalled disconnected
    exact unconnected_of_fails numbered poised nobody attempting fails settled
  · intro uncalled disconnected deeds attempting succeeds
    obtain ⟨poised, nobody⟩ := upkeep.poised shutBy uncalled disconnected
    exact connected_of_succeeds numbered poised nobody attempting succeeds
  · rintro uncalled disconnected deeds link deeds' attempting attempting' succeeds succeeds' v v'
      rfl rfl
    obtain ⟨poised, nobody⟩ := upkeep.poised shutBy uncalled disconnected
    have connected := connected_of_succeeds numbered poised nobody attempting succeeds
    have numbered' : (relinked w link).Numbered := ⟨numbered.working, numbered.finished⟩
    have poised' : Poised (relinked w link).state :=
      ⟨poised.disconnected, poised.openLock, poised.writerLock, poised.idle, poised.unshut,
        poised.roomy, poised.once⟩
    have connected' := connected_of_succeeds numbered' poised' nobody attempting' succeeds'
    refine ⟨?_, fun reading => (connected.reads reading).trans (connected'.reads reading).symm⟩
    rw [connected.state, connected'.state]
    rfl

/-- An engine with one listener, whose link cannot be opened at once. -/
def unplugged : Site RawMessage :=
  World.ofState (create RawMessage.codec {} { opens := [{ failure? := some "unplugged" }] })

def listening : List (Deed RawMessage) :=
  [.start (.call (.begin (.addListener ⟨7⟩))), .run 0, .run 0, .run 0]

/-- The first attempt fails, while the second is refused; the third one succeeds. -/
def attempted : List (Deed RawMessage) :=
  [.start (.call (.begin .connect)), .run 1, .start (.call (.begin .connect)), .run 2, .run 1,
    .run 1, .start (.call (.begin .connect)), .run 3, .run 3, .run 3, .run 3, .run 3, .run 3,
    .run 3, .run 3]

theorem retryable_when_unplugged :
    unplugged.Obeys machine InUse listening ∧ Retryable (unplugged.applyAll machine listening) ∧
      (unplugged.applyAll machine listening).Obeys machine Attempting attempted ∧
      (unplugged.applyAll machine listening).history machine returned attempted =
        [(2, .done (.error .alreadyConnected)),
          (1, .done (.error (.connect "channel" (.reported "unplugged")))), (3, .done (.ok ()))] ∧
      ((unplugged.applyAll machine (listening ++ attempted)).state.registry.accepted 0) =
        [.system .connected] := by
  have begins : ∀ {w : Site RawMessage} {call : EngineCall RawMessage},
      InUse w (.start (.call (.begin call))) := ⟨trivial, fun _ same => nomatch same⟩
  have runs : ∀ {w : Site RawMessage} {task : TaskId}, InUse w (.run task) :=
    ⟨trivial, fun _ same => nomatch same⟩
  have obeys : unplugged.Obeys machine InUse listening := ⟨begins, runs, runs, runs, trivial⟩
  refine ⟨obeys, retryable RawMessage.codec {} _ obeys, ?_, rfl, rfl⟩
  exact ⟨trivial, ⟨_, rfl⟩, trivial, ⟨_, rfl⟩, ⟨_, rfl⟩, ⟨_, rfl⟩, trivial, ⟨_, rfl⟩, ⟨_, rfl⟩,
    ⟨_, rfl⟩, ⟨_, rfl⟩, ⟨_, rfl⟩, ⟨_, rfl⟩, ⟨_, rfl⟩, ⟨_, rfl⟩, trivial⟩

end Engine

end HardwareSigner
