import HardwareSigner.Proofs.Engine.Lifecycle
import HardwareSigner.Proofs.Engine.Sending

/-!
# What senders have to do with the writing half

The calls to an engine as moves at its `Engine.desk`: a call has its `errand?` as long as it stands
in line for the writing half, and `Engine.dealings` are what a run of the engine shows of those who
send. No call may be given up.

> `Engine.inLine_run`: every run keeps the line and the dealings together.
> `Engine.undenied_run`, `Engine.handed_run`: no sender finds the writing half gone, so whoever
> acquires the lock hands its block over.
> `Engine.asked_once`: every call asks once.
-/

namespace HardwareSigner

/-! ## What a call is to send -/

namespace EngineCall

variable {M : Type}

/-- The message that a call is to send, if it can be serialized. -/
def outgoing? (codec : Codec M) : EngineCall M → Option (Except Failure (MessageType × Bytes))
  | .send message =>
    some ((codec.serialize message).map fun payload => (codec.type message, payload))
  | .sendRaw type payload => some (.ok (type, payload))
  | _ => none

/-- The frame of a message as a block of bytes. -/
def framed (made : Except Failure (MessageType × Bytes)) : Except Failure Bytes :=
  made.bind fun message => Frame.encode message.1 message.2

namespace Phase

variable {task : TaskId} {clock : Nat} {e : Engine M} {call : EngineCall M}
  {made : Except Failure (MessageType × Bytes)}

theorem start_of_outgoing (sends : call.outgoing? e.codec.toCodec = some made) :
    start task clock call e = startSend task (framed made) e := by
  cases call with
  | send message =>
    obtain rfl := Option.some.inj sends
    have encoded : e.codec.toCodec.encode message =
        framed ((e.codec.serialize message).map fun payload =>
          (e.codec.type message, payload)) := by
      unfold Codec.encode framed
      cases e.codec.serialize message <;> rfl
    rw [← encoded]
    rfl
  | sendRaw type payload =>
    obtain rfl := Option.some.inj sends
    rfl
  | _ => cases sends

theorem startSend_of_unconnected (unconnected : e.state ≠ .connected)
    (block : Except Failure Bytes) :
    startSend task block e = answer (.error .notConnected) e := by
  have other : e.connected = false := by
    unfold Engine.connected
    exact beq_false_of_ne unconnected
  unfold startSend
  rw [other]
  rfl

theorem startSend_of_connected (connected : e.state = .connected) (block : Except Failure Bytes) :
    startSend task block e =
      match block with
      | .error failure => answer (.error failure) e
      | .ok block => goOn (.sending block) (e.asksWriter task) := by
  have is : e.connected = true := by
    unfold Engine.connected
    exact beq_iff_eq.mpr connected
  unfold startSend
  rw [is]
  rfl

/-- A call that does not send never waits to write. -/
theorem not_asks_of_outgoing {block : Bytes} {codec : Codec M}
    (silent : call.outgoing? codec = none) :
    (start task clock call e).next ≠ .inl (.sending block) := by
  intro asks
  cases call with
  | send message => cases silent
  | sendRaw type payload => cases silent
  | removeListener id => cases asks
  | countListeners => cases asks
  | addListener id =>
    simp only [start] at asks
    split at asks <;> cases asks
  | connect =>
    simp only [start] at asks
    split at asks <;> cases asks
  | close =>
    simp only [start] at asks
    split at asks
    · cases asks
    · split at asks <;> cases asks

/-- Only a call that sends asks to write, in an engine that is connected, and a whole frame. -/
theorem of_asks {block : Bytes} (asks : (start task clock call e).next = .inl (.sending block)) :
    e.state = .connected ∧
      ∃ made, call.outgoing? e.codec.toCodec = some made ∧ framed made = .ok block := by
  cases outgoing : call.outgoing? e.codec.toCodec with
  | none => exact absurd asks (not_asks_of_outgoing outgoing)
  | some made =>
    rw [start_of_outgoing outgoing] at asks
    by_cases connected : e.state = .connected
    · refine ⟨connected, made, rfl, ?_⟩
      rw [startSend_of_connected connected] at asks
      cases block' : framed made with
      | error failure =>
        rw [block'] at asks
        cases asks
      | ok block =>
        rw [block'] at asks
        cases asks
        rfl
    · rw [startSend_of_unconnected connected] at asks
      cases asks

end Phase

end EngineCall

/-! ## The calls as moves -/

/-- The engine as far as writing is concerned. -/
def Engine.desk {M : Type} (e : Engine M) : Desk := ⟨e.writerLock, e.writer⟩

namespace EngineCall.Phase

variable {M : Type}

/-- What a call has to do with the writing half. -/
def errand? : Phase M → Option Errand
  | .installing | .retracting | .detaching => some .handles
  | .sending block => some (.sends block)
  | .writing block _ _ => some (.writes block)
  | _ => none

/-- What a call deals with a step that leads to the given phase or answer. -/
def deals : Phase M → Phase M ⊕ Answer → List Dealing
  | .begin _, .inl (.sending block) => [.asks block]
  | .sending _, .inl (.writing block _ _) => [.hands block]
  | .sending block, .inr _ => [.denied block]
  | .writing block _ _, .inr (.done outcome) => [.ends block outcome]
  | _, _ => []

section

variable {task : TaskId} {clock : Nat} {e : Engine M} {phase : Phase M} {step : Step M}

theorem desk_closeWriter (e : Engine M) : e.closeWriter.2.desk = ⟨e.writerLock, false⟩ := by
  unfold Engine.closeWriter
  cases there : e.writer with
  | true => rfl
  | false =>
    show Desk.mk e.writerLock e.writer = _
    rw [there]

/-- Whoever takes the writing half out leaves the line. -/
theorem desk_releasesWriter_closeWriter (e : Engine M) (task : TaskId) :
    (e.closeWriter.2.releasesWriter task).desk = ⟨e.writerLock.release task, false⟩ := by
  have closed := desk_closeWriter e
  have lock : e.closeWriter.2.writerLock = e.writerLock := congrArg Desk.lock closed
  have gone : e.closeWriter.2.writer = false := congrArg Desk.writer closed
  show Desk.mk (e.closeWriter.2.writerLock.release task) e.closeWriter.2.writer = _
  rw [lock, gone]

/-- It is the turn of a sender. -/
theorem move_startWrite (granted : e.desk.lock.granted task = true) (block : Bytes) :
    Desk.Move task (some (.sends block)) e.desk
      ((Phase.sending block).deals (startWrite task clock block e).next)
      ((startWrite task clock block e).next.getLeft?.bind errand?)
      (startWrite task clock block e).engine.desk := by
  unfold startWrite
  by_cases there : e.writer = true
  · have placed : e.desk.writer = true := there
    rw [if_neg (by rw [there]; exact Bool.false_ne_true)]
    exact .hands granted block placed
  · have gone : e.desk.writer = false := Bool.eq_false_iff.mpr there
    rw [if_pos (by rw [Bool.eq_false_iff.mpr there]; rfl)]
    exact .denied granted block gone

theorem Steps.move (steps : Steps task clock e phase step)
    (ready : phase.ready task clock e = true) (other : ∀ block, phase ≠ .sending block) :
    Desk.Move task phase.errand? e.desk (phase.deals step.next)
      (step.next.getLeft?.bind errand?) step.engine.desk := by
  cases steps with
  | sends block other => exact .asks e.desk block
  | detaches unclosed => exact .comes e.desk
  | registers operation =>
    cases (operation.step task e.registry).1 <;> exact .rests none e.desk
  | opens latest failure? link => exact .comes e.desk
  | installs connecting =>
    have granted : e.desk.lock.granted task = true := ready
    exact .goes granted true
  | withdraws unconnecting =>
    have granted : e.desk.lock.granted task = true := ready
    exact .again granted true
  | retracts =>
    have granted : e.desk.lock.granted task = true := ready
    show Desk.Move task _ _ _ none (e.closeWriter.2.releasesWriter task).desk
    rw [desk_releasesWriter_closeWriter]
    exact .goes granted false
  | denies block => exact absurd rfl (other block)
  | writes block latest failure? link => exact absurd rfl (other block)
  | writesOut block latest failure? outcome link => exact .ends e.desk block outcome
  | joined latest => exact .comes e.desk
  | parts outcome =>
    have granted : e.desk.lock.granted task = true := ready
    show Desk.Move task _ _ _ none (e.closeWriter.2.releasesWriter task).desk
    rw [desk_releasesWriter_closeWriter]
    exact .goes granted false
  | _ => exact .rests _ e.desk

/-- Every step of a call is a move. -/
theorem move_step (ready : phase.ready task clock e = true) :
    Desk.Move task phase.errand? e.desk (phase.deals (phase.step task clock e).next)
      ((phase.step task clock e).next.getLeft?.bind errand?)
      (phase.step task clock e).engine.desk := by
  by_cases sends : ∃ block, phase = .sending block
  · obtain ⟨block, rfl⟩ := sends
    exact move_startWrite ready block
  · exact (phase.steps task clock e).move ready fun block same => sends ⟨block, same⟩

/-- No step leads back to the beginning. -/
theorem Steps.next_ne_begin (steps : Steps task clock e phase step) (call : EngineCall M) :
    step.next ≠ .inl (.begin call) := by
  intro same
  cases steps with
  | registers operation =>
    simp only at same
    cases turn : (operation.step task e.registry).1 with
    | inl next =>
      rw [turn] at same
      cases same
    | inr result =>
      rw [turn] at same
      cases same
  | _ => cases same

end

/-! ## What a dealing says about the call -/

/-- The dealings that there are. -/
inductive Deals : Phase M → Phase M ⊕ Answer → Dealing → Prop
  | asks (call : EngineCall M) (block : Bytes) :
      Deals (.begin call) (.inl (.sending block)) (.asks block)
  | hands (waited block : Bytes) (latest : Nat) (failure? : Option String) :
      Deals (.sending waited) (.inl (.writing block latest failure?)) (.hands block)
  | denied (block : Bytes) (answer : Answer) : Deals (.sending block) (.inr answer) (.denied block)
  | ends (block : Bytes) (latest : Nat) (failure? : Option String) (outcome : Except Failure Unit) :
      Deals (.writing block latest failure?) (.inr (.done outcome)) (.ends block outcome)

theorem deals_of_mem {phase : Phase M} {next : Phase M ⊕ Answer} {dealing : Dealing}
    (among : dealing ∈ phase.deals next) : Deals phase next dealing := by
  unfold Phase.deals at among
  split at among
  · cases List.mem_singleton.mp among
    exact .asks _ _
  · cases List.mem_singleton.mp among
    exact .hands _ _ _ _
  · cases List.mem_singleton.mp among
    exact .denied _ _
  · cases List.mem_singleton.mp among
    exact .ends _ _ _ _
  · cases among

/-- If the writing half is there, the sender whose turn it is starts to write. -/
theorem startWrite_of_writer {task : TaskId} {clock : Nat} {e : Engine M} (there : e.writer = true)
    (block : Bytes) :
    (startWrite task clock block e).next =
      .inl (.writing block (clock + e.link.planWrite.1.delay) e.link.planWrite.1.failure?) := by
  unfold startWrite
  rw [there]
  rfl

end EngineCall.Phase

namespace Engine

variable {M : Type}

/-- What a task has to do with the writing half. -/
def errand? : Stage M → Option Errand
  | .inl phase => phase.errand?
  | .inr _ => none

def errands (stages' : Work (Stage M)) : Work Errand := seen errand? stages'

/-- What a sender has to do with the writing half in the course of an action. -/
def dealings (w : Site M) (deed : Deed M) : Ledger :=
  match actor w deed with
  | some (task, .inl phase) =>
    (phase.deals (phase.step task w.clock w.state).next).map fun dealing => (task, dealing)
  | _ => []

/-- Whoever has waited to write and acquires the lock in the course of an action, and its block. -/
def acquires (w : Site M) (deed : Deed M) : List (TaskId × Bytes) :=
  match actor w deed with
  | some (task, .inl (.sending block)) => [(task, block)]
  | _ => []

/-- All that senders have to do with the writing half in a run. -/
def ledger (w : Site M) (deeds : List (Deed M)) : Ledger := w.history machine dealings deeds

theorem ledger_append (w : Site M) (before after : List (Deed M)) :
    ledger w (before ++ after) = ledger w before ++ ledger (w.applyAll machine before) after :=
  World.history_append before after

theorem ledger_snoc (w : Site M) (before : List (Deed M)) (deed : Deed M) :
    ledger w (before ++ [deed]) = ledger w before ++ dealings (w.applyAll machine before) deed :=
  World.history_snoc before deed

/-- The line is left to the calls. -/
theorem callsOnly_desk : CallsOnly (desk (M := M)) where
  registry _ _ := rfl
  reader _ _ := rfl
  aborted _ _ := rfl
  receives _ _ _ _ := rfl
  feeds _ _ := rfl

section

variable {w : Site M} {deed : Deed M} {deeds : List (Deed M)} {task : TaskId} {block : Bytes}
  {log : Ledger}

theorem dealings_of_call {phase : EngineCall.Phase M}
    (acts : actor w deed = some (task, .inl phase)) :
    dealings w deed =
      (phase.deals (phase.step task w.clock w.state).next).map fun dealing => (task, dealing) := by
  unfold dealings
  rw [acts]

theorem dealings_of_uncalled (uncalled : ∀ task phase, actor w deed ≠ some (task, .inl phase)) :
    dealings w deed = [] := by
  unfold dealings
  split
  next task phase acts => exact absurd acts (uncalled task phase)
  next => rfl

theorem of_dealings {dealing : Dealing} (deals : (task, dealing) ∈ dealings w deed) :
    ∃ phase, actor w deed = some (task, .inl phase) ∧
      EngineCall.Phase.Deals phase (phase.step task w.clock w.state).next dealing := by
  unfold dealings at deals
  split at deals
  next caller phase acts =>
    obtain ⟨found, among, same⟩ := List.mem_map.mp deals
    cases same
    exact ⟨phase, acts, EngineCall.Phase.deals_of_mem among⟩
  next => cases deals

theorem numbered_applyAll (numbered : w.Numbered) (deeds : List (Deed M)) :
    (w.applyAll machine deeds).Numbered := by
  induction deeds generalizing w with
  | nil => exact numbered
  | cons deed deeds ih => exact ih (numbered.apply machine deed)

/-- As long as the engine is connected nobody is to put the writing half in or to take it out. -/
theorem errand_ne_handles {n : Nat} {place : Place} {milestones : List (TaskId × Milestone)}
    {entered : List ConnectionState}
    (held : Custody.Held n place (parts (stages w)) w.state.custody milestones entered)
    (connected : w.state.state = .connected) (other : TaskId) :
    errands (stages w) other ≠ some .handles := by
  intro handles
  cases there : stages w other with
  | none => cases (seen_of_none there).symm.trans handles
  | some stage =>
    have errand := (seen_of_some there).symm.trans handles
    rcases stage with phase | reading
    · -- Whoever handles the writing half has a part in opening or closing the link, and another one
      -- than to tell the listeners.
      have announces : ∀ part, phase.part? = some part → part = .announces :=
        fun part mine => held.eq_announces_of_connected connected ((parts_of_some there).trans mine)
      cases phase with
      | installing => cases announces _ rfl
      | retracting => cases announces _ rfl
      | detaching => cases announces _ rfl
      | _ => cases errand
    · cases errand

/-- Whoever asks to write finds the writing half there, and nobody who is to take it out. -/
theorem finds_of_asks {n : Nat} {place : Place} {milestones : List (TaskId × Milestone)}
    {entered : List ConnectionState}
    (held : Custody.Held n place (parts (stages w)) w.state.custody milestones entered)
    {phase : EngineCall.Phase M}
    (asks : .asks block ∈ phase.deals (phase.step task w.clock w.state).next) :
    w.state.desk.writer = true ∧ ∀ other, errands (stages w) other ≠ some .handles := by
  have deals := EngineCall.Phase.deals_of_mem asks
  generalize turn : (phase.step task w.clock w.state).next = next at deals
  cases deals with
  | asks call block =>
    obtain ⟨connected, -⟩ := EngineCall.Phase.of_asks turn
    exact ⟨held.writer_of_connected connected, errand_ne_handles held connected⟩

theorem errands_of_call {phase : EngineCall.Phase M} (numbered : w.Numbered)
    (acts : actor w deed = some (task, .inl phase)) :
    Desk.Move task (errands (stages w) task) w.state.desk
        (phase.deals (phase.step task w.clock w.state).next)
        ((phase.step task w.clock w.state).next.getLeft?.bind EngineCall.Phase.errand?)
        (w.apply machine deed).state.desk ∧
      errands (stages (w.apply machine deed)) = (errands (stages w)).set task
        ((phase.step task w.clock w.state).next.getLeft?.bind EngineCall.Phase.errand?) := by
  obtain ⟨-, ready, there⟩ := run_of_actor acts
  have errand : errands (stages w) task = phase.errand? := seen_of_some there
  rw [errand, (apply_of_call numbered acts).2]
  exact ⟨EngineCall.Phase.move_step (ready_of_stage there ready),
    seen_of_call (fun _ => rfl) numbered acts⟩

/-- Every action keeps the line and the dealings together. -/
theorem inLine_apply {n : Nat} {milestones : List (TaskId × Milestone)}
    {entered : List ConnectionState} (accounted : Accounted n w milestones entered)
    (patient : Patient w deed)
    (inLine : Desk.InLine (errands (stages w)) w.state.desk log) :
    Desk.InLine (errands (stages (w.apply machine deed))) (w.apply machine deed).state.desk
      (log ++ dealings w deed) := by
  obtain ⟨place, held⟩ := accounted.held
  by_cases called : ∃ task phase, actor w deed = some (task, .inl phase)
  · obtain ⟨task, phase, acts⟩ := called
    obtain ⟨move, moved⟩ := errands_of_call accounted.numbered acts
    rw [moved, dealings_of_call acts]
    exact Desk.inLine_move inLine move fun block asks => finds_of_asks held asks
  · -- Neither the line nor the desk is touched by anybody else.
    have uncalled : ∀ task phase, actor w deed ≠ some (task, .inl phase) :=
      fun task phase acts => called ⟨task, phase, acts⟩
    have kept : ∀ task phase, deed = .abandon task → stages w task ≠ some (.inl phase) :=
      fun task phase => patient.2 task phase
    have same : errands (stages (w.apply machine deed)) = errands (stages w) :=
      seen_of_uncalled (fun _ => rfl) (fun _ => rfl) accounted.numbered patient.1 kept uncalled
    rw [same, callsOnly_desk.apply kept uncalled, dealings_of_uncalled uncalled, List.append_nil]
    exact inLine

theorem inLine_create (codec : RequestCodec M) (settings : EngineSettings)
    (link : ScriptedLink) :
    Desk.InLine (errands (stages (World.ofState (create codec settings link) : Site M)))
      (create codec settings link).desk [] where
  standing := {
    stands := fun _ => iff_of_false List.not_mem_nil Bool.false_ne_true
    exclusive := nofun
    once := List.nodup_nil }
  first := nofun
  sorted := List.Pairwise.nil
  writer := nofun
  asked := rfl
  handed := rfl

section

variable {codec : RequestCodec M} {settings : EngineSettings} {link : ScriptedLink} {start : Site M}

theorem numbered_of_fresh (fresh : start = World.ofState (create codec settings link)) :
    start.Numbered := fresh ▸ World.numbered_ofState _

/-- In every run in which no call is given up, those in line are those who have asked and have not
had their turn, and who writes is the first. -/
theorem inLine_run (fresh : start = World.ofState (create codec settings link))
    (obeys : start.Obeys machine Patient deeds) :
    Desk.InLine (errands (stages (start.applyAll machine deeds)))
      (start.applyAll machine deeds).state.desk (ledger start deeds) := by
  subst fresh
  refine World.keeps_run (inLine_create codec settings link) ?_ obeys
  intro before deed earlier patient inLine
  rw [World.applyAll_snoc, ledger_snoc]
  exact inLine_apply (accounted_run (accounted_create codec settings link) earlier) patient inLine

/-- No sender finds the writing half gone. -/
theorem undenied_run (fresh : start = World.ofState (create codec settings link))
    (obeys : start.Obeys machine Patient deeds) (task : TaskId) (block : Bytes) :
    (task, .denied block) ∉ ledger start deeds := by
  intro denied
  obtain ⟨before, deed, after, rfl, among⟩ := World.mem_history.mp denied
  have inLine := inLine_run fresh (World.obeys_append.mp obeys).1
  obtain ⟨phase, acts, -⟩ := of_dealings among
  have numbered := numbered_applyAll (numbered_of_fresh fresh) before
  obtain ⟨move, -⟩ := errands_of_call numbered acts
  rw [dealings_of_call acts] at among
  obtain ⟨dealing, deals, same⟩ := List.mem_map.mp among
  cases same
  exact Desk.not_denied inLine move block deals

/-- Whoever acquires the lock hands its block over at once. -/
theorem handed_apply (inLine : Desk.InLine (errands (stages w)) w.state.desk log) (deed : Deed M) :
    (dealings w deed).blocks Dealing.handed? = acquires w deed := by
  by_cases sends : ∃ task block, actor w deed = some (task, .inl (.sending block))
  · obtain ⟨task, block, acts⟩ := sends
    have at_work := (run_of_actor acts).2.2
    have errand : errands (stages w) task = some (.sends block) := seen_of_some at_work
    have next : ((EngineCall.Phase.sending block).step task w.clock w.state).next = _ :=
      EngineCall.Phase.startWrite_of_writer (inLine.asked_of_sender (Or.inl errand)).2 block
    rw [dealings_of_call acts, next, acquires, acts]
    rfl
  · have nobody : acquires w deed = [] := by
      unfold acquires
      split
      next task block acts => exact absurd ⟨task, block, acts⟩ sends
      next => rfl
    rw [nobody, List.eq_nil_iff_forall_not_mem]
    intro entry there
    obtain ⟨task, block⟩ := entry
    obtain ⟨phase, acts, deals⟩ := of_dealings (Ledger.mem_handed.mp there)
    generalize (phase.step task w.clock w.state).next = next at deals
    cases deals with
    | hands waited block latest failure? => exact sends ⟨task, waited, acts⟩

/-- Blocks are handed over by those who acquire the lock to write, in this order. -/
theorem handed_run (fresh : start = World.ofState (create codec settings link))
    (obeys : start.Obeys machine Patient deeds) :
    (ledger start deeds).blocks Dealing.handed? = start.history machine acquires deeds := by
  refine World.keeps_run rfl ?_ obeys
  intro before deed earlier _ same
  rw [ledger_snoc, Ledger.blocks_append, World.history_snoc, same,
    handed_apply (inLine_run fresh earlier) deed]

end

/-! ## Every call asks once -/

/-- A task is not at the beginning of a call, and will not be. -/
def Past (w : Site M) (task : TaskId) : Prop :=
  task < w.next ∧ ∀ call, stages w task ≠ some (.inl (.begin call))

theorem Past.apply (past : Past w task) (numbered : w.Numbered) (deed : Deed M) :
    Past (w.apply machine deed) task := by
  refine ⟨Nat.lt_of_lt_of_le past.1 (World.next_le_apply machine w deed), fun call there => ?_⟩
  by_cases acts : ∃ stage, actor w deed = some (task, stage)
  · obtain ⟨phase | reading, acts⟩ := acts
    · rw [stage_of_call numbered acts] at there
      obtain ⟨next, goesOn, same⟩ := Option.map_eq_some_iff.mp there
      cases same
      exact (phase.steps task w.clock w.state).next_ne_begin call
        (Sum.getLeft?_eq_some_iff.mp goesOn)
    · rw [(apply_of_reader acts).1, Work.set_self] at there
      obtain ⟨next, goesOn, same⟩ := Option.map_eq_some_iff.mp there
      cases same
  · have idle : ∀ stage, actor w deed ≠ some (task, stage) := fun stage same => acts ⟨stage, same⟩
    exact past.2 call (stays_of_idle numbered past.1 idle there)

theorem Past.run (past : Past w task) (numbered : w.Numbered) (deeds : List (Deed M)) :
    Past (w.applyAll machine deeds) task := by
  induction deeds generalizing w with
  | nil => exact past
  | cons deed deeds ih => exact ih (past.apply numbered deed) (numbered.apply machine deed)

/-- The first step of a call leads away from its beginning. -/
theorem past_of_begin (numbered : w.Numbered) {call : EngineCall M}
    (begins : stages w task = some (.inl (.begin call))) :
    Past (w.apply machine (.run task)) task := by
  have old := lt_next_of_stage numbered begins
  refine ⟨Nat.lt_of_lt_of_le old (World.next_le_apply machine w _), fun other there => ?_⟩
  have acts := actor_of_run (ready_of_begin begins) begins
  rw [stage_of_call numbered acts] at there
  obtain ⟨next, goesOn, same⟩ := Option.map_eq_some_iff.mp there
  cases same
  exact ((EngineCall.Phase.begin call).steps task w.clock w.state).next_ne_begin other
    (Sum.getLeft?_eq_some_iff.mp goesOn)

/-- A call begins once. -/
theorem eq_of_begins (numbered : w.Numbered) {before before' after after' : List (Deed M)}
    (split : before ++ .run task :: after = before' ++ .run task :: after')
    {call call' : EngineCall M}
    (begins : stages (w.applyAll machine before) task = some (.inl (.begin call)))
    (begins' : stages (w.applyAll machine before') task = some (.inl (.begin call'))) :
    before = before' := by
  -- If there is anything between the two, the call is past its beginning at the second.
  have between : ∀ {first second : List (Deed M)} {deed : Deed M} {call call' : EngineCall M}
      {rest rest' : List (Deed M)}, .run task :: rest = deed :: second ++ .run task :: rest' →
      stages (w.applyAll machine first) task = some (.inl (.begin call)) →
      stages (w.applyAll machine (first ++ deed :: second)) task ≠ some (.inl (.begin call')) := by
    intro first second deed call call' rest rest' split begins
    obtain rfl := (List.cons.inj split).1
    have numbered := numbered_applyAll numbered first
    have past := (past_of_begin numbered begins).run (numbered.apply machine _) second
    rw [World.applyAll_append]
    exact past.2 call'
  rcases List.append_eq_append_iff.mp split with ⟨rest, rfl, tail⟩ | ⟨rest, rfl, tail⟩
  · cases rest with
    | nil => exact (List.append_nil _).symm
    | cons deed rest => exact absurd begins' (between tail begins)
  · cases rest with
    | nil => exact List.append_nil _
    | cons deed rest => exact absurd begins (between tail begins')

/-- With every action at most one call asks, and it has just begun. -/
theorem asked_cases (w : Site M) (deed : Deed M) :
    (dealings w deed).blocks Dealing.asked? = [] ∨
      ∃ task block call, deed = .run task ∧ stages w task = some (.inl (.begin call)) ∧
        (dealings w deed).blocks Dealing.asked? = [(task, block)] := by
  by_cases asks : ∃ task block, (task, .asks block) ∈ dealings w deed
  · obtain ⟨task, block, asks⟩ := asks
    obtain ⟨phase, acts, deals⟩ := of_dealings asks
    obtain ⟨rfl, -, there⟩ := run_of_actor acts
    rw [dealings_of_call acts]
    generalize (phase.step task w.clock w.state).next = next at deals
    cases deals
    exact Or.inr ⟨task, block, _, rfl, there, rfl⟩
  · refine Or.inl (List.eq_nil_iff_forall_not_mem.mpr fun entry there => ?_)
    obtain ⟨dealing, among, shows⟩ := Ledger.mem_blocks.mp there
    cases dealing with
    | asks block => exact asks ⟨entry.1, block, among⟩
    | _ => cases shows

/-- No call asks twice. -/
theorem asked_once (numbered : w.Numbered) (obeys : w.Obeys machine Patient deeds) :
    (((ledger w deeds).blocks Dealing.asked?).map Prod.fst).Nodup := by
  have all : (((ledger w deeds).blocks Dealing.asked?).map Prod.fst).Nodup ∧
      ∀ task ∈ ((ledger w deeds).blocks Dealing.asked?).map Prod.fst,
        Past (w.applyAll machine deeds) task := by
    refine World.keeps_run ⟨List.nodup_nil, fun _ none => nomatch none⟩ ?_ obeys
    intro before deed _ _ ⟨once, past⟩
    have numbered := numbered_applyAll numbered before
    have later : ∀ task ∈ ((ledger w before).blocks Dealing.asked?).map Prod.fst,
        Past ((w.applyAll machine before).apply machine deed) task :=
      fun task there => (past task there).apply numbered deed
    rw [ledger_snoc, World.applyAll_snoc, Ledger.blocks_append, List.map_append]
    rcases asked_cases (w.applyAll machine before) deed with
      none | ⟨task, block, call, rfl, begins, one⟩
    · rw [none, List.map_nil, List.append_nil]
      exact ⟨once, later⟩
    · -- Who asks now is at its beginning, and who has asked before is past it.
      rw [one, List.map_singleton]
      refine ⟨List.nodup_append.mpr ⟨once, List.nodup_singleton task, ?_⟩, ?_⟩
      · intro other there new last same
        rw [same, List.mem_singleton.mp last] at there
        exact (past task there).2 call begins
      · intro other there
        rcases List.mem_append.mp there with earlier | now
        · exact later other earlier
        · rw [List.mem_singleton.mp now]
          exact past_of_begin numbered begins
  exact all.1

/-- No call hands anything over twice. -/
theorem handed_once {codec : RequestCodec M} {settings : EngineSettings} {link : ScriptedLink}
    {start : Site M} (fresh : start = World.ofState (create codec settings link))
    (obeys : start.Obeys machine Patient deeds) :
    (((ledger start deeds).blocks Dealing.handed?).map Prod.fst).Nodup := by
  have once := asked_once (numbered_of_fresh fresh) obeys
  rw [(inLine_run fresh obeys).asked, List.map_append] at once
  exact (List.nodup_append.mp once).1

end

end Engine

end HardwareSigner
