import HardwareSigner.Proofs.Engine.Output
import HardwareSigner.Proofs.Engine.Telling

/-!
# What becomes of a call that sends

A call that sends is refused at its beginning, or waits for its turn. When it is its turn, its block
is handed over, and the call returns as the write ends (`Engine.Fate`). A call that is refused has
handed nothing over.

> `Engine.fate_of_returned`: this becomes of every call that sends and has returned.
> `Engine.open_of_dealings`: nothing is handed over unless the engine has been connected, and the
> link has not been closed.
-/

namespace HardwareSigner

namespace Engine

variable {M : Type}

/-- A call takes its first step right after `before`. -/
structure Begins (start : Site M) (deeds : List (Deed M)) (caller : TaskId) (call : EngineCall M)
    (before : List (Deed M)) : Prop where
  split : ∃ after, deeds = before ++ .run caller :: after
  begins : stages (start.applyAll machine before) caller = some (.inl (.begin call))

/-- What has become of a call that sends and has returned. The dealings of the run are `log`, and
`made` is the message that the call was to send. -/
inductive Fate (log : Ledger) (caller : TaskId) (made : Except Failure (MessageType × Bytes)) :
    EngineCall.Answer → Prop
  /-- It has found the engine not connected. -/
  | refused (silent : ∀ dealing, (caller, dealing) ∉ log) :
      Fate log caller made (.done (.error .notConnected))
  /-- There is no frame for it. -/
  | unmade {failure : Failure} (failed : EngineCall.framed made = .error failure)
      (silent : ∀ dealing, (caller, dealing) ∉ log) : Fate log caller made (.done (.error failure))
  /-- Its block has been handed over, and writing it has come to an end. -/
  | handed {block : Bytes} {outcome : Except Failure Unit}
      (whole : EngineCall.framed made = .ok block) (hands : (caller, .hands block) ∈ log)
      (ends : (caller, .ends block outcome) ∈ log)
      (link : ∀ failure, outcome = .error failure → failure.OfWriting) :
      Fate log caller made (.done outcome)

/-- The engine has been connected, and its link has not been closed. -/
def Open (start : Site M) (deeds : List (Deed M)) : Prop :=
  .connected ∈ start.history machine enters deeds ∧
    (start.applyAll machine deeds).state.link.closes = start.state.link.closes

/-! ## What the answers say -/

section

variable {w : Site M} {deed : Deed M} {caller : TaskId} {block : Bytes}

/-- Whoever has written returns how writing ended. -/
theorem returned_of_ends {outcome : Except Failure Unit}
    (deals : (caller, .ends block outcome) ∈ dealings w deed) :
    (caller, .done outcome) ∈ returned w deed ∧
      ∀ failure, outcome = .error failure → failure.OfWriting := by
  obtain ⟨phase, acts, deals⟩ := of_dealings deals
  generalize turn : (phase.step caller w.clock w.state).next = next at deals
  cases deals with
  | ends block latest failure? outcome =>
    refine ⟨returned_of_actor acts turn ▸ List.mem_singleton_self _, ?_⟩
    intro failure failed
    have written : (w.state.link.write block failure?).1 = outcome :=
      EngineCall.Answer.done.inj (Sum.inr.inj turn)
    exact ScriptedLink.ofWriting_of_write (written.trans failed)

end

/-! ## How it begins -/

section

variable {codec : RequestCodec M} {settings : EngineSettings} {link : ScriptedLink}
  {start : Site M} {deeds before before' : List (Deed M)} {caller : TaskId}
  {call call' : EngineCall M} {made : Except Failure (MessageType × Bytes)} {block : Bytes}

/-- A call begins once. -/
theorem Begins.unique (numbered : start.Numbered) (first : Begins start deeds caller call before)
    (second : Begins start deeds caller call' before') : before = before' ∧ call = call' := by
  obtain ⟨after, split⟩ := first.split
  obtain ⟨after', split'⟩ := second.split
  obtain rfl := eq_of_begins numbered (split.symm.trans split') first.begins second.begins
  refine ⟨rfl, ?_⟩
  have same := first.begins.symm.trans second.begins
  injection same with same
  injection same with same
  injection same

/-- What a call shows with its first step it shows in the run. -/
theorem Begins.mem_history (begins : Begins start deeds caller call before) {δ : Type}
    {shows : Site M → Deed M → List δ} {item : δ}
    (first : item ∈ shows (start.applyAll machine before) (.run caller)) :
    item ∈ start.history machine shows deeds := by
  obtain ⟨after, split⟩ := begins.split
  exact World.mem_history.mpr ⟨before, _, after, split, first⟩

theorem Begins.acts (begins : Begins start deeds caller call before) :
    actor (start.applyAll machine before) (.run caller) = some (caller, .inl (.begin call)) :=
  actor_of_run (ready_of_begin begins.begins) begins.begins

variable (fresh : start = World.ofState (create codec settings link))
  (obeys : start.Obeys machine Patient deeds)

include fresh obeys

theorem codec_run : (start.applyAll machine deeds).state.codec = codec := by
  refine World.keeps_run (by rw [fresh]; rfl) ?_ obeys
  intro before deed _ patient same
  rw [World.applyAll_snoc]
  have kept := (effect (numbered_applyAll (numbered_of_fresh fresh) before) patient.1).base
  exact (congrArg Prod.fst kept).trans same

/-- Whoever asks to write has just begun to send a message, in an engine that is connected, and the
block is the frame of this message. -/
theorem begins_of_asks (asks : (caller, .asks block) ∈ ledger start deeds) :
    ∃ before call made, Begins start deeds caller call before ∧
      (start.applyAll machine before).state.state = .connected ∧
      call.outgoing? codec.toCodec = some made ∧ EngineCall.framed made = .ok block := by
  obtain ⟨before, deed, after, split, among⟩ := World.mem_history.mp asks
  obtain ⟨phase, acts, deals⟩ := of_dealings among
  obtain ⟨rfl, -, there⟩ := run_of_actor acts
  have same := codec_run fresh (World.obeys_append.mp (split ▸ obeys)).1
  generalize turn : (phase.step caller (start.applyAll machine before).clock
    (start.applyAll machine before).state).next = next at deals
  cases deals with
  | asks call block =>
    obtain ⟨connected, made, sends, whole⟩ := EngineCall.Phase.of_asks turn
    rw [same] at sends
    exact ⟨before, call, made, ⟨⟨after, split⟩, there⟩, connected, sends, whole⟩

section

variable (begins : Begins start deeds caller call before)
  (sends : call.outgoing? codec.toCodec = some made)

include begins sends

/-- What a call asks to write is the frame of its message. -/
theorem framed_of_asks (asks : (caller, .asks block) ∈ ledger start deeds) :
    EngineCall.framed made = .ok block := by
  obtain ⟨before', call', made', begins', -, sends', whole⟩ := begins_of_asks fresh obeys asks
  obtain ⟨-, rfl⟩ := begins.unique (numbered_of_fresh fresh) begins'
  obtain rfl := Option.some.inj (sends.symm.trans sends')
  exact whole

theorem first_step :
    (EngineCall.Phase.begin call).step caller (start.applyAll machine before).clock
        (start.applyAll machine before).state =
      EngineCall.Phase.startSend caller (EngineCall.framed made)
        (start.applyAll machine before).state := by
  obtain ⟨after, split⟩ := begins.split
  have same := codec_run fresh (World.obeys_append.mp (split ▸ obeys)).1
  rw [← same] at sends
  exact EngineCall.Phase.start_of_outgoing sends

/-- A call that sends asks to write if the engine is connected and there is a frame for it. -/
theorem asks_of_begins (connected : (start.applyAll machine before).state.state = .connected)
    (whole : EngineCall.framed made = .ok block) : (caller, .asks block) ∈ ledger start deeds := by
  have first := first_step fresh obeys begins sends
  rw [EngineCall.Phase.startSend_of_connected connected, whole] at first
  refine begins.mem_history ?_
  rw [dealings_of_call begins.acts, first]
  exact List.mem_singleton_self _

/-- Else it returns at once, and says so. -/
theorem returned_of_refused {failure : Failure}
    (refused : (start.applyAll machine before).state.state ≠ .connected ∧ failure = .notConnected ∨
      (start.applyAll machine before).state.state = .connected ∧
        EngineCall.framed made = .error failure) :
    (caller, .done (.error failure)) ∈ start.history machine returned deeds := by
  have answers : EngineCall.Phase.startSend caller (EngineCall.framed made)
      (start.applyAll machine before).state =
        EngineCall.Phase.answer (.error failure) (start.applyAll machine before).state := by
    rcases refused with ⟨unconnected, rfl⟩ | ⟨connected, failed⟩
    · exact EngineCall.Phase.startSend_of_unconnected unconnected _
    · rw [EngineCall.Phase.startSend_of_connected connected, failed]
  have first := (first_step fresh obeys begins sends).trans answers
  refine begins.mem_history ?_
  rw [returned_of_actor begins.acts (congrArg EngineCall.Step.next first)]
  exact List.mem_singleton_self _

end

/-! ## How it ends -/

/-- Whoever has any dealings has asked. -/
theorem asks_of_dealing {dealing : Dealing} (among : (caller, dealing) ∈ ledger start deeds) :
    ∃ block, (caller, .asks block) ∈ ledger start deeds := by
  have inLine := inLine_run fresh obeys
  cases dealing with
  | asks block => exact ⟨block, among⟩
  | denied block => exact absurd among (undenied_run fresh obeys caller block)
  | hands block =>
    exact ⟨block, Ledger.mem_asked.mp (inLine.asked_of_handed (Ledger.mem_handed.mpr among))⟩
  | ends block outcome =>
    have handed := inLine.handed_of_ended (Ledger.mem_ended.mpr ⟨outcome, among⟩)
    exact ⟨block, Ledger.mem_asked.mp (inLine.asked_of_handed handed)⟩

/-- Whoever has asked and returned has handed its block over, and returned how writing ended. -/
theorem ended_of_returned (asks : (caller, .asks block) ∈ ledger start deeds)
    {answer : EngineCall.Answer}
    (returns : (caller, answer) ∈ start.history machine returned deeds) :
    ∃ outcome, answer = .done outcome ∧ (caller, .hands block) ∈ ledger start deeds ∧
      (caller, .ends block outcome) ∈ ledger start deeds ∧
      ∀ failure, outcome = .error failure → failure.OfWriting := by
  have numbered := numbered_of_fresh fresh
  have lawful := obeys.mono fun _ _ patient => patient.1
  have inLine := inLine_run fresh obeys
  -- It has left the line, so all that it has asked for has come to an end.
  have gone : errands (stages (start.applyAll machine deeds)) caller = none :=
    seen_of_none ((gone_of_history numbered lawful).2 caller answer returns).2
  have handed := inLine.handed_of_asked gone (Ledger.mem_asked.mpr asks)
  obtain ⟨outcome, ends⟩ := Ledger.mem_ended.mp (inLine.ended_of_handed gone handed)
  obtain ⟨before, deed, after, split, now⟩ := World.mem_history.mp ends
  obtain ⟨also, writing⟩ := returned_of_ends now
  have later := World.mem_history.mpr ⟨before, deed, after, split, also⟩
  have same := eq_of_returned numbered lawful caller _ _ returns later
  exact ⟨outcome, same, Ledger.mem_handed.mp handed, ends, writing⟩

/-- What becomes of a call that sends. -/
theorem fate_of_returned (begins : Begins start deeds caller call before)
    (sends : call.outgoing? codec.toCodec = some made) {answer : EngineCall.Answer}
    (returns : (caller, answer) ∈ start.history machine returned deeds) :
    Fate (ledger start deeds) caller made answer := by
  by_cases asked : ∃ block, (caller, .asks block) ∈ ledger start deeds
  · obtain ⟨block, asks⟩ := asked
    have whole := framed_of_asks fresh obeys begins sends asks
    obtain ⟨outcome, rfl, hands, ends, writing⟩ := ended_of_returned fresh obeys asks returns
    exact .handed whole hands ends writing
  · -- Who has not asked has been answered with its first step, and has no other answer.
    have silent : ∀ dealing, (caller, dealing) ∉ ledger start deeds :=
      fun dealing among => asked (asks_of_dealing fresh obeys among)
    have only : ∀ failure, (caller, .done (.error failure)) ∈ start.history machine returned deeds →
        answer = .done (.error failure) :=
      fun failure also => eq_of_returned (numbered_of_fresh fresh)
        (obeys.mono fun _ _ patient => patient.1) caller _ _ returns also
    by_cases connected : (start.applyAll machine before).state.state = .connected
    · cases whole : EngineCall.framed made with
      | error failure =>
        obtain rfl := only failure
          (returned_of_refused fresh obeys begins sends (Or.inr ⟨connected, whole⟩))
        exact .unmade whole silent
      | ok block =>
        exact absurd ⟨block, asks_of_begins fresh obeys begins sends connected whole⟩ asked
    · obtain rfl := only .notConnected
        (returned_of_refused fresh obeys begins sends (Or.inl ⟨connected, rfl⟩))
      exact .refused silent

/-! ## Nothing is handed over but on an open link -/

/-- As long as somebody stands in line to write, or writes, the link is open. -/
theorem open_of_errand
    (sender : errands (stages (start.applyAll machine deeds)) caller = some (.sends block) ∨
      errands (stages (start.applyAll machine deeds)) caller = some (.writes block)) :
    Open start deeds := by
  obtain ⟨asked, there⟩ := (inLine_run fresh obeys).asked_of_sender sender
  obtain ⟨earlier, call, made, begins, connected, -, -⟩ :=
    begins_of_asks fresh obeys (Ledger.mem_asked.mp asked)
  obtain ⟨later, split⟩ := begins.split
  -- It was connected when the sender asked, and whoever closes the link takes the writing half out.
  constructor
  · have entered := entered_of_connected (fun same => by rw [fresh] at same; cases same) connected
    rw [split, World.history_append]
    exact List.mem_append_left _ entered
  · subst fresh
    obtain ⟨place, held⟩ := (accounted_run (accounted_create codec settings link) obeys).held
    exact held.closes_of_writer there

/-- The link is open when a block is handed over, and still is when the write ends. -/
theorem open_of_dealings {deed : Deed M} {dealing : Dealing}
    (deals : (caller, dealing) ∈ dealings (start.applyAll machine deeds) deed)
    (handing : ∀ block, dealing ≠ .asks block) : Open start deeds := by
  obtain ⟨phase, acts, deals⟩ := of_dealings deals
  obtain ⟨-, -, at_work⟩ := run_of_actor acts
  generalize (phase.step caller (start.applyAll machine deeds).clock
    (start.applyAll machine deeds).state).next = next at deals
  cases deals with
  | asks call block => exact absurd rfl (handing block)
  | hands waited block latest failure? =>
    exact open_of_errand fresh obeys (Or.inl (seen_of_some at_work))
  | denied block answer => exact open_of_errand fresh obeys (Or.inl (seen_of_some at_work))
  | ends block latest failure? outcome =>
    exact open_of_errand fresh obeys (Or.inr (seen_of_some at_work))

end

end Engine

end HardwareSigner
