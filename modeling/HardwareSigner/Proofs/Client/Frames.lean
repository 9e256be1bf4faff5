import HardwareSigner.Proofs.Client.Session
import HardwareSigner.Proofs.Engine.Output
import HardwareSigner.Proofs.Engine.Telling

/-!
# What a client's calls write

A request that is to send a message writes the frame of this message once and nothing else: before
the client begins to wait, or never. In an engine that is not connected it writes nothing.

> `Session.posts_run`: what each call has written so far, and when it is over.
> `Session.told_of_unconnected`: a call to an engine that is not connected.
-/

namespace HardwareSigner

open Engine (Site Deed machine Lawful)

variable {M : Type}

namespace EngineCall.Phase

variable {task : TaskId} {clock : Nat} {e : Engine M} {phase : Phase M} {codec : RequestCodec M}
  {message : M}

/-- A call that is to send a message, until it has been written. -/
inductive Posting (codec : RequestCodec M) (message : M) : Phase M → Prop
  | begins : Posting codec message (.begin (.send message))
  | waits {frame : Bytes} (encoded : codec.encode message = .ok frame) :
      Posting codec message (.sending frame)
  | writes {frame : Bytes} (encoded : codec.encode message = .ok frame) (latest : Nat)
      (failure? : Option String) : Posting codec message (.writing frame latest failure?)

/-- Where a step of such a call leads, and the blocks that go out with it. -/
inductive Posted (codec : RequestCodec M) (message : M) : Phase M ⊕ Answer → List Bytes → Prop
  | goesOn {phase : Phase M} (posting : Posting codec message phase) :
      Posted codec message (.inl phase) []
  | fails (failure : Failure) : Posted codec message (.inr (.done (.error failure))) []
  | sent {frame : Bytes} (encoded : codec.encode message = .ok frame) :
      Posted codec message (.inr (.done (.ok ()))) [frame]

theorem Posted.onward {out : List Bytes} (posted : Posted codec message (.inl phase) out) :
    Posting codec message phase ∧ out = [] := by
  cases posted with
  | goesOn posting => exact ⟨posting, rfl⟩

theorem Posted.ended {answer : Answer} {out : List Bytes}
    (posted : Posted codec message (.inr answer) out) :
    (∃ failure, answer = .done (.error failure) ∧ out = []) ∨
      ∃ frame, codec.encode message = .ok frame ∧ answer = .done (.ok ()) ∧ out = [frame] := by
  cases posted with
  | fails failure => exact Or.inl ⟨failure, rfl, rfl⟩
  | sent encoded => exact Or.inr ⟨_, encoded, rfl, rfl⟩

theorem posted_of_posting (task : TaskId) (clock : Nat) (posting : Posting e.codec message phase) :
    Posted e.codec message (phase.step task clock e).next (phase.sendsOut e) := by
  cases posting with
  | begins =>
    show Posted _ _ (startSend task (e.codec.encode message) e).next []
    unfold startSend
    split
    · exact .fails _
    · split
      next failure refused => exact .fails failure
      next frame encoded => exact .goesOn (.waits encoded)
  | waits encoded =>
    show Posted _ _ (startWrite task clock _ e).next []
    unfold startWrite
    split
    · exact .fails _
    · exact .goesOn (.writes encoded _ _)
  | @writes frame encoded latest failure? =>
    show Posted _ _ (.inr (.done (e.link.write frame failure?).1))
      (ScriptedLink.gotOut frame (e.link.write frame failure?).1)
    cases (e.link.write frame failure?).1 with
    | ok => exact .sent encoded
    | error failure => exact .fails failure

/-- What goes out with a step has been written. -/
theorem written_step (phase : Phase M) :
    (phase.step task clock e).engine.link.written.drop e.link.written.length =
      phase.sendsOut e := by
  have written : (phase.linkAfter e).written = e.link.written ++ phase.sendsOut e :=
    (phase.delivers e).written
  rw [link_step, written, List.drop_left]

end EngineCall.Phase

open EngineCall.Phase (Posting Posted)

namespace Client

variable {c : Client} {codec : RequestCodec M} {request : ClientRequest M} {message : M}

/-- The message that a request is to send. -/
def message? (c : Client) (codec : RequestCodec M) : ClientRequest M → Option M
  | .ping text => some (codec.ping text)
  | .startSession => some (codec.startSession c.session)
  | .send message => some message
  | _ => none

theorem task?_of_message (sends : c.message? codec request = some message) (clock : Nat) :
    c.task? codec clock request = some (c.requestTask (.send message)) := by
  cases request with
  | ping | startSession | send =>
    cases sends
    rfl
  | _ => cases sends

/-- How far the client's message has got, and what has been written for it. -/
inductive Course (c : Client) (codec : RequestCodec M) (message : M) :
    EngineTask M → List Bytes → Prop
  | calls {phase : EngineCall.Phase M} (posting : Posting codec message phase) :
      Course c codec message (.call phase) []
  | exchanges {phase : EngineCall.Phase M} (posting : Posting codec message phase)
      (box : MailboxId) (ms : UInt64) : Course c codec message (.exchange phase box ms) []
  | awaits {frame : Bytes} (encoded : codec.encode message = .ok frame) (waiting : Receiving) :
      Course c codec message (.receive waiting) [frame]

theorem course_of_requestTask (c : Client) (codec : RequestCodec M) (message : M) :
    Course c codec message (c.requestTask (.send message)) [] := by
  unfold requestTask
  split
  · exact .exchanges .begins _ _
  · exact .calls .begins

theorem wrote_of_requestTask {call : EngineCall M} {wrote : List Bytes}
    (course : Course c codec message (c.requestTask call) wrote) : wrote = [] := by
  unfold requestTask at course
  split at course
  · cases course
    rfl
  · cases course
    rfl

theorem ready_requestTask (c : Client) (task : TaskId) (clock : Nat) (call : EngineCall M)
    (e : Engine M) : machine.ready task clock (c.requestTask call) e = true := by
  unfold requestTask
  split <;> rfl

/-- An engine that is not connected refuses to send. -/
theorem step_of_unconnected {e : Engine M} (unconnected : e.state ≠ .connected) (c : Client)
    (message : M) (task : TaskId) (clock : Nat) :
    machine.step task clock (c.requestTask (.send message)) e =
      { next := .inr (.call (.done (.error .notConnected))), state := e } := by
  have refused : EngineCall.Phase.step task clock (.begin (.send message)) e =
      EngineCall.Phase.answer (.error .notConnected) e :=
    EngineCall.Phase.startSend_of_unconnected unconnected _
  show EngineTask.step task clock (c.requestTask (.send message)) e = _
  unfold requestTask
  split
  all_goals
    simp only [EngineTask.step, EngineTask.stepCall, refused]
    rfl

end Client

/-- What a call that is to send a message has written when it is over: one frame if it has succeeded
or waited for an event, and nothing if it has failed before. -/
def Told.Posts (codec : RequestCodec M) (message : M) (told : Told M) : Prop :=
  match told.outcome with
  | .done (.ok ()) | .found _ => ∃ frame, codec.encode message = .ok frame ∧ told.wrote = [frame]
  | .done (.error _) => told.wrote = []
  | _ => told.wrote = [] ∨ ∃ frame, codec.encode message = .ok frame ∧ told.wrote = [frame]

namespace Client

variable {c : Client} {request : ClientRequest M} {message : M} {task : TaskId} {clock : Nat}
  {e : Engine M} {found : EngineTask M} {wrote : List Bytes}

/-- What is written with a step of a task. -/
theorem written_step {phase : EngineCall.Phase M} (calls : found = .call phase ∨
    ∃ box ms, found = .exchange phase box ms) :
    (EngineTask.step task clock found e).state.link.written.drop e.link.written.length =
      phase.sendsOut e := by
  obtain rfl | ⟨box, ms, rfl⟩ := calls <;> exact phase.written_step

theorem course_of_step {later : EngineTask M} (course : Course c e.codec message found wrote)
    (onward : (EngineTask.step task clock found e).next = .inl later) :
    Course c e.codec message later (wrote ++
      (EngineTask.step task clock found e).state.link.written.drop e.link.written.length) := by
  have steps := EngineTask.steps task clock e found
  rw [onward] at steps
  cases course with
  | calls posting =>
    have posted := EngineCall.Phase.posted_of_posting task clock posting
    rw [written_step (Or.inl rfl)]
    cases steps with
    | callsOn turn =>
      obtain ⟨posting, unsent⟩ := (turn ▸ posted).onward
      rw [unsent]
      exact .calls posting
  | exchanges posting box ms =>
    have posted := EngineCall.Phase.posted_of_posting task clock posting
    rw [written_step (Or.inr ⟨box, ms, rfl⟩)]
    cases steps with
    | exchanges _ _ turn =>
      obtain ⟨posting, unsent⟩ := (turn ▸ posted).onward
      rw [unsent]
      exact .exchanges posting box ms
    | waits _ _ turn =>
      -- The client begins to wait with the very step that has written the frame.
      obtain ⟨failure, failed, -⟩ | ⟨frame, encoded, -, sent⟩ := (turn ▸ posted).ended
      · cases failed
      · rw [sent]
        exact .awaits encoded _
  | awaits encoded waiting =>
    cases steps with
    | stays nothing =>
      simp only [EngineTask.step, nothing, List.drop_length, List.append_nil]
      exact .awaits encoded waiting

theorem posts_of_step {answer : EngineTask.Answer M}
    (course : Course c e.codec message found wrote)
    (finished : (EngineTask.step task clock found e).next = .inr answer) :
    (⟨request, c.tells request answer, wrote ++
      (EngineTask.step task clock found e).state.link.written.drop e.link.written.length⟩ :
        Told M).Posts e.codec message := by
  have steps := EngineTask.steps task clock e found
  rw [finished] at steps
  cases course with
  | calls posting =>
    have posted := EngineCall.Phase.posted_of_posting task clock posting
    rw [written_step (Or.inl rfl)]
    cases steps with
    | called turn =>
      rw [tells_call]
      obtain ⟨failure, rfl, unsent⟩ | ⟨frame, encoded, rfl, sent⟩ := (turn ▸ posted).ended
      · exact unsent
      · exact ⟨frame, encoded, sent⟩
  | exchanges posting box ms =>
    have posted := EngineCall.Phase.posted_of_posting task clock posting
    rw [written_step (Or.inr ⟨box, ms, rfl⟩)]
    cases steps with
    | fails _ _ turn failed =>
      rw [tells_call]
      obtain ⟨failure, rfl, unsent⟩ | ⟨-, -, rfl, -⟩ := (turn ▸ posted).ended
      · exact unsent
      · exact absurd rfl failed
  | awaits encoded waiting =>
    cases steps with
    | @receives _ receipt after polled =>
      have found : ∃ finding, c.tells request (.receipt receipt) = .found finding := by
        rcases c.tells_receipt request receipt with ⟨-, tells⟩ | tells <;> exact ⟨_, tells⟩
      obtain ⟨finding, tells⟩ := found
      rw [tells]
      simp only [EngineTask.step, polled, List.drop_length, List.append_nil]
      exact ⟨_, encoded, rfl⟩

end Client

/-! ## In the course of a session -/

/-- Nobody changes the codec of an engine. -/
theorem Engine.codec_applyAll {w : Site M} {deeds : List (Deed M)} (numbered : w.Numbered)
    (obeys : w.Obeys machine Lawful deeds) :
    (w.applyAll machine deeds).state.codec = w.state.codec := by
  refine World.keeps_run rfl ?_ obeys
  intro before deed _ lawful same
  rw [World.applyAll_snoc]
  have kept := (Engine.effect (Engine.numbered_applyAll numbered before) lawful).base
  exact (congrArg Prod.fst kept).trans same

namespace Session

variable {c : Client} {s : Session M} {deed : Deed M} {request : ClientRequest M} {task : TaskId}
  {found : EngineTask M} {codec : RequestCodec M} {message : M}

/-- What the client's calls write: each call so far, and the one under way. -/
structure Posts (c : Client) (codec : RequestCodec M) (s : Session M) : Prop where
  encodes : s.site.state.codec = codec
  under : ∀ request task message, s.call? = some (request, task) →
    c.message? codec request = some message →
    ∃ found, s.site.phase? task = some found ∧ c.Course codec message found s.wrote
  told : ∀ told ∈ s.told, ∀ message, c.message? codec told.request = some message →
    told.Posts codec message

theorem encodes_move {next : Move M} (posts : Posts c codec s) (sound : Sound c s)
    (allowed : s.Allowed c next) : (s.move c next).site.state.codec = codec := by
  obtain ⟨deeds, lawful, run⟩ := site_move allowed
  rw [run, Engine.codec_applyAll sound.numbered lawful, posts.encodes]

/-- What a call under way has written when it has taken a step. -/
theorem wrote_after_step (under : s.call? = some (request, task))
    (at_work : s.site.phase? task = some found)
    (ready : machine.ready task s.site.clock found s.site.state = true) :
    (s.after (.run task)).wrote = s.wrote ++
      (EngineTask.step task s.site.clock found s.site.state).state.link.written.drop
        s.site.state.link.written.length := by
  rw [wrote_after_run under, World.state_run at_work ready]
  rfl

/-- A call that is over has been told. -/
theorem told_of_close {told : Told M} (posts : Posts c codec s)
    (ended : ∀ message, c.message? codec told.request = some message → told.Posts codec message) :
    ∀ entry ∈ s.told ++ [told], ∀ message, c.message? codec entry.request = some message →
      entry.Posts codec message := by
  intro entry among
  rcases List.mem_append.mp among with before | now
  · exact posts.told entry before
  · rw [List.mem_singleton.mp now]
    exact ended

theorem posts_of_ask (posts : Posts c codec s) (sound : Sound c s) (idle : s.call? = none)
    (encodes : (s.ask c request).site.state.codec = codec) : Posts c codec (s.ask c request) := by
  obtain rfl := posts.encodes
  refine ⟨encodes, ?_, ?_⟩
  all_goals
    unfold ask
    split
  next found meets =>
    intro other task message under sends
    cases under
    cases (Client.task?_of_message sends s.site.clock).symm.trans meets
    refine ⟨_, ?_, c.course_of_requestTask _ message⟩
    show (s.site.start _).phase? s.site.next = _
    rw [World.phase?_start sound.numbered, Work.set_self]
  next =>
    intro other task message under
    cases idle.symm.trans under
  next => exact posts.told
  next prompt =>
    refine told_of_close posts fun message sends => ?_
    cases (Client.task?_of_message sends s.site.clock).symm.trans prompt

theorem posts_of_deed {later : Session M} (posts : Posts c codec s)
    (encodes : later.site.state.codec = codec) (met : Met c s deed later) :
    Posts c codec later := by
  obtain rfl := posts.encodes
  cases met with
  | stays unhanded still =>
    refine ⟨encodes, fun request task message under sends => ?_, posts.told⟩
    obtain ⟨found, at_work, course⟩ := posts.under request task message under sends
    obtain ⟨there, wrote⟩ := still request task under
    exact ⟨found, there.trans at_work, wrote ▸ course⟩
  | @goesOn request task found later under at_work ready onward there unhanded =>
    refine ⟨encodes, fun other caller message also sends => ?_, posts.told⟩
    cases under.symm.trans also
    obtain ⟨before, same, course⟩ := posts.under request task message under sends
    cases at_work.symm.trans same
    rw [wrote_after_step under at_work ready]
    exact ⟨later, there, Client.course_of_step course onward⟩
  | @returns request task found answer under at_work ready finished =>
    refine ⟨encodes, (fun _ _ _ same => nomatch same),
      told_of_close (s := s) posts fun message sends => ?_⟩
    obtain ⟨before, same, course⟩ := posts.under request task message under sends
    cases at_work.symm.trans same
    rw [wrote_after_step under at_work ready]
    exact Client.posts_of_step course finished
  | @givenUp request task under =>
    refine ⟨encodes, (fun _ _ _ same => nomatch same),
      told_of_close (s := s) posts fun message sends => ?_⟩
    obtain ⟨found, -, course⟩ := posts.under request task message under sends
    -- A call can be given up before its frame has got out, or while it waits for an event.
    have other : Action.abandon task ≠ (.run task : Deed M) := fun same => nomatch same
    rw [wrote_after_of_other under other]
    generalize s.wrote = wrote at course
    cases course with
    | calls | exchanges => exact Or.inl rfl
    | awaits encoded waiting => exact Or.inr ⟨_, encoded, rfl⟩

theorem posts_move {next : Move M} (posts : Posts c codec s) (sound : Sound c s)
    (allowed : s.Allowed c next) : Posts c codec (s.move c next) := by
  cases next with
  | ask request => exact posts_of_ask posts sound allowed (encodes_move posts sound allowed)
  | deed deed => exact posts_of_deed posts (encodes_move posts sound allowed) (met sound allowed.2)

/-- What has been written in the course of a session. -/
theorem posts_run {moves : List (Move M)} (posts : Posts c codec s) (sound : Sound c s)
    (obeys : s.Obeys c moves) : Posts c codec (s.run c moves) := by
  induction moves generalizing s with
  | nil => exact posts
  | cons next rest ih =>
    exact ih (posts_move posts sound obeys.1) (sound_move sound obeys.1) obeys.2

/-- The client has written the frame before waiting, and writes no other one. -/
theorem wrote_of_waiting {waiting : Receiving} (posts : Posts c codec s)
    (under : s.call? = some (request, task)) (sends : c.message? codec request = some message)
    (at_work : s.site.phase? task = some (.receive waiting)) :
    ∃ frame, codec.encode message = .ok frame ∧ s.wrote = [frame] := by
  obtain ⟨found, there, course⟩ := posts.under request task message under sends
  cases at_work.symm.trans there
  generalize s.wrote = wrote at course
  cases course with
  | awaits encoded _ => exact ⟨_, encoded, rfl⟩

/-- In an engine that is not connected the call is over with its first step, and leaves the engine
as it was. -/
theorem told_of_unconnected (posts : Posts c codec s) (sound : Sound c s)
    (under : s.call? = some (request, task)) (sends : c.message? codec request = some message)
    (at_work : s.site.phase? task = some (c.requestTask (.send message)))
    (unconnected : s.site.state.state ≠ .connected) :
    (s.move c (.deed (.run task))).told = s.told ++ [⟨request, .done (.error .notConnected), []⟩] ∧
      (s.move c (.deed (.run task))).site.state = s.site.state := by
  obtain ⟨found, there, course⟩ := posts.under request task message under sends
  cases at_work.symm.trans there
  have unwritten := c.wrote_of_requestTask course
  have ready := c.ready_requestTask task s.site.clock (.send message) s.site.state
  have step := c.step_of_unconnected unconnected message task s.site.clock
  have turn : EngineTask.step task s.site.clock (c.requestTask (.send message)) s.site.state = _ :=
    step
  rw [move_of_finished sound under at_work ready (congrArg Turn.next step),
    wrote_after_step under at_work ready, turn, List.drop_length, List.append_nil, unwritten,
    Client.tells_call]
  refine ⟨rfl, ?_⟩
  show (s.site.run machine task).state = _
  rw [World.state_run at_work ready, step]

end Session

end HardwareSigner
