import HardwareSigner.Proofs.Engine.Adding
import HardwareSigner.Proofs.Engine.Waiting
import HardwareSigner.Script.Engine

/-!
# A client and its calls

A client makes one call after the other. What does not have to wait is answered at once; everything
else is met by a task (`Client.task?`), and the call is under way until the task has finished or is
given up. Meanwhile, and between two calls, anything else may happen: other tasks take steps, other
clients call, the link is fed, the engine is closed. Only the mailbox of the client is left to the
client.

A `Session` is an engine with such a client. Its moves are requests and deeds (`Session.move`), and
it keeps what has come of each request, in the order of the calls.

> `Session.Met`: what becomes of the call under way with a deed.
> `Session.sound_run`: only the call under way waits for events of the mailbox.
-/

namespace HardwareSigner

open Engine (Site Deed machine Lawful hands)

/-- Whether a request is answered at once. -/
def ClientRequest.prompt {M : Type} : ClientRequest M → Bool
  | .take | .drain | .discard | .pending | .state => true
  | _ => false

/-! ## What a client is told -/

namespace Client

variable {M : Type}

theorem prompt_of_task? {c : Client} {codec : RequestCodec M} {clock : Nat}
    {request : ClientRequest M} {found : EngineTask M}
    (meets : c.task? codec clock request = some found) : request.prompt = false := by
  cases request with
  | take | drain | discard | pending | state => cases meets
  | _ => rfl

/-- What comes of a request that needs no waiting, and what it does to the mailbox. -/
def atOnce (c : Client) (request : ClientRequest M) (e : Engine M) :
    EngineOutcome M × Option Registry.Act :=
  match EngineScript.mailboxRequest? request with
  | some request =>
    let (finding, act?) := request.finding ⟨c.id, c.box⟩ e.registry
    (.found finding, act?)
  | none =>
    match request with
    | .discard => (.count (e.registry.pending c.box), some (.drain c.box))
    | .pending => (.count (e.registry.pending c.box), none)
    | _ => (.state e.state (ListenerId.firstAllocated ≤ c.id.value.toNat), none)

/-- What comes of a request that a task has met. Who waits without a limit is told no reason. -/
def tells (c : Client) (request : ClientRequest M) (answer : EngineTask.Answer M) :
    EngineOutcome M :=
  match c.kind, request, answer with
  | .polling, .next, .receipt receipt => .found (MailboxRequest.receive.ofReceipt receipt)
  | _, _, answer => EngineScript.ofAnswer (some answer)

theorem tells_call (c : Client) (request : ClientRequest M) (answer : EngineCall.Answer) :
    c.tells request (.call answer) = EngineScript.ofAnswer (some (.call answer)) := by
  unfold tells
  split
  next same => cases same
  next => rfl

/-- Who waits without a limit is told no reason. -/
theorem tells_receipt (c : Client) (request : ClientRequest M) (receipt : Receipt M) :
    (c.kind = .polling ∧ request = .next) ∧
        c.tells request (.receipt receipt) = .found (.event? receipt.event?) ∨
      c.tells request (.receipt receipt) = .found (.received receipt.outcome) := by
  unfold tells
  split
  next polling same =>
    cases same
    exact Or.inl ⟨⟨polling, rfl⟩, rfl⟩
  next => exact Or.inr rfl

end Client

/-- What has come of a request. -/
structure Told (M : Type) where
  request : ClientRequest M
  outcome : EngineOutcome M
  /-- The blocks that the call has written over the link. -/
  wrote : List Bytes

/-- An engine with a client. -/
structure Session (M : Type) where
  site : Site M
  /-- The call under way, and the task that meets it. -/
  call? : Option (ClientRequest M × TaskId) := none
  /-- The blocks that it has written so far. -/
  wrote : List Bytes := []
  /-- What has come of the client's requests, oldest first. -/
  told : List (Told M) := []

/-- What can happen in a session. -/
inductive Session.Move (M : Type)
  /-- The client makes a call. -/
  | ask (request : ClientRequest M)
  /-- Somebody does something: the call under way, or anybody else. -/
  | deed (deed : Deed M)

namespace Engine

variable {M : Type}

/-- What a task adds to the blocks that have been written, if it is the one to act. -/
def writesBy (task : TaskId) (w : Site M) : Deed M → List Bytes
  | .run other =>
    if other = task then
      (w.run machine other).state.link.written.drop w.state.link.written.length
    else []
  | _ => []

end Engine

namespace Session

variable {M : Type}

/-- The call is over. -/
def close (s : Session M) (told : Told M) : Session M :=
  { s with call? := none, wrote := [], told := s.told ++ [told] }

/-- The call under way is over if its task has finished or is gone. -/
def settle (c : Client) (s : Session M) : Session M :=
  match s.call? with
  | none => s
  | some (request, task) =>
    match s.site.result? task with
    | some answer => s.close ⟨request, c.tells request answer, s.wrote⟩
    | none => if (s.site.phase? task).isSome then s else s.close ⟨request, .blocked, s.wrote⟩

def ask (c : Client) (s : Session M) (request : ClientRequest M) : Session M :=
  match c.task? s.site.state.codec s.site.clock request with
  | some task =>
    { s with
      site := s.site.apply machine (.start task)
      call? := some (request, s.site.next)
      wrote := [] }
  | none =>
    let (outcome, act?) := c.atOnce request s.site.state
    { s with
      site := (act?.map fun act => s.site.apply machine (.outside (.listeners act))).getD s.site
      told := s.told ++ [⟨request, outcome, []⟩] }

/-- A deed, as far as it goes without regard to the call under way. -/
def after (s : Session M) (deed : Deed M) : Session M :=
  { s with
    site := s.site.apply machine deed
    wrote := s.wrote ++ (s.call?.map fun call => Engine.writesBy call.2 s.site deed).getD [] }

def move (c : Client) (s : Session M) : Move M → Session M
  | .ask request => s.ask c request
  | .deed deed => (s.after deed).settle c

def run (c : Client) (s : Session M) (moves : List (Move M)) : Session M := moves.foldl (move c) s

/-- The client makes one call at a time, and its mailbox is left to it. -/
def Allowed (c : Client) (s : Session M) : Move M → Prop
  | .ask _ => s.call? = none
  | .deed deed => Engine.Elsewhere c.box s.site deed

/-- Every move of a run is allowed where it is made. -/
def Obeys (c : Client) : Session M → List (Move M) → Prop
  | _, [] => True
  | s, next :: rest => s.Allowed c next ∧ (s.move c next).Obeys c rest

section

variable {c : Client} {s : Session M} {next : Move M} {moves later : List (Move M)}

theorem run_append : s.run c (moves ++ later) = (s.run c moves).run c later :=
  List.foldl_append

theorem obeys_append :
    s.Obeys c (moves ++ later) ↔ s.Obeys c moves ∧ (s.run c moves).Obeys c later := by
  induction moves generalizing s with
  | nil => exact (true_and _).symm ▸ Iff.rfl
  | cons next rest ih =>
    rw [List.cons_append, Obeys, ih, Obeys, and_assoc]
    rfl

/-- What every move keeps that is allowed, every run keeps. -/
theorem keeps_run {P : Session M → Prop} (start : P s)
    (step : ∀ s next, P s → s.Allowed c next → P (s.move c next)) (obeys : s.Obeys c moves) :
    P (s.run c moves) := by
  induction moves generalizing s with
  | nil => exact start
  | cons next rest ih => exact ih (step s next start obeys.1) obeys.2

end

end Session

/-! ## The call under way -/

/-- What a task that meets a client's request can be doing. A blocking client who is not about to
close the engine will wait for an event when the call is over. Only a polling client that asks for
the next event waits without a limit. -/
inductive EngineTask.Serves {M : Type} (c : Client) (request : ClientRequest M) :
    EngineTask M → Prop
  | call (phase : EngineCall.Phase M) (unwaiting : c.kind = .polling ∨ request = .close) :
      Serves c request (.call phase)
  | exchange (phase : EngineCall.Phase M) {ms : UInt64} (blocking : c.kind = .blocking ms) :
      Serves c request (.exchange phase c.box ms)
  | receive (limit? : Option (Nat × Duration))
      (unlimited : c.kind = .polling → request = .next → limit? = none) :
      Serves c request (.receive ⟨c.box, limit?⟩)

/-- Whoever serves a client goes on serving him. -/
theorem EngineTask.serves_of_step {M : Type} {task : TaskId} {clock : Nat} {e : Engine M}
    {found later : EngineTask M} {c : Client} {request : ClientRequest M}
    (goesOn : (step task clock found e).next = .inl later) (serves : found.Serves c request) :
    later.Serves c request := by
  have steps := steps task clock e found
  rw [goesOn] at steps
  cases steps with
  | callsOn turn =>
    cases serves with
    | call _ unwaiting => exact .call _ unwaiting
  | readsOn reading next => cases serves
  | stays nothing => exact serves
  | exchanges box ms turn =>
    cases serves with
    | exchange _ blocking => exact .exchange _ blocking
  | waits box ms turn =>
    cases serves with
    | exchange _ blocking =>
      exact .receive _ fun polling _ => by cases blocking.symm.trans polling

namespace Session

variable {M : Type}

/-- What holds throughout a session. -/
structure Sound (c : Client) (s : Session M) : Prop where
  kept : ∃ told tried, Engine.Kept s.site told tried
  known : c.box < s.site.state.registry.mailboxes.length
  /-- Nobody else waits for events of the mailbox. -/
  alone : ∀ task found, s.site.phase? task = some found → found.awaits? = some c.box →
    ∃ request, s.call? = some (request, task)
  working : ∀ request task, s.call? = some (request, task) →
    ∃ found, s.site.phase? task = some found ∧ found.Serves c request
  waits : ∀ request task, s.call? = some (request, task) → request.prompt = false

/-- What becomes of the call under way with a deed. -/
inductive Met (c : Client) (s : Session M) : Deed M → Session M → Prop
  /-- Nothing, if there is one. -/
  | stays {deed : Deed M} (unhanded : hands c.box s.site deed = [])
      (still : ∀ request task, s.call? = some (request, task) →
        (s.after deed).site.phase? task = s.site.phase? task ∧ (s.after deed).wrote = s.wrote) :
      Met c s deed (s.after deed)
  | goesOn {request : ClientRequest M} {task : TaskId} {found later : EngineTask M}
      (under : s.call? = some (request, task)) (at_work : s.site.phase? task = some found)
      (ready : machine.ready task s.site.clock found s.site.state = true)
      (onward : (machine.step task s.site.clock found s.site.state).next = .inl later)
      (there : (s.after (.run task)).site.phase? task = some later)
      (unhanded : hands c.box s.site (.run task) = []) : Met c s (.run task) (s.after (.run task))
  | returns {request : ClientRequest M} {task : TaskId} {found : EngineTask M}
      {answer : EngineTask.Answer M} (under : s.call? = some (request, task))
      (at_work : s.site.phase? task = some found)
      (ready : machine.ready task s.site.clock found s.site.state = true)
      (finished : (machine.step task s.site.clock found s.site.state).next = .inr answer) :
      Met c s (.run task)
        ((s.after (.run task)).close
          ⟨request, c.tells request answer, (s.after (.run task)).wrote⟩)
  | givenUp {request : ClientRequest M} {task : TaskId} (under : s.call? = some (request, task)) :
      Met c s (.abandon task)
        ((s.after (.abandon task)).close
          ⟨request, .blocked, (s.after (.abandon task)).wrote⟩)

section

variable {c : Client} {s : Session M} {deed : Deed M} {request : ClientRequest M} {task : TaskId}
  {found : EngineTask M}

theorem settle_of_uncalled (idle : s.call? = none) : s.settle c = s := by
  unfold settle
  rw [idle]

theorem settle_of_result {answer : EngineTask.Answer M} (under : s.call? = some (request, task))
    (finished : s.site.result? task = some answer) :
    s.settle c = s.close ⟨request, c.tells request answer, s.wrote⟩ := by
  unfold settle
  rw [under]
  simp only [finished]

theorem settle_of_phase (under : s.call? = some (request, task))
    (unfinished : s.site.result? task = none) (at_work : s.site.phase? task = some found) :
    s.settle c = s := by
  unfold settle
  rw [under]
  simp only [unfinished, at_work, Option.isSome_some, if_true]

theorem settle_of_gone (under : s.call? = some (request, task))
    (unfinished : s.site.result? task = none) (gone : s.site.phase? task = none) :
    s.settle c = s.close ⟨request, .blocked, s.wrote⟩ := by
  unfold settle
  rw [under]
  simp only [unfinished, gone, Option.isSome_none, Bool.false_eq_true, if_false]

theorem Sound.numbered (sound : Sound c s) : s.site.Numbered :=
  sound.kept.elim fun _ kept => kept.elim fun _ kept => kept.numbered

/-- Whoever else takes a step does not wait for the client's events. -/
theorem Sound.awaits?_ne (sound : Sound c s)
    (other : ∀ request, s.call? ≠ some (request, task))
    (at_work : s.site.phase? task = some found) : found.awaits? ≠ some c.box :=
  fun awaits => (sound.alone task found at_work awaits).elim other

/-- The call under way writes nothing with what is not its own step. -/
theorem wrote_after_of_other (under : s.call? = some (request, task)) (other : deed ≠ .run task) :
    (s.after deed).wrote = s.wrote := by
  show s.wrote ++ (s.call?.map fun call => Engine.writesBy call.2 s.site deed).getD [] = s.wrote
  rw [under]
  refine (congrArg _ ?_).trans (List.append_nil _)
  show Engine.writesBy task s.site deed = []
  cases deed with
  | run running => exact if_neg fun same => other (congrArg Action.run same)
  | _ => rfl

theorem wrote_after_run (under : s.call? = some (request, task)) :
    (s.after (.run task)).wrote =
      s.wrote ++ (s.site.run machine task).state.link.written.drop
        s.site.state.link.written.length := by
  show s.wrote ++ (s.call?.map fun call => Engine.writesBy call.2 s.site (.run task)).getD [] = _
  rw [under]
  exact congrArg _ (if_pos rfl)

/-- The call under way is over with the last step of its task. -/
theorem move_of_finished {answer : EngineTask.Answer M} (sound : Sound c s)
    (under : s.call? = some (request, task)) (at_work : s.site.phase? task = some found)
    (ready : machine.ready task s.site.clock found s.site.state = true)
    (finished : (machine.step task s.site.clock found s.site.state).next = .inr answer) :
    s.move c (.deed (.run task)) =
      (s.after (.run task)).close
        ⟨request, c.tells request answer, (s.after (.run task)).wrote⟩ := by
  have result := World.result?_run at_work ready task
  rw [sound.numbered.result?_of_phase at_work, if_pos rfl, Option.none_or, finished] at result
  exact settle_of_result (s := s.after (.run task)) under result

/-- The call under way is over when its task is given up. -/
theorem move_of_abandoned (sound : Sound c s) (under : s.call? = some (request, task)) :
    s.move c (.deed (.abandon task)) =
      (s.after (.abandon task)).close ⟨request, .blocked, (s.after (.abandon task)).wrote⟩ := by
  obtain ⟨found, at_work, -⟩ := sound.working request task under
  refine settle_of_gone (s := s.after (.abandon task)) under ?_ ?_
  · exact (World.result?_abandon ..).trans (sound.numbered.result?_of_phase at_work)
  · show (s.site.abandon machine task).phase? task = none
    rw [World.phase?_abandon, Work.set_self]

/-- The call under way takes a step. -/
theorem met_run (sound : Sound c s) (under : s.call? = some (request, task)) :
    Met c s (.run task) (s.move c (.deed (.run task))) := by
  obtain ⟨found, at_work, serves⟩ := sound.working request task under
  have numbered := sound.numbered.apply machine (.run task)
  -- Whoever does not receive, or finds nothing, is handed nothing.
  have unhanded : (∀ waiting, found = .receive waiting →
      waiting.poll s.site.clock s.site.state.registry = none) →
      hands c.box s.site (.run task) = [] :=
    fun nothing => Engine.hands_of_unpolled fun waiting same =>
      nothing waiting (Option.some.inj (at_work.symm.trans same))
  cases ready : machine.ready task s.site.clock found s.site.state with
  | false =>
    have same : s.site.run machine task = s.site := World.run_of_unready at_work ready
    have there : (s.after (.run task)).site.phase? task = some found :=
      (congrArg (World.phase? · task) same).trans at_work
    show Met c s (.run task) ((s.after (.run task)).settle c)
    rw [settle_of_phase (s := s.after (.run task)) under (numbered.result?_of_phase there) there]
    refine .stays (unhanded ?_) fun other caller also => ?_
    · rintro waiting rfl
      exact Option.not_isSome_iff_eq_none.mp (Bool.eq_false_iff.mp ready)
    · cases under.symm.trans also
      refine ⟨there.trans at_work.symm, (wrote_after_run under).trans ?_⟩
      rw [same, List.drop_length, List.append_nil]
  | true =>
    cases next : (machine.step task s.site.clock found s.site.state).next with
    | inl later =>
      have there : (s.after (.run task)).site.phase? task = some later := by
        show (s.site.run machine task).phase? task = _
        rw [World.phase?_run_self sound.numbered at_work ready, next]
        rfl
      show Met c s (.run task) ((s.after (.run task)).settle c)
      rw [settle_of_phase (s := s.after (.run task)) under (numbered.result?_of_phase there) there]
      refine .goesOn under at_work ready next there (unhanded ?_)
      rintro waiting rfl
      exact (EngineTask.of_receive_onward task next).2
    | inr answer =>
      rw [move_of_finished sound under at_work ready next]
      exact .returns under at_work ready next

/-- Every deed is met so. -/
theorem met (sound : Sound c s) (leaves : Engine.Leaves c.box deed) :
    Met c s deed (s.move c (.deed deed)) := by
  cases under : s.call? with
  | none =>
    show Met c s deed ((s.after deed).settle c)
    rw [settle_of_uncalled (s := s.after deed) under]
    refine .stays (Engine.hands_of_leaves leaves fun task found _ at_work => ?_) ?_
    · exact sound.awaits?_ne (fun request same => by cases under.symm.trans same) at_work
    · intro request task same
      cases under.symm.trans same
  | some call =>
    obtain ⟨request, task⟩ := call
    obtain ⟨found, at_work, serves⟩ := sound.working request task under
    -- Only a step of its own task or the task's being given up can end the call.
    by_cases runs : deed = .run task
    · subst runs
      exact met_run sound under
    · by_cases abandons : deed = .abandon task
      · subst abandons
        rw [move_of_abandoned sound under]
        exact .givenUp under
      · show Met c s deed ((s.after deed).settle c)
        have there : (s.after deed).site.phase? task = some found :=
          World.phase?_apply_of_other (m := machine) sound.numbered at_work runs abandons
        rw [settle_of_phase (s := s.after deed) under
          ((sound.numbered.apply machine deed).result?_of_phase there) there]
        refine .stays (Engine.hands_of_leaves leaves fun other found same at_work => ?_) ?_
        · refine sound.awaits?_ne (fun request also => ?_) at_work
          cases under.symm.trans also
          exact runs same
        · intro other caller also
          cases under.symm.trans also
          exact ⟨there.trans at_work.symm, wrote_after_of_other under runs⟩

/-! ## Every session -/

theorem lawful_of_task? {codec : RequestCodec M} {clock : Nat} {w : Site M}
    (meets : c.task? codec clock request = some found) :
    Lawful w (.start found) ∧ found.Serves c request := by
  have calls : ∀ call, c.requestTask call = found →
      Lawful w (.start found) ∧ found.Serves c request := by
    rintro call rfl
    unfold Client.requestTask
    split
    next ms blocking => exact ⟨trivial, .exchange _ blocking⟩
    next polling => exact ⟨trivial, .call _ (Or.inl polling)⟩
  cases request with
  | connect | ping text | startSession | send message => exact calls _ (Option.some.inj meets)
  | next =>
    cases meets
    unfold Client.nextTask
    split
    next ms blocking =>
      exact ⟨trivial, .receive _ fun polling => by cases blocking.symm.trans polling⟩
    next => exact ⟨trivial, .receive _ fun _ _ => rfl⟩
  | poll ms =>
    cases meets
    exact ⟨trivial, .receive _ fun _ same => nomatch same⟩
  | close =>
    cases meets
    exact ⟨trivial, .call _ (Or.inr rfl)⟩
  | _ => cases meets

theorem Sound.keeps (sound : Sound c s) (lawful : Lawful s.site deed) :
    (∃ told tried, Engine.Kept (s.site.apply machine deed) told tried) ∧
      c.box < (s.site.apply machine deed).state.registry.mailboxes.length := by
  obtain ⟨told, tried, kept⟩ := sound.kept
  have obeys : s.site.Obeys machine Lawful [deed] := ⟨lawful, trivial⟩
  have known := (Engine.keeps_mailboxes kept obeys c.box).1
  exact ⟨⟨_, _, Engine.kept_run kept obeys⟩, Nat.lt_of_lt_of_le sound.known known⟩

theorem sound_ask (sound : Sound c s) (idle : s.call? = none) : Sound c (s.ask c request) := by
  -- As long as no call is under way nobody at all waits for the client's events.
  have nobody : ∀ task found, s.site.phase? task = some found → found.awaits? ≠ some c.box :=
    fun task found => sound.awaits?_ne fun request same => by cases idle.symm.trans same
  unfold ask
  split
  next found meets =>
    obtain ⟨lawful, serves⟩ := lawful_of_task? (w := s.site) meets
    obtain ⟨kept, known⟩ := sound.keeps lawful
    refine ⟨kept, known, fun task later there awaits => ⟨request, ?_⟩, fun other task under => ?_,
      fun other task under => ?_⟩
    · have there : (s.site.start found).phase? task = some later := there
      rw [World.phase?_start sound.numbered] at there
      rcases Work.set_cases _ _ _ there with ⟨rfl, -⟩ | ⟨-, before⟩
      · rfl
      · exact absurd awaits (nobody task later before)
    · cases under
      refine ⟨found, ?_, serves⟩
      show (s.site.start found).phase? s.site.next = some found
      rw [World.phase?_start sound.numbered, Work.set_self]
    · cases under
      exact Client.prompt_of_task? meets
  next =>
    simp only
    cases acts : (c.atOnce request s.site.state).2 with
    | none => exact ⟨sound.kept, sound.known, sound.alone, sound.working, sound.waits⟩
    | some act =>
      have lawful : Lawful s.site (.outside (.listeners act)) := trivial
      obtain ⟨kept, known⟩ := sound.keeps lawful
      exact ⟨kept, known, sound.alone, sound.working, sound.waits⟩

theorem sound_met {later : Session M} (sound : Sound c s) (lawful : Lawful s.site deed)
    (leaves : Engine.Leaves c.box deed) (met : Met c s deed later) : Sound c later := by
  obtain ⟨kept, known⟩ := sound.keeps lawful
  have alone : ∀ task found, (s.site.apply machine deed).phase? task = some found →
      found.awaits? = some c.box → ∃ request, s.call? = some (request, task) := by
    intro task found there awaits
    obtain ⟨before, at_work, also⟩ := Engine.awaited_apply sound.numbered leaves there awaits
    exact sound.alone task before at_work also
  cases met with
  | stays unhanded still =>
    refine ⟨kept, known, alone, fun request task under => ?_, sound.waits⟩
    obtain ⟨found, at_work, serves⟩ := sound.working request task under
    exact ⟨found, (still request task under).1.trans at_work, serves⟩
  | @goesOn request task found later under at_work ready onward there unhanded =>
    refine ⟨kept, known, alone, fun other caller also => ?_, sound.waits⟩
    cases under.symm.trans also
    obtain ⟨before, same, serves⟩ := sound.working request task under
    cases at_work.symm.trans same
    exact ⟨later, there, EngineTask.serves_of_step onward serves⟩
  | @returns request task found answer under at_work ready finished =>
    refine ⟨kept, known, fun other later there awaits => ?_, (fun _ _ same => nomatch same),
      (fun _ _ same => nomatch same)⟩
    -- The only one who could wait has finished.
    obtain ⟨also, same⟩ := alone other later there awaits
    cases under.symm.trans same
    have there : (s.site.run machine task).phase? task = some later := there
    rw [World.phase?_run_self sound.numbered at_work ready, finished] at there
    cases there
  | @givenUp request task under =>
    refine ⟨kept, known, fun other later there awaits => ?_, (fun _ _ same => nomatch same),
      (fun _ _ same => nomatch same)⟩
    obtain ⟨also, same⟩ := alone other later there awaits
    cases under.symm.trans same
    have there : (s.site.abandon machine task).phase? task = some later := there
    rw [World.phase?_abandon, Work.set_self] at there
    cases there

theorem sound_move {next : Move M} (sound : Sound c s) (allowed : s.Allowed c next) :
    Sound c (s.move c next) := by
  cases next with
  | ask request => exact sound_ask sound allowed
  | deed deed => exact sound_met sound allowed.1 allowed.2 (met sound allowed.2)

/-- A session stays as it should be. -/
theorem sound_run {moves : List (Move M)} (sound : Sound c s) (obeys : s.Obeys c moves) :
    Sound c (s.run c moves) :=
  keeps_run sound (fun _ _ => sound_move) obeys

theorem site_settle (c : Client) (s : Session M) : (s.settle c).site = s.site := by
  unfold settle
  split
  next => rfl
  next =>
    split
    next => rfl
    next => split <;> rfl

/-- A move is at most one deed. -/
theorem site_move {next : Move M} (allowed : s.Allowed c next) :
    ∃ deeds : List (Deed M), s.site.Obeys machine Lawful deeds ∧
      (s.move c next).site = s.site.applyAll machine deeds := by
  cases next with
  | deed deed => exact ⟨[deed], ⟨allowed.1, trivial⟩, site_settle c (s.after deed)⟩
  | ask request =>
    show ∃ deeds, _ ∧ (s.ask c request).site = _
    unfold ask
    split
    next found meets => exact ⟨[.start found], ⟨(lawful_of_task? meets).1, trivial⟩, rfl⟩
    next =>
      cases acts : (c.atOnce request s.site.state).2 with
      | none => exact ⟨[], trivial, by simp only [acts]; rfl⟩
      | some act =>
        exact ⟨[.outside (.listeners act)], ⟨trivial, trivial⟩, by simp only [acts]; rfl⟩

/-- So a session is a run of its engine. -/
theorem site_run {moves : List (Move M)} (obeys : s.Obeys c moves) :
    ∃ deeds : List (Deed M), s.site.Obeys machine Lawful deeds ∧
      (s.run c moves).site = s.site.applyAll machine deeds := by
  induction moves generalizing s with
  | nil => exact ⟨[], trivial, rfl⟩
  | cons next rest ih =>
    obtain ⟨first, lawful, moved⟩ := site_move obeys.1
    obtain ⟨others, lawful', run⟩ := ih obeys.2
    rw [moved] at lawful' run
    refine ⟨first ++ others, World.obeys_append.mpr ⟨lawful, lawful'⟩, ?_⟩
    exact run.trans (World.applyAll_append ..).symm

end

/-! ## How it begins -/

/-- The session of a client whose listener is added with the next step of a call. -/
def attached (w : Site M) (adder : TaskId) : Session M := { site := w.apply machine (.run adder) }

section

variable {c : Client} {w : Site M} {deeds : List (Deed M)} {adder : TaskId}

/-- A session begins with an empty mailbox. -/
theorem sound_attached {told : List (TaskId × Event M)} {tried : List (Event M)}
    (kept : Engine.Kept w told tried)
    (nobody : ∀ task found, w.phase? task = some found → found.awaits? ≠ some c.box)
    (added : (adder, .added (.ok c.box)) ∈ Engine.returned w (.run adder)) :
    Sound c (attached w adder) ∧ (attached w adder).site.state.registry.accepted c.box = [] := by
  have onward : w.Obeys machine Lawful [.run adder] := ⟨trivial, trivial⟩
  have leaves : Engine.Leaves c.box (.run adder : Deed M) := trivial
  obtain ⟨-, -, known, empty⟩ := Engine.added_of_returned added kept.numbered
  refine ⟨⟨⟨_, _, Engine.kept_run kept onward⟩, known, fun task found there awaits => ?_,
    (fun _ _ same => nomatch same), (fun _ _ same => nomatch same)⟩, empty⟩
  obtain ⟨earlier, at_work, also⟩ := Engine.awaited_apply kept.numbered leaves there awaits
  exact absurd also (nobody task earlier at_work)

/-- So does every session with an engine that has been used before. -/
theorem sound_start (codec : RequestCodec M) (settings : EngineSettings) (link : ScriptedLink)
    (fresh : w = (World.ofState (Engine.create codec settings link)).applyAll machine deeds)
    (obeys : (World.ofState (Engine.create codec settings link)).Obeys machine
      (Engine.Elsewhere c.box) deeds)
    (added : (adder, .added (.ok c.box)) ∈ Engine.returned w (.run adder)) :
    Sound c (attached w adder) ∧ (attached w adder).site.state.registry.accepted c.box = [] := by
  subst fresh
  have lawful := obeys.mono fun _ _ elsewhere => elsewhere.1
  exact sound_attached (Engine.kept_run (Engine.kept_create codec settings link) lawful)
    (Engine.unawaited_run (World.numbered_ofState _) (fun _ _ none => nomatch none) obeys) added

end

end Session

end HardwareSigner
