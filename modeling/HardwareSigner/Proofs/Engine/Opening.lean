import HardwareSigner.Codec.Raw
import HardwareSigner.Proofs.Engine.Ends

/-!
# The first thing that a listener learns

A listener that was there before the call that opens the connection has missed nothing. As long as
nobody closes the engine, the first thing it learns is that the connection is open, and it has
learnt it when the call returns.

> `Engine.told_in_order`: what any listener is given in any run of an engine.
-/

namespace HardwareSigner

namespace EngineCall.Phase

variable {M : Type}

/-- Whether a call is one that connects. -/
def connects : Phase M → Bool
  | .begin .connect => true
  | .connecting => true
  | .opening _ _ => true
  | .installing => true
  | .retracting => true
  | .announcing _ => true
  | _ => false

theorem eq_connect {call : EngineCall M} (connects : (Phase.begin call).connects = true) :
    call = .connect := by
  cases call with
  | connect => rfl
  | _ => cases connects

variable {phase next : Phase M} {step : Step M} {task : TaskId} {clock : Nat} {e : Engine M}

theorem connects_of_step (steps : phase.Steps task clock e step) (connects : phase.connects = true)
    (goesOn : step.next = .inl next) : next.connects = true := by
  cases steps with
  | tries | plans | opens | installs | withdraws | announces => cases goesOn; rfl
  | answers | fails | retracts | refuses | connects => cases goesOn
  | listens asks =>
    obtain rfl := eq_connect connects
    cases asks
  | sends block other => exact absurd (eq_connect connects) other
  | _ => cases connects

/-- A call that connects succeeds when everybody has been told, and then the reader starts. -/
theorem connects_of_done (steps : phase.Steps task clock e step) (connects : phase.connects = true)
    (finished : step.next = .inr (.done (.ok ()))) :
    ∃ found answer registry, phase = .announcing found ∧
      found.step task e.registry = (.inr answer, registry) ∧
      step.engine.registry.shutdown = false ∧ step.reader?.isSome = true := by
  cases steps with
  | answers call answer unconnected =>
    cases finished
    exact absurd rfl (unconnected (eq_connect connects))
  | connects turn unshut => exact ⟨_, _, _, rfl, turn, unshut, rfl⟩
  | registers | denies | writesOut | closes => cases connects
  | _ => cases finished

/-- A call that is to connect returns at once if this has been tried. -/
theorem returns_of_connect (steps : (Phase.begin .connect).Steps task clock e step)
    (before : e.state ≠ .disconnected) : ∃ answer, step.next = .inr answer := by
  cases steps with
  | answers call answer unconnected => exact ⟨answer, rfl⟩
  | listens asks => cases asks
  | tries disconnected => exact absurd disconnected before
  | sends block other => exact absurd rfl other

end EngineCall.Phase

namespace Engine

open Registry (Served)
open Operation.Phase (Owing)

variable {M : Type}

/-- The answer that a call gives with its last step. -/
def returned (w : Site M) : Deed M → List (TaskId × EngineCall.Answer)
  | .run task =>
    if w.ready machine task then
      match stages w task with
      | some (.inl phase) =>
        match (phase.step task w.clock w.state).next with
        | .inl _ => []
        | .inr answer => [(task, answer)]
      | _ => []
    else []
  | _ => []

theorem run_of_returned {w : Site M} {deed : Deed M} {task : TaskId} {answer : EngineCall.Answer}
    (returns : (task, answer) ∈ returned w deed) :
    deed = .run task ∧ w.ready machine task = true ∧ ∃ phase, stages w task = some (.inl phase) ∧
      (phase.step task w.clock w.state).next = .inr answer := by
  cases deed with
  | run other =>
    unfold returned at returns
    simp only at returns
    split at returns
    next ready =>
      split at returns
      next phase there =>
        split at returns
        · cases returns
        next found finished =>
          cases List.mem_singleton.mp returns
          exact ⟨rfl, ready, phase, there, finished⟩
      · cases returns
    · cases returns
  | _ => cases returns

/-- Numbers are not given out twice, so nobody comes back who is gone. -/
theorem gone_apply {w : Site M} {deed : Deed M} {task : TaskId} (numbered : w.Numbered)
    (lawful : Lawful w deed) (old : task < w.next) (gone : stages w task = none) :
    stages (w.apply machine deed) task = none := by
  cases there : stages (w.apply machine deed) task with
  | none => rfl
  | some stage =>
    cases (effect numbered lawful).comes there with
    | stays stage before => cases gone.symm.trans before
    | begins call new => exact absurd new (Nat.ne_of_lt old)
    | calls phase next before goesOn => cases gone.symm.trans before
    | reads reading next before unaborted receives goesOn => cases gone.symm.trans before
    | starts caller phase new before => exact absurd new (Nat.ne_of_lt old)

/-- Whoever is gone does not return any more. -/
theorem not_returned_of_gone {w : Site M} {told : List (TaskId × Event M)} {tried : List (Event M)}
    {deeds : List (Deed M)} {task : TaskId} (kept : Kept w told tried) (old : task < w.next)
    (gone : stages w task = none) (obeys : w.Obeys machine Lawful deeds)
    (answer : EngineCall.Answer) :
    (task, answer) ∉ w.history machine returned deeds ∧ task < (w.applyAll machine deeds).next ∧
      stages (w.applyAll machine deeds) task = none := by
  refine World.keeps_run ⟨List.not_mem_nil, old, gone⟩ ?_ obeys
  rintro before deed earlier lawful ⟨unreturned, old, gone⟩
  rw [World.applyAll_snoc, World.history_snoc, List.mem_append]
  refine ⟨?_, Nat.lt_of_lt_of_le old (World.next_le_apply machine _ deed),
    gone_apply (kept_run kept earlier).numbered lawful old gone⟩
  rintro (returns | now)
  · exact unreturned returns
  · obtain ⟨-, -, phase, there, -⟩ := run_of_returned now
    cases gone.symm.trans there

/-- A connection is being opened, and later open, for a listener that was there before. -/
structure Opens (box : MailboxId) (caller : TaskId) (w : Site M) (told : List (TaskId × Event M))
    (tried : List (Event M)) (answers : List (TaskId × EngineCall.Answer)) : Prop where
  kept : Kept w told tried
  known : box < w.state.registry.mailboxes.length
  old : caller < w.next
  calls : ∀ stage, stages w caller = some stage →
    ∃ phase, stage = .inl phase ∧ phase.connects = true
  served : ∃ tail, tail.Sublist tried ∧
    Served box told tail (Going (stages w) w.state) (operations (stages w)) w.state.registry
  opened : (caller, .done (.ok ())) ∈ answers → w.state.registry.live box = true →
    w.state.registry.accepted box ≠ []

section

variable {box : MailboxId} {caller : TaskId} {w : Site M} {told : List (TaskId × Event M)}
  {tried : List (Event M)} {answers : List (TaskId × EngineCall.Answer)} {deed : Deed M}
  {deeds : List (Deed M)}

theorem Opens.calls_apply (opens : Opens box caller w told tried answers) (lawful : Lawful w deed)
    (stage : Stage M) (there : stages (w.apply machine deed) caller = some stage) :
    ∃ phase, stage = .inl phase ∧ phase.connects = true := by
  cases (effect opens.kept.numbered lawful).comes there with
  | stays stage before => exact opens.calls stage before
  | begins call new => exact absurd new (Nat.ne_of_lt opens.old)
  | calls phase next before goesOn =>
    obtain ⟨found, same, connects⟩ := opens.calls _ before
    cases same
    exact ⟨next, rfl, EngineCall.Phase.connects_of_step (phase.steps _ _ _) connects goesOn⟩
  | reads reading next before unaborted receives goesOn =>
    obtain ⟨found, same, -⟩ := opens.calls _ before
    cases same
  | starts caller phase new before => exact absurd new (Nat.ne_of_lt opens.old)

/-- When the call has returned, the listener has been told. -/
theorem Opens.accepted_apply (opens : Opens box caller w told tried answers)
    (lawful : Lawful w deed) (returns : (caller, .done (.ok ())) ∈ returned w deed)
    (live : (w.apply machine deed).state.registry.live box = true) :
    (w.apply machine deed).state.registry.accepted box = [.system .connected] := by
  have kept := opens.kept.apply lawful
  obtain ⟨tail, unasked, served⟩ := opens.served
  obtain ⟨more, offered, served⟩ := opens.kept.served_apply lawful served
  obtain ⟨rfl, ready, phase, there, finished⟩ := run_of_returned returns
  obtain ⟨found, same, connects⟩ := opens.calls _ there
  cases same
  obtain ⟨announced, answer, after, rfl, done, unshut, starts⟩ :=
    EngineCall.Phase.connects_of_done (phase.steps _ _ _) connects finished
  obtain ⟨moved, state⟩ := stages_run_call opens.kept.numbered there ready
  obtain ⟨reading, starts⟩ := Option.isSome_iff_exists.mp starts
  obtain ⟨-, -, rfl⟩ := (EngineCall.Phase.steps _ _ _ _).of_reader starts
  have reads : stages (w.apply machine (.run caller)) w.next =
      some (.inr (.receiving (.ofLimit w.state.settings.maxPayload))) := by
    show stages (w.run machine caller) w.next = _
    rw [moved, starts, Work.set_self]
    rfl
  have going : Going (stages (w.apply machine (.run caller)))
      (w.apply machine (.run caller)).state := by
    refine ⟨?_, Or.inr ⟨w.next, _, reads, rfl⟩⟩
    show (w.run machine caller).state.registry.shutdown = false
    rw [state]
    exact unshut
  -- The reader has the say now, and it has nothing to dispatch yet.
  have nobody : ∀ task event,
      ¬ Owing (operations (stages (w.apply machine (.run caller))) task) box event := by
    rintro task event ⟨phase, at_work, owes⟩
    obtain ⟨stage, found, works⟩ := stage_of_operations at_work
    have drives := kept.roles.drives_of_offers found works (Operation.Phase.offers_of_owes owes)
    obtain rfl := kept.roles.driver task w.next _ _ found reads drives rfl
    cases found.symm.trans reads
    cases works
  have saying : Saying (.system .connected) [] announced (told.map Prod.snd) :=
    opens.kept.roles.fits caller _ there
  obtain ⟨untold, all⟩ := saying.finished done
  have stepping : stepping w (.run caller) = some announced := by
    unfold Engine.stepping
    simp only [ready, if_true, there]
    rfl
  have nothing : takes w (.run caller) = [] := by
    show tookBy caller (Engine.stepping w (.run caller)) = []
    rw [stepping]
    exact List.map_eq_nil_iff.mpr untold
  -- Nothing is owed, so the listener has been given all that has been told since it was there.
  rw [served.settled going live nobody, nothing, List.append_nil, all]
  rfl

theorem Opens.apply (opens : Opens box caller w told tried answers) (lawful : Lawful w deed) :
    Opens box caller (w.apply machine deed) (told ++ takes w deed) (tried ++ tries w deed)
      (answers ++ returned w deed) where
  kept := opens.kept.apply lawful
  known := Nat.lt_of_lt_of_le opens.known (opens.kept.moves lawful).length
  old := Nat.lt_of_lt_of_le opens.old (World.next_le_apply machine w deed)
  calls := opens.calls_apply lawful
  served := by
    obtain ⟨tail, unasked, served⟩ := opens.served
    obtain ⟨more, offered, served⟩ := opens.kept.served_apply lawful served
    exact ⟨tail ++ more, unasked.append offered, served⟩
  opened returns live := by
    rcases List.mem_append.mp returns with earlier | now
    · obtain ⟨given, more, -⟩ := (opens.kept.moves lawful).accepted
        (opens.kept.roles.sound opens.kept.bounded) And.left box
      rw [more]
      have lived := (opens.kept.moves lawful).live opens.known live
      exact List.append_ne_nil_of_left_ne_nil (opens.opened earlier lived) given
    · rw [opens.accepted_apply lawful now live]
      exact List.cons_ne_nil _ _

theorem opens_run (opens : Opens box caller w told tried answers)
    (obeys : w.Obeys machine Lawful deeds) :
    Opens box caller (w.applyAll machine deeds) (told ++ w.history machine takes deeds)
      (tried ++ w.history machine tries deeds) (answers ++ w.history machine returned deeds) := by
  refine World.keeps_run ?_ ?_ obeys
  · rw [World.history, World.history, World.history, List.append_nil, List.append_nil,
      List.append_nil]
    exact opens
  · intro before deed _ lawful opens
    rw [World.applyAll_snoc, World.history_snoc, World.history_snoc, World.history_snoc,
      ← List.append_assoc, ← List.append_assoc, ← List.append_assoc]
    exact opens.apply lawful

theorem Spoken.first {told : List (Event M)} (spoken : Spoken told) :
    ∀ first ∈ told.head?, first = .system .connected := by
  rcases spoken with rfl | ⟨body, rfl, -⟩ | ⟨before, ⟨body, rfl, -⟩, rfl⟩
  · exact fun _ there => by cases there
  · rintro first ⟨⟩
    rfl
  · rintro first ⟨⟩
    rfl

/-- Before the engine is closed, the first thing that the listener learns is that the connection is
open. -/
theorem Opens.first (opens : Opens box caller w told tried answers)
    (unclosed : w.state.state ≠ .closed) :
    ∀ first ∈ (w.state.registry.accepted box).head?, first = .system .connected := by
  intro first there
  obtain ⟨tail, unasked, served⟩ := opens.served
  rw [(opens.kept.roles.unclosed unclosed).1] at unasked
  obtain ⟨given, before, all⟩ := served.block
  rw [all, List.sublist_nil.mp unasked, List.append_nil] at there
  refine opens.kept.roles.spoken.first first ?_
  obtain ⟨more, rfl⟩ := before
  cases given with
  | nil => cases there
  | cons head given => exact there

theorem lt_next_of_stage (numbered : w.Numbered) {stage : Stage M}
    (there : stages w caller = some stage) : caller < w.next := by
  unfold stages at there
  obtain ⟨found, at_work, -⟩ := Option.bind_eq_some_iff.mp there
  exact numbered.working caller found at_work

theorem ready_of_begin {call : EngineCall M}
    (there : stages w caller = some (.inl (.begin call))) : w.ready machine caller = true :=
  ready_eq_of_call there

/-- Nothing has been told when a call begins that will open the connection. -/
theorem opens_of_begin (kept : Kept w told tried)
    (known : box < w.state.registry.mailboxes.length)
    (there : stages w caller = some (.inl (.begin .connect)))
    (disconnected : w.state.state = .disconnected) : Opens box caller w told tried [] := by
  have untold : told = [] := List.map_eq_nil_iff.mp (kept.roles.idle disconnected).1
  obtain ⟨earlier, later, tail, all, unasked, served⟩ := kept.served box known
  have none : later = [] := (List.append_eq_nil_iff.mp (all.symm.trans untold)).2
  refine ⟨kept, known, lt_next_of_stage kept.numbered there, fun stage found => ?_,
    ⟨tail, unasked, ?_⟩, fun none => by cases none⟩
  · cases there.symm.trans found
    exact ⟨_, rfl, rfl⟩
  · rw [untold, ← none]
    exact served

/-- A call that is to connect and finds that this has been tried does not succeed. -/
theorem disconnected_of_returned (kept : Kept w told tried)
    (there : stages w caller = some (.inl (.begin .connect)))
    (obeys : w.Obeys machine Lawful (.run caller :: deeds))
    (returns : (caller, .done (.ok ())) ∈ w.history machine returned (.run caller :: deeds)) :
    w.state.state = .disconnected := by
  obtain ⟨lawful, obeys⟩ := obeys
  rw [World.history, List.mem_append] at returns
  rcases returns with now | later
  · obtain ⟨-, -, phase, found, finished⟩ := run_of_returned now
    cases there.symm.trans found
    obtain ⟨announced, answer, after, same, -⟩ :=
      EngineCall.Phase.connects_of_done (EngineCall.Phase.steps _ _ _ _) rfl finished
    cases same
  · -- A later success means that the call has gone on, which it does only if nobody had tried.
    by_cases disconnected : w.state.state = .disconnected
    · exact disconnected
    · obtain ⟨answer, finished⟩ := EngineCall.Phase.returns_of_connect
        (EngineCall.Phase.steps caller w.clock w.state _) disconnected
      have old := lt_next_of_stage kept.numbered there
      have gone : stages (w.apply machine (.run caller)) caller = none := by
        show stages (w.run machine caller) caller = none
        rw [(stages_run_call kept.numbered there (ready_of_begin there)).1, finished,
          Work.set_of_ne _ _ _ (Nat.ne_of_lt old), Work.set_self]
        rfl
      exact absurd later (not_returned_of_gone (kept.apply lawful)
        (Nat.lt_of_lt_of_le old (World.next_le_apply machine w _)) gone obeys _).1

end

/-- What a mailbox is given in a run of an engine. -/
structure ToldInOrder (box : MailboxId) (w : Site M) (deeds : List (Deed M)) : Prop where
  grammar : Event.Grammatical ((w.applyAll machine deeds).state.registry.accepted box)
  /-- One dispatch at most announces the connection. -/
  once : ((w.history machine takes deeds).map Prod.snd).countP (·.isThe .connected) ≤ 1
  /-- The log lists what the mailbox has been given. -/
  logged : (w.history machine (happenings box) deeds).filterMap Happening.event? =
    (w.applyAll machine deeds).state.registry.accepted box
  /-- Between two ends of the stream bytes have come. -/
  apart : ∀ before between after, w.history machine (happenings box) deeds =
      before ++ .accepted (.system .endOfStream) ::
        (between ++ .accepted (.system .endOfStream) :: after) →
    ∃ bytes, .heard (.ok (.data bytes)) ∈ between
  /-- A listener that was there before the call that opens the connection: what it learns first, as
  long as nobody closes the engine, and what it has learnt when the call has returned. -/
  first : ∀ before caller after, deeds = before ++ .run caller :: after →
    ∀ v, v = w.applyAll machine before →
    stages v caller = some (.inl (.begin .connect)) → box < v.state.registry.mailboxes.length →
    (caller, .done (.ok ())) ∈ v.history machine returned (.run caller :: after) →
    ∀ middle rest, .run caller :: after = middle ++ rest →
    ∀ now, now = v.applyAll machine middle → now.state.state ≠ .closed →
      (∀ first ∈ (now.state.registry.accepted box).head?, first = .system .connected) ∧
      ((caller, .done (.ok ())) ∈ v.history machine returned middle →
        now.state.registry.live box = true →
        (now.state.registry.accepted box).head? = some (.system .connected))

/-- What any listener is given in any run of an engine follows the grammar of a connection. -/
theorem told_in_order (codec : RequestCodec M) (settings : EngineSettings) (link : ScriptedLink)
    {deeds : List (Deed M)}
    (obeys : (World.ofState (create codec settings link)).Obeys machine Lawful deeds)
    (box : MailboxId) :
    ToldInOrder box (World.ofState (create codec settings link)) deeds := by
  have kept := kept_run (kept_create codec settings link) obeys
  have logged := logged_run (logged_create codec settings link box)
    (kept_create codec settings link) obeys
  refine ⟨kept.grammatical box, kept.roles.spoken.countP_connected, logged.all, ?_, ?_⟩
  · intro before between after same
    have apart : Happening.Apart (World.history machine (happenings box) _ deeds) := logged.apart
    rw [same] at apart
    exact apart.exists_data
  · rintro before caller after rfl v rfl there known returns middle rest same now rfl unclosed
    obtain ⟨earlier, later⟩ := World.obeys_append.mp obeys
    have begun := kept_run (kept_create codec settings link) earlier
    have disconnected := disconnected_of_returned begun there later returns
    -- The call has succeeded in the end, so nobody had tried before it, and nothing had been told.
    rw [same] at later
    have opens := opens_run (opens_of_begin begun known there disconnected)
      (World.obeys_append.mp later).1
    refine ⟨opens.first unclosed, fun finished live => ?_⟩
    have some := opens.opened finished live
    cases accepted : (World.applyAll machine _ middle).state.registry.accepted box with
    | nil => exact absurd accepted some
    | cons first more =>
      have announces := opens.first unclosed first (by rw [accepted]; rfl)
      rw [announces]
      rfl

/-- A listener is added, the connection is opened, and its stream ends. -/
def opened : List (Deed RawMessage) :=
  [.start (.call (.begin (.addListener ⟨7⟩))), .run 0, .run 0, .run 0,
    .start (.call (.begin .connect)), .run 1, .run 1, .run 1, .run 1, .run 1, .run 1, .run 1,
    .run 1, .outside (.feed [.outcome (.ok .endOfStream)]), .run 2, .run 2, .run 2, .run 2]

theorem told_in_order_to_one_listener :
    (World.ofState (create RawMessage.codec {} {})).Obeys machine Lawful opened ∧
      ToldInOrder 0 (World.ofState (create RawMessage.codec {} {})) opened ∧
      ((World.ofState (create RawMessage.codec {} {})).applyAll machine
        opened).state.registry.accepted 0 = [.system .connected, .system .endOfStream] := by
  have obeys : (World.ofState (create RawMessage.codec {} {})).Obeys machine Lawful opened :=
    ⟨trivial, trivial, trivial, trivial, trivial, trivial, trivial, trivial, trivial, trivial,
      trivial, trivial, trivial, trivial, trivial, trivial, trivial, trivial,
      trivial⟩
  exact ⟨obeys, told_in_order RawMessage.codec {} {} obeys 0, rfl⟩

end Engine

end HardwareSigner
