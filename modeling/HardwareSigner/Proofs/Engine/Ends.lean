import HardwareSigner.Proofs.Engine.Grammar

/-!
# The end of a stream is news once

The log of a mailbox says, in order, what the reader of the connection has received and what the
mailbox has been given. Between two ends of the stream in it there is something that the reader has
received: the stream has to go on before it can end again.

> `Engine.Logged.apply`: the reader dispatches the end of the stream only if the mailbox has been
> given nothing of the sort since the last bytes.
> `Happening.Apart.exists_data`: so there are bytes between two ends.
-/

namespace HardwareSigner

/-- What happens between a connection and a mailbox. -/
inductive Happening (M : Type)
  /-- The reader has received something. -/
  | heard (outcome : Except Failure Received)
  /-- The mailbox has been given an event. -/
  | accepted (event : Event M)

namespace Happening

variable {M : Type}

def event? : Happening M → Option (Event M)
  | .heard _ => none
  | .accepted event => some event

/-- Whether the mailbox has been told that the stream has ended and nothing has come since. -/
def ends (ended : Bool) : Happening M → Bool
  | .heard (.ok (.data _)) => false
  | .accepted (.system .endOfStream) => true
  | _ => ended

def ended (log : List (Happening M)) : Bool := log.foldl ends false

theorem ends_mono (happening : Happening M) (other : happening ≠ .accepted (.system .endOfStream))
    {ended : Bool} (now : happening.ends ended = true) : ended = true := by
  unfold ends at now
  split at now
  · cases now
  · exact absurd rfl other
  · exact now

theorem foldl_ends_mono {log : List (Happening M)}
    (none : .accepted (.system .endOfStream) ∉ log) {ended : Bool}
    (now : log.foldl ends ended = true) : ended = true := by
  induction log generalizing ended with
  | nil => exact now
  | cons happening rest ih =>
    have earlier := ih (fun there => none (List.mem_cons_of_mem _ there)) now
    exact ends_mono happening (fun same => none (same ▸ List.mem_cons_self)) earlier

theorem foldl_ends_of_data {log : List (Happening M)}
    (none : .accepted (.system .endOfStream) ∉ log) {bytes : Bytes}
    (there : .heard (.ok (.data bytes)) ∈ log) (ended : Bool) : log.foldl ends ended = false := by
  obtain ⟨before, after, rfl⟩ := List.append_of_mem there
  rw [List.foldl_append, List.foldl_cons, Bool.eq_false_iff]
  have none : .accepted (.system .endOfStream) ∉ after :=
    fun later => none (List.mem_append_right _ (List.mem_cons_of_mem _ later))
  exact fun now => Bool.false_ne_true (foldl_ends_mono none now)

/-- Something must have come. -/
theorem exists_data_of_foldl {log : List (Happening M)} (now : log.foldl ends true = false) :
    ∃ bytes, .heard (.ok (.data bytes)) ∈ log := by
  induction log with
  | nil => cases now
  | cons happening rest ih =>
    rw [List.foldl_cons] at now
    cases still : happening.ends true with
    | true =>
      rw [still] at now
      obtain ⟨bytes, there⟩ := ih now
      exact ⟨bytes, List.mem_cons_of_mem _ there⟩
    | false =>
      unfold ends at still
      split at still
      next bytes => exact ⟨bytes, List.mem_cons_self⟩
      · cases still
      · cases still

/-- The mailbox is told that the stream has ended only if this is news. -/
def Apart (log : List (Happening M)) : Prop :=
  ∀ before after, log = before ++ .accepted (.system .endOfStream) :: after → ended before = false

theorem Apart.snoc {log : List (Happening M)} (apart : Apart log) {happening : Happening M}
    (news : happening = .accepted (.system .endOfStream) → ended log = false) :
    Apart (log ++ [happening]) := by
  intro before after same
  rcases List.append_eq_append_iff.mp same with ⟨middle, rfl, last⟩ | ⟨middle, rfl, rest⟩
  · cases middle with
    | nil =>
      rw [List.append_nil]
      exact news (List.cons.inj last).1
    | cons first more =>
      have nothing := (List.cons.inj last).2
      exact absurd nothing.symm (List.append_ne_nil_of_right_ne_nil _ (List.cons_ne_nil _ _))
  · cases middle with
    | nil =>
      rw [List.append_nil] at *
      exact news (List.cons.inj rest).1.symm
    | cons first more =>
      obtain ⟨rfl, -⟩ := List.cons.inj rest
      exact apart before more rfl

theorem Apart.append {log more : List (Happening M)} (apart : Apart log)
    (none : .accepted (.system .endOfStream) ∉ more) : Apart (log ++ more) := by
  induction more generalizing log with
  | nil =>
    rw [List.append_nil]
    exact apart
  | cons happening rest ih =>
    have first : Apart (log ++ [happening]) :=
      apart.snoc fun same => absurd (same ▸ List.mem_cons_self) none
    rw [List.append_cons]
    exact ih first fun there => none (List.mem_cons_of_mem _ there)

theorem ended_append (log more : List (Happening M)) :
    ended (log ++ more) = more.foldl ends (ended log) := List.foldl_append

/-- Between two ends of the stream bytes have come. -/
theorem Apart.exists_data {before between after : List (Happening M)}
    (apart : Apart (before ++ .accepted (.system .endOfStream) ::
      (between ++ .accepted (.system .endOfStream) :: after))) :
    ∃ bytes, .heard (.ok (.data bytes)) ∈ between := by
  have now := apart (before ++ .accepted (.system .endOfStream) :: between) after
    (by rw [List.append_assoc, List.cons_append])
  rw [ended_append, List.foldl_cons] at now
  exact exists_data_of_foldl now

end Happening

/-- The reader does not dispatch the end of the stream to a mailbox that knows of it. -/
def Reading.Quiet {M : Type} (box : MailboxId) (ended : Bool) : Reading M → Prop
  | .receiving intake => intake.atEnd = false → ended = false
  | .pausing _ intake => intake.atEnd = false → ended = false
  | .dispatching phase _ _ intake => (intake.atEnd = false → ended = false) ∧
      (.system .endOfStream ∈ phase.awaits ∨ phase.Owes box (.system .endOfStream) →
        ended = false ∧ intake.atEnd = true)
  | .failing _ => True

theorem Reading.Quiet.mono {M : Type} {box : MailboxId} {reading : Reading M} {before now : Bool}
    (quiet : reading.Quiet box before) (mono : now = true → before = true) :
    reading.Quiet box now := by
  have off : before = false → now = false := by
    intro off
    rw [Bool.eq_false_iff]
    intro still
    rw [mono still] at off
    cases off
  cases reading with
  | receiving intake => exact fun going => off (quiet going)
  | pausing latest intake => exact fun going => off (quiet going)
  | dispatching phase rest course intake =>
    exact ⟨fun going => off (quiet.1 going),
      fun tells => ⟨off (quiet.2 tells).1, (quiet.2 tells).2⟩⟩
  | failing phase => trivial

namespace Engine

open Operation.Phase (Owing)

variable {M : Type}

/-- The events that a mailbox is given by an action. -/
def gains (box : MailboxId) (w : Site M) (deed : Deed M) : List (Event M) :=
  ((w.apply machine deed).state.registry.accepted box).drop
    (w.state.registry.accepted box).length

def happenings (box : MailboxId) (w : Site M) (deed : Deed M) : List (Happening M) :=
  (hears w deed).map .heard ++ (gains box w deed).map .accepted

/-- The reader dispatches what it has read. -/
theorem quiet_onward {box : MailboxId} {ended : Bool} {events : List (Event M)} {course : Course}
    {intake : Intake} {e e' : Engine M} {next : Reading M}
    (on : intake.atEnd = false → ended = false)
    (news : ∀ rest, events = .system .endOfStream :: rest → ended = false ∧ intake.atEnd = true)
    (onward : Reading.Onward intake e events course (some next) e') : next.Quiet box ended := by
  cases onward with
  | dispatches event rest course =>
    refine ⟨on, ?_⟩
    rintro (waits | owes)
    · rw [← List.mem_singleton.mp waits] at news
      exact news rest rfl
    · exact owes.elim
  | receives => exact on
  | pauses latest => exact on
  | fails => trivial

/-- A step of the reader, after which the mailbox knows of an end only if it knew before. -/
theorem quiet_step {box : MailboxId} {reading next : Reading M} {task : TaskId} {e e' : Engine M}
    {ended : Bool} (quiet : reading.Quiet box ended) (unaborted : e.aborted = false)
    (comes : ∀ bytes, .ok (.data bytes) ∈ heardBy e (.inr reading) → ended = false)
    (messages : ∀ phase rest course intake, reading = .dispatching phase rest course intake →
      ∀ event ∈ rest, Intake.IsMessage event)
    (ordered : e.registry.Ordered)
    (owed : ∀ phase ∈ (Stage.operation? (.inr reading) : Option (Operation.Phase M)),
      phase.owed.Sublist (List.range e.registry.mailboxes.length))
    (steps : reading.Steps task e (some next) e') : next.Quiet box ended := by
  cases steps with
  | waits intake unshut nothing => exact quiet
  | resumes latest intake => exact quiet
  | @hears intake outcome link next? e' unshut receives onward =>
    rw [heardBy_of_receives unaborted unshut, receives] at comes
    have takes := Intake.takes_take e.codec.toCodec intake outcome
    refine quiet_onward (fun going => ?_) (fun rest found => ?_) onward
    · rcases takes.goesOn going with earlier | ⟨bytes, rfl⟩
      · exact quiet earlier
      · exact comes bytes List.mem_cons_self
    · obtain ⟨earlier, atEnd⟩ := takes.news found
      exact ⟨quiet earlier, atEnd⟩
  | @dispatches phase later registry rest course intake turn =>
    obtain ⟨on, news⟩ := quiet
    have follows := Operation.Phase.follows_turn ordered (owed phase rfl) turn
    -- If it is still to be told, it was to be told before.
    refine ⟨on, fun tells => news ?_⟩
    rcases tells with waits | owes
    · rw [follows.awaits _ waits]
      exact Or.inl List.mem_cons_self
    · rcases follows.owes _ _ owes with before | begins
      · exact Or.inr before
      · rw [begins]
        exact Or.inl List.mem_cons_self
  | @proceeds phase answer registry rest course intake next? e' turn onward =>
    -- The next event is a message, since the end of the stream comes alone.
    refine quiet_onward quiet.1 (fun others found => ?_) onward
    obtain ⟨type, body, same⟩ :=
      messages phase rest course intake rfl _ (found ▸ List.mem_cons_self)
    cases same
  | fails turn => trivial

/-- The step with which the reader gives the mailbox the end of the stream. -/
theorem quiet_told {box : MailboxId} {phase : Operation.Phase M} {rest : List (Event M)}
    {course : Course} {intake : Intake} {next : Reading M} {task : TaskId} {e e' : Engine M}
    (owes : phase.Owes box (.system .endOfStream)) (atEnd : intake.atEnd = true)
    (messages : ∀ event ∈ rest, Intake.IsMessage event) (ordered : e.registry.Ordered)
    (owed : phase.owed.Sublist (List.range e.registry.mailboxes.length))
    (settled : ∀ found, Stage.operation? (.inr next) = some found →
      ¬ found.Owes box (.system .endOfStream))
    (steps : (Reading.dispatching phase rest course intake).Steps task e (some next) e') :
    next.Quiet box true := by
  have still : intake.atEnd = false → true = false := by
    intro going
    rw [atEnd] at going
    cases going
  cases steps with
  | @dispatches phase later registry rest course intake turn =>
    have follows := Operation.Phase.follows_turn ordered owed turn
    refine ⟨still, ?_⟩
    rintro (waits | owing)
    · rw [follows.awaits _ waits] at owes
      exact owes.elim
    · exact absurd owing (settled later rfl)
  | proceeds turn onward =>
    refine quiet_onward still (fun others found => ?_) onward
    obtain ⟨type, body, same⟩ := messages _ (found ▸ List.mem_cons_self)
    cases same

/-- Only the reader gives anybody the end of the stream. -/
theorem Roles.dispatching_of_owes {stages : Work (Stage M)} {e : Engine M}
    {told tried : List (Event M)} (roles : Roles stages e told tried) {task : TaskId}
    {stage : Stage M} (there : stages task = some stage) {phase : Operation.Phase M}
    (works : stage.operation? = some phase) {box : MailboxId}
    (owes : phase.Owes box (.system .endOfStream)) :
    ∃ rest course intake, stage = .inr (.dispatching phase rest course intake) := by
  have fits := roles.fits task stage there
  have drives := roles.drives_of_offers there works (Operation.Phase.offers_of_owes owes)
  rcases stage with call | reading
  · cases call with
    | announcing found =>
      cases works
      cases fits.owes box _ owes
    | listeners found => cases drives
    | parting found outcome => cases drives
    | clearing found outcome => cases drives
    | _ => cases works
  · cases reading with
    | dispatching found rest course intake =>
      cases works
      exact ⟨rest, course, intake, rfl⟩
    | failing found =>
      cases works
      obtain ⟨before, -, saying⟩ := fits
      cases saying.owes box _ owes
    | _ => cases works

/-- The log of a mailbox is about what it has been given. The end of the stream is news to it
whenever it is told, and the reader will not tell it otherwise. -/
structure Logged (box : MailboxId) (w : Site M) (log : List (Happening M)) : Prop where
  all : log.filterMap Happening.event? = w.state.registry.accepted box
  apart : Happening.Apart log
  quiet : ∀ task reading, stages w task = some (.inr reading) →
    reading.Quiet box (Happening.ended log)

section

variable {w : Site M} {told : List (TaskId × Event M)} {tried : List (Event M)} {deed : Deed M}
  {deeds : List (Deed M)} {box : MailboxId} {log : List (Happening M)}

/-- A mailbox that knows that the stream has ended has been told. -/
theorem Logged.mem_of_ended (logged : Logged box w log) (now : Happening.ended log = true) :
    .system .endOfStream ∈ w.state.registry.accepted box := by
  rw [← logged.all]
  by_cases there : .accepted (.system .endOfStream) ∈ log
  · exact List.mem_filterMap.mpr ⟨_, there, rfl⟩
  · cases Happening.foldl_ends_mono there now

/-- While the connection is announced nobody knows that the stream has ended. -/
theorem Logged.not_ended_of_announcing (logged : Logged box w log) (kept : Kept w told tried)
    {task : TaskId} {phase : Operation.Phase M}
    (there : stages w task = some (.inl (.announcing phase))) : Happening.ended log = false := by
  rw [Bool.eq_false_iff]
  intro now
  have saying : Saying (.system .connected) [] phase (told.map Prod.snd) :=
    kept.roles.fits task _ there
  have given := (kept.accepted box).subset (logged.mem_of_ended now)
  rcases List.mem_append.mp given with dispatched | offered
  · rcases saying.said with ⟨-, same⟩ | ⟨-, same⟩
    · rw [same] at dispatched
      cases dispatched
    · rw [same] at dispatched
      cases List.mem_singleton.mp dispatched
  · rcases kept.roles.parted with none | one
    · rw [none] at offered
      cases offered
    · rw [one] at offered
      cases List.mem_singleton.mp offered

theorem gains_eq {given : List (Event M)}
    (more : (w.apply machine deed).state.registry.accepted box =
    w.state.registry.accepted box ++ given) : gains box w deed = given := by
  unfold gains
  rw [more, List.drop_left]

theorem filterMap_happenings (heard : List (Except Failure Received)) (given : List (Event M)) :
    (heard.map .heard ++ given.map .accepted : List (Happening M)).filterMap Happening.event? =
      given := by
  have deaf : (heard.map .heard : List (Happening M)).filterMap Happening.event? = [] := by
    rw [List.filterMap_map]
    exact List.filterMap_eq_nil_iff.mpr fun _ _ => rfl
  rw [List.filterMap_append, deaf, List.filterMap_map]
  exact List.filterMap_some

theorem not_mem_heard (heard : List (Except Failure Received)) (event : Event M) :
    .accepted event ∉ heard.map Happening.heard := by
  intro there
  obtain ⟨outcome, -, same⟩ := List.mem_map.mp there
  cases same

theorem Logged.all_apply (logged : Logged box w log) {given : List (Event M)}
    (more : (w.apply machine deed).state.registry.accepted box =
      w.state.registry.accepted box ++ given) :
    (log ++ happenings box w deed).filterMap Happening.event? =
      (w.apply machine deed).state.registry.accepted box := by
  rw [List.filterMap_append, logged.all, happenings, gains_eq more, filterMap_happenings, more]

/-- What remains to be dispatched of something that has been read are messages. -/
theorem Roles.messages {stages : Work (Stage M)} {e : Engine M} {told tried : List (Event M)}
    (roles : Roles stages e told tried) {task : TaskId} {phase : Operation.Phase M}
    {rest : List (Event M)} {course : Course} {intake : Intake}
    (there : stages task = some (.inr (.dispatching phase rest course intake))) :
    ∀ event ∈ rest, Intake.IsMessage event := (roles.fits task _ there).1

/-- After a step that does not give the mailbox the end of the stream. -/
theorem Logged.apply_of_not_mem (logged : Logged box w log) (kept : Kept w told tried)
    (lawful : Lawful w deed) {given : List (Event M)}
    (more : (w.apply machine deed).state.registry.accepted box =
      w.state.registry.accepted box ++ given) (none : .system .endOfStream ∉ given) :
    Logged box (w.apply machine deed) (log ++ happenings box w deed) := by
  have absent : .accepted (.system .endOfStream) ∉ happenings box w deed := by
    unfold happenings
    rw [gains_eq more, List.mem_append]
    rintro (heard | gained)
    · exact not_mem_heard _ _ heard
    · obtain ⟨event, there, same⟩ := List.mem_map.mp gained
      cases same
      exact none there
  have mono : Happening.ended (log ++ happenings box w deed) = true →
      Happening.ended log = true := by
    rw [Happening.ended_append]
    exact Happening.foldl_ends_mono absent
  refine ⟨logged.all_apply more, logged.apart.append absent, fun task reading there => ?_⟩
  cases (effect kept.numbered lawful).comes there with
  | stays stage before => exact (logged.quiet task reading before).mono mono
  | reads reading next before unaborted receives goesOn =>
    refine quiet_step ((logged.quiet task reading before).mono mono) unaborted
      (fun bytes comes => ?_) ?_ kept.bounded.ordered (fun phase works => ?_)
      (goesOn ▸ reading.steps unaborted task w.clock)
    · -- Bytes that are heard in this step end what the mailbox knows of an end.
      have there : .heard (.ok (.data bytes)) ∈ happenings box w deed :=
        List.mem_append_left _ (List.mem_map_of_mem (receives ▸ comes))
      rw [Happening.ended_append]
      exact Happening.foldl_ends_of_data absent there _
    · rintro phase rest course intake rfl
      exact kept.roles.messages before
    · exact kept.bounded.owed task phase ((operations_of_some before).trans works)
  | starts caller phase new before =>
    intro _
    rw [Bool.eq_false_iff]
    intro now
    have unended := logged.not_ended_of_announcing kept before
    rw [mono now] at unended
    cases unended

/-- After a step that gives the mailbox the end of the stream, which was news to it. -/
theorem Logged.apply_of_owed (logged : Logged box w log) (kept : Kept w told tried)
    (lawful : Lawful w deed)
    (more : (w.apply machine deed).state.registry.accepted box =
      w.state.registry.accepted box ++ [.system .endOfStream]) {task : TaskId}
    (before : Owing (operations (stages w) task) box (.system .endOfStream))
    (after : ∀ event, ¬ Owing (operations (stages (w.apply machine deed)) task) box event) :
    Logged box (w.apply machine deed) (log ++ happenings box w deed) := by
  obtain ⟨phase, at_work, owes⟩ := before
  obtain ⟨stage, there, works⟩ := stage_of_operations at_work
  obtain ⟨rest, course, intake, rfl⟩ := kept.roles.dispatching_of_owes there works owes
  obtain ⟨news, atEnd⟩ := (logged.quiet task _ there).2 (Or.inr owes)
  refine ⟨logged.all_apply more, ?_, fun other reading there' => ?_⟩
  · unfold happenings
    rw [gains_eq more, ← List.append_assoc]
    -- Had the mailbox known of the end, the reader would not have told it.
    refine (logged.apart.append (not_mem_heard _ _)).snoc fun _ => ?_
    rw [Happening.ended_append, Bool.eq_false_iff]
    intro now
    rw [Happening.foldl_ends_mono (not_mem_heard _ _) now] at news
    cases news
  · have alone : ∀ {stage}, stages w other = some stage → stage.drives = true → other = task :=
      fun found drives => kept.roles.driver other task _ _ found there drives rfl
    have settled : ∀ found, Stage.operation? (.inr reading) = some found → other = task →
        ¬ found.Owes box (.system .endOfStream) := by
      rintro found operation rfl owing
      exact after _ ⟨found, (operations_of_some there').trans operation, owing⟩
    cases (effect kept.numbered lawful).comes there' with
    | stays stage before =>
      obtain rfl := alone before rfl
      cases there.symm.trans before
      exact absurd owes (settled phase rfl rfl)
    | reads reading next before unaborted receives goesOn =>
      obtain rfl := alone before rfl
      cases there.symm.trans before
      have told := quiet_told owes atEnd (kept.roles.messages there) kept.bounded.ordered
        (kept.bounded.owed other phase at_work) (fun found operation => settled found operation rfl)
        (goesOn ▸ Reading.steps unaborted other w.clock _)
      exact told.mono fun _ => rfl
    | starts caller phase new before =>
      -- While there is a reader nobody announces a connection.
      obtain rfl := kept.roles.driver caller task _ _ before there rfl rfl
      cases there.symm.trans before

theorem Logged.apply (logged : Logged box w log) (kept : Kept w told tried)
    (lawful : Lawful w deed) :
    Logged box (w.apply machine deed) (log ++ happenings box w deed) := by
  obtain ⟨given, more, gives⟩ := (kept.moves lawful).accepted (kept.roles.sound kept.bounded)
    And.left box
  by_cases ends : .system .endOfStream ∈ given
  · cases gives with
    | nothing => cases ends
    | owed task event before after =>
      obtain rfl := List.mem_singleton.mp ends
      exact logged.apply_of_owed kept lawful more before after
    | offered given unasked =>
      have offered := List.mem_append_right tried (unasked.subset ends)
      rcases (kept.apply lawful).roles.parted with none | one
      · rw [none] at offered
        cases offered
      · rw [one] at offered
        cases List.mem_singleton.mp offered
  · exact logged.apply_of_not_mem kept lawful more ends

theorem logged_create (codec : RequestCodec M) (settings : EngineSettings) (link : ScriptedLink)
    (box : MailboxId) : Logged box (World.ofState (create codec settings link)) [] where
  all := rfl
  apart before after same := absurd same.symm
    (List.append_ne_nil_of_right_ne_nil before (List.cons_ne_nil _ after))
  quiet _ _ there := by cases there

theorem logged_run (logged : Logged box w log) (kept : Kept w told tried)
    (obeys : w.Obeys machine Lawful deeds) :
    Logged box (w.applyAll machine deeds) (log ++ w.history machine (happenings box) deeds) := by
  refine World.keeps_run ?_ ?_ obeys
  · rw [World.history, List.append_nil]
    exact logged
  · intro before deed earlier lawful logged
    rw [World.applyAll_snoc, World.history_snoc, ← List.append_assoc]
    exact logged.apply (kept_run kept earlier) lawful

end

end Engine

end HardwareSigner
