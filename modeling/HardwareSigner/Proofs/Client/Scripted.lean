import HardwareSigner.Proofs.Client.Session

/-!
# Clients in scripts

A script plays each call of a client in front of the stage until it is over. Meanwhile tasks take
steps and time passes, and nothing else happens. So what a script does for a client is a session,
and what it tells is what the session keeps.

> `Rehearsal.plays_play`: what happens while a task is played.
> `Session.session_of_onClient`: a client's call in a script.
-/

namespace HardwareSigner

/-! ## In front of the stage -/

section

variable {α σ π ρ : Type} {m : Machine α σ π ρ} {task : TaskId} {u v w : World σ π ρ}

/-- What happens while a task is played: it is there, and somebody takes a step or time passes. -/
def World.Onstage (task : TaskId) (w : World σ π ρ) : Action α π → Prop
  | .run _ | .wait _ => (w.phase? task).isSome = true
  | _ => False

/-- From one world to the other while a task is played. -/
def World.Plays (m : Machine α σ π ρ) (task : TaskId) (w v : World σ π ρ) : Prop :=
  ∃ actions, w.Obeys m (Onstage task) actions ∧ v = w.applyAll m actions

theorem World.Plays.refl (w : World σ π ρ) : Plays m task w w := ⟨[], trivial, rfl⟩

theorem World.Plays.trans (first : Plays m task u v) (second : Plays m task v w) :
    Plays m task u w := by
  obtain ⟨before, obeys, rfl⟩ := first
  obtain ⟨after, obeys', rfl⟩ := second
  exact ⟨before ++ after, obeys_append.mpr ⟨obeys, obeys'⟩, (applyAll_append ..).symm⟩

theorem World.Plays.run (there : (w.phase? task).isSome = true) (other : TaskId) :
    Plays m task w (w.apply m (.run other)) :=
  ⟨[.run other], ⟨there, trivial⟩, rfl⟩

theorem World.Plays.wait (there : (w.phase? task).isSome = true) (ms : Nat) :
    Plays m task w (w.apply m (.wait ms)) :=
  ⟨[.wait ms], ⟨there, trivial⟩, rfl⟩

namespace Rehearsal

open World (Plays)

theorem plays_turn (r : Rehearsal σ π ρ) (there : (r.world.phase? task).isSome = true) :
    Plays m task r.world (r.turn m).world := by
  unfold turn
  split
  · exact .refl _
  next other _ _ =>
    split
    · exact .run there other
    · split <;> exact .refl _

theorem plays_playWithin (task : TaskId) (latest n : Nat) (front : Bool) (r : Rehearsal σ π ρ) :
    Plays m task r.world (playWithin m task latest n front r).world := by
  induction n generalizing front r with
  | zero => exact .refl _
  | succ n ih =>
    unfold playWithin
    split
    · exact .refl _
    next there =>
      have there : (r.world.phase? task).isSome = true := by
        rwa [Bool.not_eq_true, Option.isNone_eq_false_iff] at there
      split
      · exact (Plays.run there task).trans (ih true (r.act m task))
      · split
        · exact (plays_turn r there).trans (ih false (r.turn m))
        · split
          · exact ih true r
          · split
            · exact .refl _
            · have waits : Plays m task r.world (r.passUntil m (r.nextTime m latest)).world :=
                .wait there _
              exact waits.trans (ih true _)

/-- A task is played until it has finished or is given up. -/
theorem plays_play (r : Rehearsal σ π ρ) (phase : π) :
    ∃ played, Plays m r.world.next (r.world.apply m (.start phase)) played ∧
      (r.play m phase).1 = played.result? r.world.next ∧
      (r.play m phase).2.world =
        if (played.result? r.world.next).isSome then played
        else played.apply m (.abandon r.world.next) := by
  refine ⟨_, plays_playWithin r.world.next (r.world.clock + limit) patience true
    { r with world := r.world.apply m (.start phase) }, ?_⟩
  simp only [play]
  split
  next result finished => rw [finished]; exact ⟨rfl, rfl⟩
  next unfinished => rw [unfinished]; exact ⟨rfl, rfl⟩

end Rehearsal

end

/-! ## What a script tells -/

namespace Client

variable {M : Type}

theorem tells_of_ne_next (c : Client) {request : ClientRequest M} (other : request ≠ .next)
    (answer : EngineTask.Answer M) :
    c.tells request answer = EngineScript.ofAnswer (some answer) := by
  unfold tells
  split
  next => exact absurd rfl other
  next => rfl

/-- It is what a script tells, if whoever receives is answered with a receipt. -/
theorem onClient_tells {s after : EngineScript M} {c : Client} {request : ClientRequest M}
    {found : EngineTask M} {answer : EngineTask.Answer M}
    (meets : c.task? s.engine.codec s.rehearsal.world.clock request = some found)
    (plays : s.play found = (some answer, after))
    (receives : ∀ waiting, found = .receive waiting → ∃ receipt, answer = .receipt receipt) :
    s.onClient c request = (c.tells request answer, after) := by
  unfold EngineScript.onClient
  rw [meets]
  cases found with
  | receive waiting =>
    obtain ⟨receipt, rfl⟩ := receives waiting rfl
    simp only [EngineScript.await, plays]
    refine congrArg (Prod.mk · after) ?_
    cases request with
    | next =>
      have waits : c.nextTask s.rehearsal.world.clock = .receive waiting := Option.some.inj meets
      unfold nextTask at waits
      unfold tells
      split at waits <;> next kind => cases waits; rw [kind]; rfl
    | poll ms =>
      cases meets
      have other : ClientRequest.poll (M := M) ms ≠ .next := fun same => nomatch same
      rw [c.tells_of_ne_next other]
      rfl
    | take | drain | discard | pending | state | close => cases meets
    | connect | ping | startSession | send =>
      have calls := Option.some.inj meets
      unfold requestTask at calls
      split at calls <;> cases calls
  | _ =>
    have other : request ≠ .next := by
      rintro rfl
      have waits := Option.some.inj meets
      unfold nextTask at waits
      split at waits <;> cases waits
    simp only [plays]
    rw [c.tells_of_ne_next other]

/-- A script tells of no reason if a call has been given up. -/
theorem onClient_blocked {s after : EngineScript M} {c : Client} {request : ClientRequest M}
    {found : EngineTask M}
    (meets : c.task? s.engine.codec s.rehearsal.world.clock request = some found)
    (plays : s.play found = (none, after)) : s.onClient c request = (.blocked, after) := by
  unfold EngineScript.onClient
  rw [meets]
  cases found with
  | receive waiting => simp only [EngineScript.await, plays]
  | _ =>
    simp only [plays]
    rfl

/-- It is what a script tells. -/
theorem onClient_atOnce (s : EngineScript M) (c : Client) {request : ClientRequest M}
    (prompt : c.task? s.engine.codec s.rehearsal.world.clock request = none) :
    s.onClient c request =
      ((c.atOnce request s.engine).1,
        ((c.atOnce request s.engine).2.map fun act => s.outside (.listeners act)).getD s) := by
  cases request with
  | take | drain | discard | pending | state => rfl
  | _ => cases prompt

end Client

/-! ## A client in front -/

open Engine (Site Deed machine)

namespace Session

variable {M : Type} {c : Client} {s : Session M} {request : ClientRequest M} {task : TaskId}

/-- What a call under way has come to when its task has been played. -/
inductive Played (c : Client) (s : Session M) (request : ClientRequest M) (task : TaskId) :
    Session M → Prop
  /-- It is still under way. -/
  | goesOn {later : Session M} (under : later.call? = some (request, task))
      (told : later.told = s.told) : Played c s request task later
  /-- It is over. Whoever has been receiving has a receipt. -/
  | returns {later : Session M} {answer : EngineTask.Answer M} {wrote : List Bytes}
      (finished : later.site.result? task = some answer) (idle : later.call? = none)
      (told : later.told = s.told ++ [⟨request, c.tells request answer, wrote⟩])
      (receives : ∀ waiting, s.site.phase? task = some (.receive waiting) →
        ∃ receipt, answer = .receipt receipt) : Played c s request task later

theorem played_run (sound : Sound c s) (under : s.call? = some (request, task))
    {deeds : List (Deed M)} (onstage : s.site.Obeys machine (World.Onstage task) deeds) :
    s.Obeys c (deeds.map .deed) ∧
      (s.run c (deeds.map .deed)).site = s.site.applyAll machine deeds ∧
      Played c s request task (s.run c (deeds.map .deed)) := by
  induction deeds generalizing s with
  | nil => exact ⟨trivial, rfl, .goesOn under rfl⟩
  | cons deed rest ih =>
    obtain ⟨there, later⟩ := onstage
    have elsewhere : Engine.Elsewhere c.box s.site deed := by
      cases deed with
      | run other => exact ⟨trivial, trivial⟩
      | wait ms => exact ⟨trivial, trivial⟩
      | _ => exact there.elim
    have site : (s.move c (.deed deed)).site = s.site.apply machine deed :=
      site_settle c (s.after deed)
    have allowed : s.Allowed c (.deed deed) := elsewhere
    have sound' := sound_move sound allowed
    have met := met sound elsewhere.2
    show (s.Allowed c (.deed deed) ∧ (s.move c (.deed deed)).Obeys c (rest.map .deed)) ∧
      ((s.move c (.deed deed)).run c (rest.map .deed)).site =
        (s.site.apply machine deed).applyAll machine rest ∧
      Played c s request task ((s.move c (.deed deed)).run c (rest.map .deed))
    generalize s.move c (.deed deed) = next at *
    rw [← site] at later ⊢
    cases met with
    | stays unhanded still =>
      obtain ⟨obeys, run, played⟩ := ih sound' under later
      refine ⟨⟨allowed, obeys⟩, run, ?_⟩
      cases played with
      | goesOn under' told => exact .goesOn under' told
      | returns finished idle told receives =>
        refine .returns finished idle told fun waiting receiving => receives waiting ?_
        exact (still request task under).1.trans receiving
    | @goesOn _ _ found after under' at_work ready onward there' unhanded =>
      cases under.symm.trans under'
      obtain ⟨obeys, run, played⟩ := ih sound' under later
      refine ⟨⟨allowed, obeys⟩, run, ?_⟩
      cases played with
      | goesOn under' told => exact .goesOn under' told
      | returns finished idle told receives =>
        refine .returns finished idle told fun waiting receiving => receives waiting ?_
        cases at_work.symm.trans receiving
        obtain ⟨rfl, -⟩ := EngineTask.of_receive_onward task onward
        exact there'
    | @returns _ _ found answer under' at_work ready finished =>
      cases under.symm.trans under'
      -- With the task gone nothing else has happened in front of the stage.
      have gone : (s.site.run machine task).phase? task = none := by
        rw [World.phase?_run_self sound.numbered at_work ready, finished]
        rfl
      cases rest with
      | cons next rest =>
        have there' : World.Onstage task (s.site.run machine task) next := later.1
        cases next with
        | run other | wait ms =>
          have still : ((s.site.run machine task).phase? task).isSome = true := there'
          rw [gone] at still
          cases still
        | _ => exact there'.elim
      | nil =>
        have result := World.result?_run at_work ready task
        rw [sound.numbered.result?_of_phase at_work, if_pos rfl, Option.none_or, finished] at result
        refine ⟨⟨allowed, trivial⟩, rfl, .returns result rfl rfl fun waiting receiving => ?_⟩
        cases at_work.symm.trans receiving
        exact EngineTask.of_receive_finished task finished
    | givenUp under' => exact there.elim

/-- Some session from `s`, in which one call is made and is over, leads to what a script comes to
with this call, and keeps what the script tells. -/
def Renders (c : Client) (s : Session M) (request : ClientRequest M)
    (outcome : EngineOutcome M × EngineScript M) : Prop :=
  ∃ moves wrote, s.Obeys c moves ∧ (s.run c moves).site = outcome.2.rehearsal.world ∧
    (s.run c moves).call? = none ∧ (s.run c moves).told = s.told ++ [⟨request, outcome.1, wrote⟩]

variable {script : EngineScript M} {found : EngineTask M}

/-- A request that is answered at once. -/
theorem renders_of_prompt (idle : s.call? = none) (same : s.site = script.rehearsal.world)
    (prompt : c.task? s.site.state.codec s.site.clock request = none) :
    Renders c s request (script.onClient c request) := by
  have engine : s.site.state = script.engine := congrArg World.state same
  have asked : s.ask c request = { s with
      site := ((c.atOnce request s.site.state).2.map fun act =>
        s.site.apply machine (.outside (.listeners act))).getD s.site
      told := s.told ++ [⟨request, (c.atOnce request s.site.state).1, []⟩] } := by
    unfold ask
    rw [prompt]
  rw [engine, same] at prompt
  rw [Client.onClient_atOnce script c prompt]
  refine ⟨[.ask request], [], ⟨idle, trivial⟩, ?_⟩
  show (s.ask c request).site = _ ∧ (s.ask c request).call? = none ∧ (s.ask c request).told = _
  rw [asked, engine, same]
  refine ⟨?_, idle, rfl⟩
  cases (c.atOnce request script.engine).2 <;> rfl

/-- What asking for something that takes a task comes to. -/
theorem asked_of_task (meets : c.task? s.site.state.codec s.site.clock request = some found) :
    s.move c (.ask request) = { s with
      site := s.site.apply machine (.start found)
      call? := some (request, s.site.next)
      wrote := [] } := by
  show s.ask c request = _
  unfold ask
  rw [meets]

/-- A request that is met by a task. -/
theorem renders_of_task (sound : Sound c s) (idle : s.call? = none)
    (same : s.site = script.rehearsal.world)
    (meets : c.task? s.site.state.codec s.site.clock request = some found) :
    Renders c s request (script.onClient c request) := by
  have allowed : s.Allowed c (.ask request) := idle
  have asked := asked_of_task meets
  have under : (s.move c (.ask request)).call? = some (request, s.site.next) := by rw [asked]
  have begun : (s.move c (.ask request)).site = s.site.apply machine (.start found) := by rw [asked]
  have untold : (s.move c (.ask request)).told = s.told := by rw [asked]
  have numbered := sound.numbered
  have sound := sound_move sound allowed
  obtain ⟨played, ⟨deeds, onstage, rfl⟩, answered, world⟩ :=
    script.rehearsal.plays_play (m := machine) found
  rw [← same, ← begun] at onstage answered world
  obtain ⟨obeys, site, result⟩ := played_run sound under onstage
  have plays : script.play found = ((script.rehearsal.play machine found).1,
      { script with rehearsal := (script.rehearsal.play machine found).2 }) := rfl
  have meets' : c.task? script.engine.codec script.rehearsal.world.clock request = some found := by
    rw [← meets, same]
    rfl
  rw [← site] at answered world
  -- Either the task has a result, and the call is over, or the script gives it up now.
  have sound' := sound_run sound obeys
  have whole : s.Obeys c (.ask request :: deeds.map .deed) := ⟨allowed, obeys⟩
  have reached : s.run c (.ask request :: deeds.map .deed) =
      (s.move c (.ask request)).run c (deeds.map .deed) := rfl
  generalize (s.move c (.ask request)).run c (deeds.map .deed) = later at *
  cases result with
  | goesOn under' told =>
    obtain ⟨found', at_work, -⟩ := sound'.working request s.site.next under'
    rw [sound'.numbered.result?_of_phase at_work] at answered world
    rw [answered] at plays
    rw [Client.onClient_blocked meets' plays]
    have last : later.Obeys c [.deed (.abandon s.site.next)] := ⟨⟨trivial, trivial⟩, trivial⟩
    have run : s.run c (.ask request :: deeds.map .deed ++ [.deed (.abandon s.site.next)]) =
        later.move c (.deed (.abandon s.site.next)) := by
      rw [run_append, reached]
      rfl
    refine ⟨_, (later.after (.abandon s.site.next)).wrote,
      obeys_append.mpr ⟨whole, reached.symm ▸ last⟩, ?_⟩
    rw [run, move_of_abandoned sound' under', ← untold, ← told]
    exact ⟨world.symm, rfl, rfl⟩
  | @returns answer wrote finished idle' told receives =>
    rw [finished] at answered world
    rw [answered] at plays
    have receipt : ∀ waiting, found = .receive waiting → ∃ receipt, answer = .receipt receipt := by
      rintro waiting rfl
      refine receives waiting ?_
      rw [begun]
      show (s.site.start (.receive waiting)).phase? s.site.next = _
      rw [World.phase?_start numbered, Work.set_self]
    rw [Client.onClient_tells meets' plays receipt]
    refine ⟨_, wrote, whole, ?_⟩
    rw [reached, ← untold]
    exact ⟨world.symm, idle', told⟩

/-- What a script does for a client is a session, and what it tells is what the session keeps. -/
theorem session_of_onClient (sound : Sound c s) (idle : s.call? = none)
    (same : s.site = script.rehearsal.world) (request : ClientRequest M) :
    Renders c s request (script.onClient c request) := by
  cases meets : c.task? s.site.state.codec s.site.clock request with
  | none => exact renders_of_prompt idle same meets
  | some found => exact renders_of_task sound idle same meets

end Session

end HardwareSigner
