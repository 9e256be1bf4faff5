import HardwareSigner.Proofs.Engine.Links
import HardwareSigner.Proofs.Engine.Opening

/-!
# Calls that have returned

A call returns with its last step, and is at work no more.

> `Engine.gone_of_history`: this is so of every call that has returned in a run.
> `Engine.eq_of_returned`: a call returns at most one answer.
-/

namespace HardwareSigner

namespace Engine

variable {M : Type} {w : Site M} {deed : Deed M} {deeds : List (Deed M)} {task : TaskId}
  {answer : EngineCall.Answer}

theorem returned_of_actor {phase : EngineCall.Phase M}
    (acts : actor w deed = some (task, .inl phase))
    (finished : (phase.step task w.clock w.state).next = .inr answer) :
    returned w deed = [(task, answer)] := by
  obtain ⟨rfl, ready, there⟩ := run_of_actor acts
  unfold returned
  simp only [ready, if_true, there, finished]

/-- The answer of a call, if it gives one with its step. -/
theorem returned_of_call {phase : EngineCall.Phase M}
    (acts : actor w deed = some (task, .inl phase)) :
    returned w deed =
      ((phase.step task w.clock w.state).next.getRight?.map fun answer =>
        (task, answer)).toList := by
  obtain ⟨rfl, ready, there⟩ := run_of_actor acts
  unfold returned
  simp only [ready, if_true, there]
  cases (phase.step task w.clock w.state).next <;> rfl

theorem unmoved_of_unready (unready : w.ready machine task = false) :
    w.apply machine (.run task) = w ∧ returned w (.run task) = [] := by
  refine ⟨World.run_of_not_ready unready, ?_⟩
  unfold returned
  simp only [unready, Bool.false_eq_true, if_false]

theorem actor_of_returned (returns : (task, answer) ∈ returned w deed) :
    ∃ phase, actor w deed = some (task, .inl phase) ∧
      (phase.step task w.clock w.state).next = .inr answer := by
  obtain ⟨rfl, ready, phase, there, finished⟩ := run_of_returned returns
  exact ⟨phase, actor_of_run ready there, finished⟩

/-- Where a call stands after its step. -/
theorem stage_of_call (numbered : w.Numbered) {phase : EngineCall.Phase M}
    (acts : actor w deed = some (task, .inl phase)) :
    stages (w.apply machine deed) task =
      (phase.step task w.clock w.state).next.getLeft?.map .inl := by
  have old := lt_next_of_stage numbered (run_of_actor acts).2.2
  rw [(apply_of_call numbered acts).1, Work.set_of_ne _ _ _ (Nat.ne_of_lt old), Work.set_self]

/-- Nobody has the number that comes next. -/
theorem set_next_none (numbered : w.Numbered) {stage : Stage M} (there : stages w task = some stage)
    (next? : Option (Stage M)) :
    Work.set (Work.set (stages w) task next?) w.next none = Work.set (stages w) task next? := by
  have old := lt_next_of_stage numbered there
  refine Work.set_same ((Work.set_of_ne _ _ _ (Nat.ne_of_gt old)).trans ?_)
  exact stages_of_none numbered.phase?_next

/-- If the step of a call starts no reader, everybody else stays where he is. -/
theorem stages_of_call (numbered : w.Numbered) {phase : EngineCall.Phase M}
    (acts : actor w deed = some (task, .inl phase))
    (nobody : (phase.step task w.clock w.state).reader? = none) :
    stages (w.apply machine deed) =
      Work.set (stages w) task ((phase.step task w.clock w.state).next.getLeft?.map .inl) := by
  rw [(apply_of_call numbered acts).1, nobody]
  exact set_next_none numbered (run_of_actor acts).2.2 _

/-- A call that is answered at its beginning returns with its first step and changes nothing. -/
theorem returned_at_once (numbered : w.Numbered) {call : EngineCall M}
    (begins : stages w task = some (.inl (.begin call)))
    (step : (EngineCall.Phase.begin call).step task w.clock w.state =
      { next := .inr answer, engine := w.state }) :
    returned w (.run task) = [(task, answer)] ∧ (w.apply machine (.run task)).state = w.state := by
  have acts := actor_of_run (ready_of_begin begins) begins
  refine ⟨returned_of_actor acts (by rw [step]), ?_⟩
  rw [(apply_of_call numbered acts).2, step]

/-- A call that returns is at work no more. -/
theorem gone_of_returned (numbered : w.Numbered) (returns : (task, answer) ∈ returned w deed) :
    task < w.next ∧ stages (w.apply machine deed) task = none := by
  obtain ⟨phase, acts, finished⟩ := actor_of_returned returns
  refine ⟨lt_next_of_stage numbered (run_of_actor acts).2.2, ?_⟩
  rw [stage_of_call numbered acts, finished]
  rfl

/-- Nor is it ever again. -/
theorem gone_of_history (numbered : w.Numbered) (obeys : w.Obeys machine Lawful deeds) :
    (w.applyAll machine deeds).Numbered ∧
      ∀ task answer, (task, answer) ∈ w.history machine returned deeds →
        task < (w.applyAll machine deeds).next ∧ stages (w.applyAll machine deeds) task = none := by
  refine World.keeps_run ⟨numbered, fun _ _ returns => nomatch returns⟩ ?_ obeys
  intro before deed _ lawful ⟨numbered, gone⟩
  rw [World.applyAll_snoc, World.history_snoc]
  refine ⟨numbered.apply machine deed, fun task answer returns => ?_⟩
  have later := World.next_le_apply machine (w.applyAll machine before) deed
  rcases List.mem_append.mp returns with earlier | now
  · obtain ⟨old, gone⟩ := gone task answer earlier
    exact ⟨Nat.lt_of_lt_of_le old later, gone_apply numbered lawful old gone⟩
  · obtain ⟨old, gone⟩ := gone_of_returned numbered now
    exact ⟨Nat.lt_of_lt_of_le old later, gone⟩

/-- No call returns twice. -/
theorem eq_of_returned (numbered : w.Numbered) (obeys : w.Obeys machine Lawful deeds) :
    ∀ task answer other, (task, answer) ∈ w.history machine returned deeds →
      (task, other) ∈ w.history machine returned deeds → answer = other := by
  refine World.keeps_run (fun _ _ _ returns => nomatch returns) ?_ obeys
  intro before deed earlier lawful same task answer other returns returns'
  have once : ∀ early late, (task, early) ∈ w.history machine returned before →
      (task, late) ∉ returned (w.applyAll machine before) deed := by
    intro early late returns again
    obtain ⟨phase, acts, -⟩ := actor_of_returned again
    cases ((gone_of_history numbered earlier).2 task early returns).2.symm.trans
      (run_of_actor acts).2.2
  rw [World.history_snoc, List.mem_append] at returns returns'
  rcases returns with early | now <;> rcases returns' with early' | now'
  · exact same task answer other early early'
  · exact absurd now' (once answer other early)
  · exact absurd now (once other answer early')
  · obtain ⟨phase, acts, finished⟩ := actor_of_returned now
    obtain ⟨found, acts', finished'⟩ := actor_of_returned now'
    cases acts.symm.trans acts'
    exact Sum.inr.inj (finished.symm.trans finished')

/-! ## Calls that can return -/

/-- A call can return while only that is done which a rule allows. -/
def CanReturn (rule : Site M → Deed M → Prop) (task : TaskId) (w : Site M) : Prop :=
  ∃ deeds, w.Obeys machine rule deeds ∧
    ∃ answer, (task, answer) ∈ w.history machine returned deeds

theorem CanReturn.after {rule : Site M → Deed M → Prop} (deeds : List (Deed M))
    (obeys : w.Obeys machine rule deeds)
    (returns : CanReturn rule task (w.applyAll machine deeds)) :
    CanReturn rule task w := by
  obtain ⟨more, later, answer, returns⟩ := returns
  refine ⟨deeds ++ more, World.obeys_append.mpr ⟨obeys, later⟩, answer, ?_⟩
  rw [World.history_append]
  exact List.mem_append_right _ returns

end Engine

end HardwareSigner
