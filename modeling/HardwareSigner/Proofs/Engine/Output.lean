import HardwareSigner.Proofs.Engine.Dealings
import HardwareSigner.Proofs.Report.Joining

/-!
# What goes out over a link

Of a link only what has been written matters here: the blocks, and the reports of an attached device
(`ScriptedLink.output`). Nothing but writing a block adds to it, and a device that takes all reports
gets the reports of exactly the blocks that have been written.

> `Engine.delivers_run`: over a run, the blocks are those that senders have sent.
-/

namespace HardwareSigner

/-! ## What a device has been sent -/

namespace Device

/-- The reports written so far, and what the next writes come to. -/
def output (d : Device) : List Bytes × List (Except String Nat) := (d.written, d.writes)

/-- The next writes, as far as they are laid down, take all 64 bytes. -/
def TakesAll (writes : List (Except String Nat)) : Prop :=
  ∀ outcome ∈ writes, outcome = .ok Report.size

theorem TakesAll.tail {writes : List (Except String Nat)} (takes : TakesAll writes) :
    TakesAll writes.tail :=
  fun outcome there => takes outcome (List.mem_of_mem_tail there)

/-- A report that is taken in full. -/
theorem write_of_takesAll {d : Device} (takes : TakesAll d.writes) (report : Bytes) :
    d.write report =
      (.ok Report.size, { d with writes := d.writes.tail, written := d.written ++ [report] }) := by
  unfold write
  cases next : d.writes with
  | nil => rfl
  | cons outcome later =>
    rw [next] at takes
    rw [takes outcome (List.mem_cons_self ..)]

/-- A device that takes all reports gets all of them, in order. -/
theorem writeAll_of_takesAll {d : Device} (takes : TakesAll d.writes) (reports : List Bytes) :
    (d.writeAll reports).1 = .ok () ∧
      (d.writeAll reports).2.written = d.written ++ reports ∧
      TakesAll (d.writeAll reports).2.writes := by
  induction reports generalizing d with
  | nil => exact ⟨rfl, (List.append_nil _).symm, takes⟩
  | cons report reports ih =>
    obtain ⟨outcome, written, later⟩ :=
      @ih { d with writes := d.writes.tail, written := d.written ++ [report] } takes.tail
    have goesOn : d.writeAll (report :: reports) =
        ({ d with writes := d.writes.tail, written := d.written ++ [report] } : Device).writeAll
          reports := by
      rw [writeAll, write_of_takesAll takes]
      exact if_pos rfl
    rw [goesOn]
    refine ⟨outcome, written.trans ?_, later⟩
    exact (List.append_assoc _ _ _).trans rfl

end Device

theorem HidLink.output_openLink (l : HidLink) : l.openLink.2.device.output = l.device.output := by
  have line : (Bridge.enable true l.device).2.output = l.device.output := rfl
  unfold openLink
  split
  · rfl
  · split
    next failure device same =>
      rw [same] at line
      exact line
    next device same =>
      rw [same] at line
      have queues : (Bridge.purge .both device).2.output = device.output := rfl
      split
      next failure last also =>
        rw [also] at queues
        exact queues.trans line
      next last also =>
        rw [also] at queues
        exact queues.trans line

/-! ## What has gone out over a link -/

/-- The blocks written over a link, and what its device has been sent, if it leads to one. -/
structure Output where
  blocks : List Bytes
  device? : Option (List Bytes × List (Except String Nat))

namespace ScriptedLink

def output (l : ScriptedLink) : Output := ⟨l.written, l.hid?.map fun hid => hid.device.output⟩

variable (l : ScriptedLink)

@[simp] theorem output_feed (arrivals : List Arrival) : (l.feed arrivals).output = l.output := by
  refine congrArg (Output.mk l.written) ?_
  show (l.hid?.map _).map _ = _
  rw [Option.map_map]
  rfl

@[simp] theorem output_openLink (failure? : Option String) :
    (l.openLink failure?).2.output = l.output := by
  unfold openLink
  split
  · rfl
  · rfl
  next hid there =>
    refine congrArg (Output.mk l.written) ?_
    rw [there]
    exact congrArg some hid.output_openLink

@[simp] theorem output_close : l.close.2.output = l.output := by
  unfold close
  simp only
  split
  · rfl
  next hid there =>
    refine congrArg (Output.mk l.written) ?_
    rw [there]
    rfl

theorem output_receive? {l after : ScriptedLink} {outcome : Except Failure Received}
    (receives : l.receive? = some (outcome, after)) : after.output = l.output := by
  unfold receive? at receives
  split at receives
  · split at receives
    · cases receives
      rfl
    · cases receives
  next there =>
    cases receives
    refine congrArg (Output.mk l.written) ?_
    rw [there]
    rfl
  all_goals
    cases receives
    rfl

end ScriptedLink

/-- `blocks` have been written between two moments. A device that takes all reports has got the
reports of these blocks. -/
structure Delivers (before after : Output) (blocks : List Bytes) : Prop where
  written : after.blocks = before.blocks ++ blocks
  reports : ∀ reports writes, before.device? = some (reports, writes) → Device.TakesAll writes →
    ∃ later, after.device? = some (reports ++ blocks.flatMap Report.chunk, later) ∧
      Device.TakesAll later

namespace Delivers

variable {o o' o'' : Output} {blocks more : List Bytes}

theorem refl (o : Output) : Delivers o o [] where
  written := (List.append_nil _).symm
  reports reports writes there takes :=
    ⟨writes, by rw [there, List.flatMap_nil, List.append_nil], takes⟩

theorem of_eq (same : o' = o) : Delivers o o' [] := same ▸ .refl o

theorem trans (first : Delivers o o' blocks) (second : Delivers o' o'' more) :
    Delivers o o'' (blocks ++ more) where
  written := by rw [second.written, first.written, List.append_assoc]
  reports reports writes there takes := by
    obtain ⟨between, there, takes⟩ := first.reports reports writes there takes
    obtain ⟨later, there, takes⟩ := second.reports _ between there takes
    refine ⟨later, ?_, takes⟩
    rw [there, List.flatMap_append, List.append_assoc]

end Delivers

namespace ScriptedLink

variable (l : ScriptedLink)

/-- The blocks that a write gets out: its own, unless it fails. -/
def gotOut (block : Bytes) : Except Failure Unit → List Bytes
  | .ok () => [block]
  | .error _ => []

theorem delivers_send {hid after : HidLink} {block : Bytes} {outcome : Except Failure Unit}
    (there : l.hid? = some hid) (sent : hid.send block = (outcome, after)) :
    Delivers l.output
      ⟨l.written ++ gotOut block outcome, some after.device.output⟩ (gotOut block outcome) where
  written := rfl
  reports reports writes device takes := by
    have mine : l.output.device? = some hid.device.output := by
      show l.hid?.map _ = _
      rw [there]
      rfl
    obtain ⟨rfl, rfl⟩ := Prod.mk.inj (Option.some.inj (mine.symm.trans device))
    obtain ⟨succeeds, written, later⟩ := Device.writeAll_of_takesAll takes (Report.chunk block)
    obtain ⟨rfl, rfl⟩ := Prod.mk.inj sent
    refine ⟨_, ?_, later⟩
    show some ((hid.device.writeAll (Report.chunk block)).2.written, _) = _
    rw [written, succeeds, gotOut, List.flatMap_singleton]

/-- A write gets its block out, and to a device that takes all reports the reports of it. -/
theorem delivers_write (block : Bytes) (failure? : Option String) :
    Delivers l.output (l.write block failure?).2.output
      (gotOut block (l.write block failure?).1) := by
  unfold write
  cases failure? with
  | some text =>
    -- The link fails before anything reaches the device.
    exact .refl _
  | none =>
    cases there : l.hid? with
    | none =>
      have nothing : l.output.device? = none := by
        show l.hid?.map _ = _
        rw [there]
        rfl
      refine ⟨congrArg Output.blocks (output_feed _ _), fun reports writes device => ?_⟩
      cases nothing.symm.trans device
    | some hid =>
      rcases sent : hid.send block with ⟨outcome, after⟩
      have delivers := l.delivers_send there sent
      simp only [sent]
      cases outcome with
      | ok =>
        have answered : ({ l with hid? := some after, written := l.written ++ [block] } :
            ScriptedLink).reply.output = ⟨l.written ++ [block], some after.device.output⟩ :=
          output_feed _ _
        simp only
        rw [answered]
        exact delivers
      | error failure =>
        rw [gotOut, List.append_nil] at delivers
        exact delivers

end ScriptedLink

/-! ## What writing fails with -/

/-- The link or its device has failed. -/
def Failure.OfWriting (failure : Failure) : Prop :=
  (∃ cause, failure = .io cause) ∨ ∃ text, failure = .hid text

theorem Device.ofWriting_of_writeAll {d : Device} {reports : List Bytes} {failure : Failure}
    (failed : (d.writeAll reports).1 = .error failure) : failure.OfWriting := by
  induction reports generalizing d with
  | nil => cases failed
  | cons report reports ih =>
    -- Either the device fails with a text of its own, or it takes less than the report.
    rw [writeAll] at failed
    split at failed
    next cause after wrote =>
      cases failed
      have outcome := congrArg Prod.fst wrote
      unfold write at outcome
      simp only at outcome
      split at outcome
      · cases outcome
      · cases outcome
      · cases outcome
        exact Or.inr ⟨_, rfl⟩
    next count after wrote =>
      split at failed
      · exact ih failed
      · cases failed
        exact Or.inl ⟨_, rfl⟩

theorem ScriptedLink.ofWriting_of_write {l : ScriptedLink} {block : Bytes}
    {failure? : Option String} {failure : Failure}
    (failed : (l.write block failure?).1 = .error failure) : failure.OfWriting := by
  unfold write at failed
  split at failed
  · cases failed
    exact Or.inl ⟨_, rfl⟩
  · cases failed
  next hid there =>
    split at failed
    next cause after sent =>
      cases failed
      exact Device.ofWriting_of_writeAll (congrArg Prod.fst sent)
    next => cases failed

/-- The blocks that a step of a call gets out. -/
def EngineCall.Phase.sendsOut {M : Type} (e : Engine M) : EngineCall.Phase M → List Bytes
  | .writing block _ failure? => ScriptedLink.gotOut block (e.link.write block failure?).1
  | _ => []

/-- With a step of a call goes out which it gets out. -/
theorem EngineCall.Phase.delivers {M : Type} (phase : EngineCall.Phase M) (e : Engine M) :
    Delivers e.link.output (phase.linkAfter e).output (phase.sendsOut e) := by
  -- Two phases take the writing half out, and close the link if it is there.
  have closes : (if e.writer then e.link.close.2 else e.link).output = e.link.output := by
    split
    · exact e.link.output_close
    · rfl
  cases phase with
  | writing block latest failure? => exact e.link.delivers_write block failure?
  | opening latest failure? => exact .of_eq (e.link.output_openLink failure?)
  | sending block =>
    refine .of_eq ?_
    show (if e.writer then e.link.planWrite.2 else e.link).output = _
    split <;> rfl
  | retracting => exact .of_eq closes
  | detaching => exact .of_eq closes
  | _ => exact .refl _

namespace Engine

variable {M : Type} {w : Site M} {deed : Deed M} {deeds : List (Deed M)}

/-- What goes out is left to the calls. -/
theorem callsOnly_output : CallsOnly fun e : Engine M => e.link.output where
  registry _ _ := rfl
  reader _ _ := rfl
  aborted _ _ := rfl
  receives _ _ _ receives := ScriptedLink.output_receive? receives
  feeds e arrivals := e.link.output_feed arrivals

/-- The blocks that are sent with an action. -/
def sends (w : Site M) (deed : Deed M) : List Bytes :=
  ((dealings w deed).blocks Dealing.sent?).map Prod.snd

/-- Nobody sends anything but who is writing a block. -/
theorem sent_of_deals {phase : EngineCall.Phase M} {next : EngineCall.Phase M ⊕ EngineCall.Answer}
    (other : ∀ block latest failure?, phase ≠ .writing block latest failure?) (task : TaskId) :
    Ledger.blocks ((phase.deals next).map fun dealing => (task, dealing)) Dealing.sent? = [] := by
  refine List.eq_nil_iff_forall_not_mem.mpr fun entry there => ?_
  obtain ⟨dealing, among, shows⟩ := Ledger.mem_blocks.mp there
  obtain ⟨found, deals, same⟩ := List.mem_map.mp among
  cases same
  cases EngineCall.Phase.deals_of_mem deals with
  | ends block latest failure? outcome => exact other block latest failure? rfl
  | _ => cases shows

theorem sends_of_call {task : TaskId} {phase : EngineCall.Phase M}
    (acts : actor w deed = some (task, .inl phase)) :
    sends w deed = phase.sendsOut w.state := by
  unfold sends
  rw [dealings_of_call acts]
  cases phase with
  | writing block latest failure? =>
    have ends : ((EngineCall.Phase.writing block latest failure?).step task w.clock w.state).next =
        .inr (.done (w.state.link.write block failure?).1) := rfl
    show _ = ScriptedLink.gotOut block (w.state.link.write block failure?).1
    rw [ends]
    cases (w.state.link.write block failure?).1 <;> rfl
  | _ =>
    rw [sent_of_deals (by intro block latest failure? same; cases same)]
    rfl

theorem delivers_call {task : TaskId} {phase : EngineCall.Phase M}
    (acts : actor w deed = some (task, .inl phase)) :
    Delivers w.state.link.output (phase.linkAfter w.state).output (sends w deed) := by
  rw [sends_of_call acts]
  exact phase.delivers w.state

/-- With an action that goes out which is sent with it. -/
theorem delivers_apply (numbered : w.Numbered) (patient : Patient w deed) :
    Delivers w.state.link.output (w.apply machine deed).state.link.output (sends w deed) := by
  by_cases called : ∃ task phase, actor w deed = some (task, .inl phase)
  · obtain ⟨task, phase, acts⟩ := called
    rw [(apply_of_call numbered acts).2, EngineCall.Phase.link_step]
    exact delivers_call acts
  · have uncalled : ∀ task phase, actor w deed ≠ some (task, .inl phase) :=
      fun task phase acts => called ⟨task, phase, acts⟩
    have nothing : sends w deed = [] := by
      unfold sends
      rw [dealings_of_uncalled uncalled]
      rfl
    rw [nothing]
    exact .of_eq (callsOnly_output.apply (fun task phase => patient.2 task phase) uncalled)

/-- Over a run that goes out which senders have sent. -/
theorem delivers_run (numbered : w.Numbered) (obeys : w.Obeys machine Patient deeds) :
    Delivers w.state.link.output (w.applyAll machine deeds).state.link.output
      (((ledger w deeds).blocks Dealing.sent?).map Prod.snd) := by
  refine World.keeps_run (.refl _) ?_ obeys
  intro before deed _ patient delivers
  rw [ledger_snoc, Ledger.blocks_append, List.map_append, World.applyAll_snoc]
  exact delivers.trans (delivers_apply (numbered_applyAll numbered before) patient)

end Engine

end HardwareSigner
