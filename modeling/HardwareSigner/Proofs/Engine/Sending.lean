import HardwareSigner.Proofs.Listener.Line
import Mathlib.Data.List.Nodup

/-!
# Whose turn it is to write

Whoever is to put the writing half of the link in, to take it out or to write a block with it stands
in one line. This file follows the line, for any number of calls, without looking at what else they
do.

Of all that a call does only its `Errand` matters here, and of the engine only its `Desk`.
`Desk.Move` lists the ways in which a step changes both, with the `Dealing` that a sender has.
`Desk.InLine` ties the line together with all dealings so far: those who wait are those who have
asked last, at most one of those who have got the writing half has not given it back, and nobody
takes it out before those who wait to write.

> `Desk.inLine_move`: every move keeps it, if nobody asks when others are there to take the writing
> half out.
> `Desk.not_denied`: so whoever waits for the writing half finds it there.
-/

namespace HardwareSigner

namespace Lock

variable {l : Lock} {task : TaskId}

theorem line_request (l : Lock) (task : TaskId) (mode : LockMode) :
    (l.request task mode).line = l.line ++ [task] := by
  unfold line request
  rw [List.map_append]
  rfl

/-- Who is first in line leaves the others behind. -/
theorem line_release_of_first {rest : List TaskId} (first : l.line = task :: rest)
    (absent : task ∉ rest) : (l.release task).line = rest := by
  have filtered : (l.release task).line = l.line.filter fun other => other != task := by
    unfold line release
    rw [List.filter_map]
    rfl
  rw [filtered, first, List.filter_cons_of_neg (by simp), List.filter_eq_self]
  intro other there
  rw [bne_iff_ne]
  intro same
  rw [same] at there
  exact absent there

/-- Nobody shares the lock. -/
def Exclusive (l : Lock) : Prop := ∀ place ∈ l.queue, place.2 = .exclusive

theorem Exclusive.request (exclusive : l.Exclusive) (task : TaskId) :
    (l.request task .exclusive).Exclusive := by
  intro place there
  rcases List.mem_append.mp there with before | new
  · exact exclusive place before
  · rw [List.mem_singleton.mp new]

theorem Exclusive.release (exclusive : l.Exclusive) (task : TaskId) :
    (l.release task).Exclusive :=
  fun place there => exclusive place (List.mem_filter.mp there).1

/-- A lock that nobody shares is granted to the first in line. -/
theorem Exclusive.first (exclusive : l.Exclusive) (granted : l.granted task = true) :
    ∃ rest, l.line = task :: rest := by
  cases found : l.queue.lookup task with
  | none =>
    unfold Lock.granted at granted
    rw [found] at granted
    cases granted
  | some mode =>
    have alone : mode = .exclusive := exclusive _ (mem_of_lookup found)
    obtain ⟨rest, first⟩ := first_of_granted (alone ▸ found) granted
    exact ⟨rest.map Prod.fst, congrArg (List.map Prod.fst) first⟩

end Lock

/-- What a call has to do with the writing half. -/
inductive Errand
  /-- It is to put the writing half in or to take it out. -/
  | handles
  /-- It waits to write a block. -/
  | sends (block : Bytes)
  /-- It is writing a block. -/
  | writes (block : Bytes)
  deriving DecidableEq

def Errand.sends? : Errand → Option Bytes
  | sends block => some block
  | _ => none

def Errand.writes? : Errand → Option Bytes
  | writes block => some block
  | _ => none

/-- What a sender has to do with the writing half in one step. -/
inductive Dealing
  /-- It gets in line to write a block. -/
  | asks (block : Bytes)
  /-- It has its turn, and the writing half is not there. -/
  | denied (block : Bytes)
  /-- It has its turn, and hands the block over. -/
  | hands (block : Bytes)
  /-- The block has been written, or writing it has failed. -/
  | ends (block : Bytes) (outcome : Except Failure Unit)

namespace Dealing

/-- A block is asked for. -/
def asked? : Dealing → Option Bytes
  | asks block => some block
  | _ => none

def handed? : Dealing → Option Bytes
  | hands block => some block
  | _ => none

def ended? : Dealing → Option Bytes
  | ends block _ => some block
  | _ => none

/-- A block has been written. -/
def sent? : Dealing → Option Bytes
  | ends block (.ok ()) => some block
  | _ => none

variable {dealing : Dealing} {block : Bytes}

theorem asked?_eq_some : dealing.asked? = some block ↔ dealing = .asks block := by
  cases dealing <;> simp [asked?]

theorem handed?_eq_some : dealing.handed? = some block ↔ dealing = .hands block := by
  cases dealing <;> simp [handed?]

theorem ended?_eq_some :
    dealing.ended? = some block ↔ ∃ outcome, dealing = .ends block outcome := by
  cases dealing <;> simp [ended?]

theorem sent?_eq_some : dealing.sent? = some block ↔ dealing = .ends block (.ok ()) := by
  cases dealing with
  | ends block outcome => cases outcome <;> simp [sent?]
  | _ => simp [sent?]

end Dealing

/-- Who has had which dealings, in order. -/
abbrev Ledger := List (TaskId × Dealing)

/-- The blocks of some dealings, and whose they are. -/
def Ledger.blocks (log : Ledger) (which : Dealing → Option Bytes) : List (TaskId × Bytes) :=
  log.filterMap fun entry => (which entry.2).map fun block => (entry.1, block)

theorem Ledger.blocks_append (log more : Ledger) (which : Dealing → Option Bytes) :
    (log ++ more).blocks which = log.blocks which ++ more.blocks which := List.filterMap_append

theorem Ledger.mem_blocks {log : Ledger} {which : Dealing → Option Bytes} {task : TaskId}
    {block : Bytes} :
    (task, block) ∈ log.blocks which ↔
      ∃ dealing, (task, dealing) ∈ log ∧ which dealing = some block := by
  unfold blocks
  simp only [List.mem_filterMap, Option.map_eq_some_iff, Prod.mk.injEq, Prod.exists]
  constructor
  · intro among
    obtain ⟨other, dealing, there, found, shows, rfl, rfl⟩ := among
    exact ⟨dealing, there, shows⟩
  · intro among
    obtain ⟨dealing, there, shows⟩ := among
    exact ⟨task, dealing, there, block, shows, rfl, rfl⟩

section

variable {log : Ledger} {task : TaskId} {block : Bytes}

theorem Ledger.mem_asked :
    (task, block) ∈ log.blocks Dealing.asked? ↔ (task, .asks block) ∈ log := by
  simp only [mem_blocks, Dealing.asked?_eq_some, exists_eq_right]

theorem Ledger.mem_handed :
    (task, block) ∈ log.blocks Dealing.handed? ↔ (task, .hands block) ∈ log := by
  simp only [mem_blocks, Dealing.handed?_eq_some, exists_eq_right]

theorem Ledger.mem_ended : (task, block) ∈ log.blocks Dealing.ended? ↔
    ∃ outcome, (task, .ends block outcome) ∈ log := by
  rw [mem_blocks]
  constructor
  · intro there
    obtain ⟨dealing, among, shows⟩ := there
    obtain ⟨outcome, rfl⟩ := Dealing.ended?_eq_some.mp shows
    exact ⟨outcome, among⟩
  · intro there
    obtain ⟨outcome, among⟩ := there
    exact ⟨_, among, rfl⟩

theorem Ledger.mem_sent :
    (task, block) ∈ log.blocks Dealing.sent? ↔ (task, .ends block (.ok ())) ∈ log := by
  simp only [mem_blocks, Dealing.sent?_eq_some, exists_eq_right]

end

/-- Fewer dealings, fewer blocks, in the same order. -/
theorem Ledger.blocks_sublist {some_of all_of : Dealing → Option Bytes}
    (among : ∀ dealing block, some_of dealing = some block → all_of dealing = some block)
    (log : Ledger) : (log.blocks some_of).Sublist (log.blocks all_of) := by
  induction log with
  | nil => exact List.Sublist.refl _
  | cons entry log ih =>
    unfold blocks at ih ⊢
    cases fewer : some_of entry.2 with
    | none =>
      rw [List.filterMap_cons_none (by rw [fewer]; rfl)]
      cases more : all_of entry.2 with
      | none => rwa [List.filterMap_cons_none (by rw [more]; rfl)]
      | some block =>
        rw [List.filterMap_cons_some (by rw [more]; rfl)]
        exact ih.cons _
    | some block =>
      rw [List.filterMap_cons_some (by rw [fewer]; rfl),
        List.filterMap_cons_some (by rw [among _ _ fewer]; rfl)]
      exact ih.cons_cons _

/-- What has been written has come to an end. -/
theorem Ledger.sent_sublist_ended (log : Ledger) :
    (log.blocks Dealing.sent?).Sublist (log.blocks Dealing.ended?) :=
  log.blocks_sublist fun _ _ sent =>
    Dealing.ended?_eq_some.mpr ⟨.ok (), Dealing.sent?_eq_some.mp sent⟩

/-- An engine as far as writing is concerned. -/
structure Desk where
  /-- The line for the writing half. -/
  lock : Lock
  /-- The writing half is in its place. -/
  writer : Bool

namespace Desk

/-- The block of a task with the given errand. -/
def share (is : Errand → Option Bytes) (task : TaskId) (errand? : Option Errand) :
    List (TaskId × Bytes) :=
  ((errand?.bind is).map fun block => (task, block)).toList

/-- The blocks of those in line. -/
def queued (is : Errand → Option Bytes) (errands : Work Errand) (line : List TaskId) :
    List (TaskId × Bytes) :=
  line.flatMap fun task => share is task (errands task)

/-- What a step makes of the errand of its task and of the desk, and what the task deals. -/
inductive Move (task : TaskId) : Option Errand → Desk → List Dealing → Option Errand → Desk → Prop
  | rests (errand? : Option Errand) (d : Desk) : Move task errand? d [] errand? d
  | comes (d : Desk) :
      Move task none d [] (some .handles) { d with lock := d.lock.request task .exclusive }
  | asks (d : Desk) (block : Bytes) :
      Move task none d [.asks block] (some (.sends block))
        { d with lock := d.lock.request task .exclusive }
  | goes {d : Desk} (granted : d.lock.granted task = true) (writer : Bool) :
      Move task (some .handles) d [] none ⟨d.lock.release task, writer⟩
  | again {d : Desk} (granted : d.lock.granted task = true) (writer : Bool) :
      Move task (some .handles) d [] (some .handles)
        ⟨(d.lock.release task).request task .exclusive, writer⟩
  | denied {d : Desk} (granted : d.lock.granted task = true) (block : Bytes)
      (gone : d.writer = false) :
      Move task (some (.sends block)) d [.denied block] none
        { d with lock := d.lock.release task }
  | hands {d : Desk} (granted : d.lock.granted task = true) (block : Bytes)
      (there : d.writer = true) :
      Move task (some (.sends block)) d [.hands block] (some (.writes block)) d
  | ends (d : Desk) (block : Bytes) (outcome : Except Failure Unit) :
      Move task (some (.writes block)) d [.ends block outcome] none
        { d with lock := d.lock.release task }

/-! ## Standing in line -/

/-- In line stands, once, whoever has an errand. -/
structure Standing (errands : Work Errand) (l : Lock) : Prop where
  stands : ∀ task, task ∈ l.line ↔ (errands task).isSome = true
  exclusive : l.Exclusive
  once : l.line.Nodup

namespace Standing

variable {errands : Work Errand} {l : Lock} {task : TaskId}

theorem absent (standing : Standing errands l) (idle : errands task = none) : task ∉ l.line := by
  rw [standing.stands, idle]
  exact Bool.false_ne_true

theorem comes (standing : Standing errands l) (idle : errands task = none) (errand : Errand) :
    Standing (errands.set task (some errand)) (l.request task .exclusive) where
  stands other := by
    rw [Lock.mem_line_request]
    by_cases same : other = task
    · rw [same, Work.set_self]
      exact iff_of_true (Or.inr rfl) rfl
    · rw [Work.set_of_ne _ _ _ same, or_iff_left same]
      exact standing.stands other
  exclusive := standing.exclusive.request task
  once := by
    rw [Lock.line_request, List.nodup_append]
    refine ⟨standing.once, List.nodup_singleton task, ?_⟩
    intro other there new last same
    rw [same, List.mem_singleton.mp last] at there
    exact standing.absent idle there

theorem goes (standing : Standing errands l) (task : TaskId) :
    Standing (errands.set task none) (l.release task) where
  stands other := by
    rw [Lock.mem_line_release]
    by_cases same : other = task
    · rw [same, Work.set_self]
      exact iff_of_false (fun there => there.2 rfl) Bool.false_ne_true
    · rw [Work.set_of_ne _ _ _ same, and_iff_left same]
      exact standing.stands other
  exclusive := standing.exclusive.release task
  once := standing.once.sublist (List.filter_sublist.map Prod.fst)

theorem changes (standing : Standing errands l) (there : (errands task).isSome = true)
    (errand : Errand) : Standing (errands.set task (some errand)) l where
  stands other := by
    by_cases same : other = task
    · rw [same, Work.set_self, standing.stands, there]
      exact iff_of_true rfl rfl
    · rw [Work.set_of_ne _ _ _ same]
      exact standing.stands other
  exclusive := standing.exclusive
  once := standing.once

/-- Who is granted the lock is first in line, and nowhere else in it. -/
theorem first (standing : Standing errands l) (granted : l.granted task = true) :
    ∃ rest, l.line = task :: rest ∧ task ∉ rest := by
  obtain ⟨rest, first⟩ := standing.exclusive.first granted
  have once := standing.once
  rw [first] at once
  exact ⟨rest, first, (List.nodup_cons.mp once).1⟩

end Standing

/-! ## What waits in line -/

section
variable {is : Errand → Option Bytes} {errands : Work Errand} {task : TaskId}
  {line rest : List TaskId}

/-- Nothing changes for those in line if somebody else moves. -/
theorem queued_set (absent : task ∉ line) (errand? : Option Errand) :
    queued is (errands.set task errand?) line = queued is errands line := by
  unfold queued
  refine List.flatMap_congr fun other there => ?_
  have different : other ≠ task := by
    intro same
    rw [same] at there
    exact absent there
  rw [Work.set_of_ne _ _ _ different]

/-- Who joins the line waits behind everybody. -/
theorem queued_comes (absent : task ∉ line) (errand? : Option Errand) :
    queued is (errands.set task errand?) (line ++ [task]) =
      queued is errands line ++ share is task errand? := by
  have last : queued is (errands.set task errand?) [task] = share is task errand? := by
    unfold queued
    rw [List.flatMap_singleton, Work.set_self]
  have split : queued is (errands.set task errand?) (line ++ [task]) =
      queued is (errands.set task errand?) line ++ queued is (errands.set task errand?) [task] :=
    List.flatMap_append
  rw [split, last, queued_set absent]

theorem queued_cons (is : Errand → Option Bytes) (errands : Work Errand) (task : TaskId)
    (rest : List TaskId) :
    queued is errands (task :: rest) = share is task (errands task) ++ queued is errands rest :=
  List.flatMap_cons

theorem mem_queued {block : Bytes} :
    (task, block) ∈ queued is errands line ↔ task ∈ line ∧ (errands task).bind is = some block := by
  unfold queued share
  simp only [List.mem_flatMap, Option.mem_toList, Option.map_eq_some_iff, Prod.mk.injEq]
  constructor
  · intro among
    obtain ⟨other, there, found, shows, rfl, rfl⟩ := among
    exact ⟨there, shows⟩
  · intro among
    exact ⟨task, among.1, block, among.2, rfl, rfl⟩

end

/-! ## The line and the dealings -/

/-- Those in line are those who have asked, and have had no turn yet or are at it. -/
structure InLine (errands : Work Errand) (d : Desk) (log : Ledger) : Prop where
  standing : Standing errands d.lock
  /-- Whoever writes is first in line. -/
  first : ∀ task block, errands task = some (.writes block) → d.lock.line.head? = some task
  /-- Whoever waits to put the writing half in, or to take it out, waits behind all senders. -/
  sorted : d.lock.line.Pairwise fun before behind =>
    errands before = some .handles → errands behind = some .handles
  /-- As long as senders are in line the writing half is there. -/
  writer : ∀ task ∈ d.lock.line, errands task ≠ some .handles → d.writer = true
  asked : log.blocks Dealing.asked? =
    log.blocks Dealing.handed? ++ queued Errand.sends? errands d.lock.line
  handed : log.blocks Dealing.handed? =
    log.blocks Dealing.ended? ++ queued Errand.writes? errands d.lock.line

namespace InLine

variable {errands : Work Errand} {d : Desk} {log : Ledger} {task : TaskId}

/-- Those who stand elsewhere in line than a task do as before, whatever it does. -/
theorem set_of_mem {line : List TaskId} {other : TaskId} (absent : task ∉ line)
    (there : other ∈ line) (errand? : Option Errand) :
    errands.set task errand? other = errands other := by
  refine Work.set_of_ne _ _ _ fun same => ?_
  rw [same] at there
  exact absent there

theorem sorted_set {line : List TaskId} (absent : task ∉ line) (errand? : Option Errand)
    (sorted : line.Pairwise fun before behind =>
      errands before = some .handles → errands behind = some .handles) :
    line.Pairwise fun before behind => errands.set task errand? before = some .handles →
      errands.set task errand? behind = some .handles := by
  refine sorted.imp_of_mem fun before behind follows => ?_
  rw [set_of_mem absent before, set_of_mem absent behind]
  exact follows

/-- Nobody writes behind the first in line. -/
theorem behind (inLine : InLine errands d log) {rest : List TaskId}
    (first : d.lock.line = task :: rest) : queued Errand.writes? errands rest = [] := by
  have once := inLine.standing.once
  rw [first] at once
  refine List.flatMap_eq_nil_iff.mpr fun other later => ?_
  cases errand : errands other with
  | none => rfl
  | some found =>
    cases found with
    | writes block =>
      have front := inLine.first other block errand
      rw [first, List.head?_cons] at front
      rw [← Option.some.inj front] at later
      exact absurd later (List.nodup_cons.mp once).1
    | _ => rfl

/-- Somebody gets in line. If it is to send a block, then the writing half is there and nobody else
waits to take it out. -/
theorem comes (inLine : InLine errands d log) (idle : errands task = none) (errand : Errand)
    (begins : errand.writes? = none)
    (open' : errand ≠ .handles → d.writer = true ∧ ∀ other, errands other ≠ some .handles)
    {done : Ledger} (asks : done.blocks Dealing.asked? = share Errand.sends? task (some errand))
    (hands : done.blocks Dealing.handed? = []) (ends : done.blocks Dealing.ended? = []) :
    InLine (errands.set task (some errand)) { d with lock := d.lock.request task .exclusive }
      (log ++ done) := by
  have absent := inLine.standing.absent idle
  refine ⟨inLine.standing.comes idle errand, fun other block writes => ?_, ?_, ?_, ?_, ?_⟩
  · rcases Work.set_cases _ _ _ writes with ⟨-, now⟩ | ⟨-, before⟩
    · cases Option.some.inj now
      cases begins
    · show (d.lock.request task .exclusive).line.head? = some other
      rw [Lock.line_request, List.head?_append, inLine.first other block before]
      rfl
  · -- Whoever joins behind somebody who is to take the writing half out is to do so, too.
    show (d.lock.request task .exclusive).line.Pairwise _
    rw [Lock.line_request, List.pairwise_append]
    refine ⟨sorted_set absent _ inLine.sorted, List.pairwise_singleton _ _, ?_⟩
    intro before there last new handles
    rw [List.mem_singleton.mp new, Work.set_self]
    rw [set_of_mem absent there] at handles
    by_cases also : errand = .handles
    · rw [also]
    · exact absurd handles ((open' also).2 before)
  · intro other there sender
    by_cases same : other = task
    · rw [same, Work.set_self] at sender
      exact (open' fun also => sender (congrArg some also)).1
    · rw [Work.set_of_ne _ _ _ same] at sender
      exact inLine.writer other (((Lock.mem_line_request _).mp there).resolve_right same) sender
  · rw [Ledger.blocks_append, Ledger.blocks_append, asks, hands, List.append_nil, inLine.asked]
    show _ = _ ++ queued _ _ (d.lock.request task .exclusive).line
    rw [Lock.line_request, queued_comes absent, List.append_assoc]
  · have idles : share Errand.writes? task (some errand) = [] := by
      unfold share
      rw [Option.bind_some, begins]
      rfl
    rw [Ledger.blocks_append, Ledger.blocks_append, hands, ends, List.append_nil, List.append_nil,
      inLine.handed]
    show _ = _ ++ queued _ _ (d.lock.request task .exclusive).line
    rw [Lock.line_request, queued_comes absent, idles, List.append_nil]

/-- Whoever is first in line leaves it, and if it is to, takes the writing half with it. -/
theorem goes (inLine : InLine errands d log) {rest : List TaskId}
    (first : d.lock.line = task :: rest) (absent : task ∉ rest) {writer : Bool}
    (kept : errands task = some .handles ∨ writer = d.writer) {done : Ledger}
    (asks : done.blocks Dealing.asked? = [])
    (unasked : share Errand.sends? task (errands task) = [])
    (hands : done.blocks Dealing.handed? = [])
    (ends : done.blocks Dealing.ended? = share Errand.writes? task (errands task)) :
    InLine (errands.set task none) ⟨d.lock.release task, writer⟩ (log ++ done) := by
  have line : (d.lock.release task).line = rest := Lock.line_release_of_first first absent
  have sorted := inLine.sorted
  rw [first, List.pairwise_cons] at sorted
  refine ⟨inLine.standing.goes task, fun other block writes => ?_, ?_, ?_, ?_, ?_⟩
  · rcases Work.set_cases _ _ _ writes with ⟨-, now⟩ | ⟨different, before⟩
    · cases now
    · have before := inLine.first other block before
      rw [first, List.head?_cons] at before
      exact absurd (Option.some.inj before).symm different
  · show (d.lock.release task).line.Pairwise _
    rw [line]
    exact sorted_set absent none sorted.2
  · show ∀ other ∈ (d.lock.release task).line, _
    rw [line]
    intro other there sender
    rw [set_of_mem absent there] at sender
    -- If the writing half goes, then no sender is left: all have been in front.
    rcases kept with handles | same
    · exact absurd (sorted.1 other there handles) sender
    · rw [same]
      refine inLine.writer other ?_ sender
      rw [first]
      exact List.mem_cons_of_mem _ there
  · rw [Ledger.blocks_append, Ledger.blocks_append, asks, hands, List.append_nil, List.append_nil,
      inLine.asked, first, queued_cons, unasked]
    show _ = _ ++ queued _ _ (d.lock.release task).line
    rw [line, queued_set absent, List.nil_append]
  · rw [Ledger.blocks_append, Ledger.blocks_append, hands, ends, List.append_nil, inLine.handed,
      first, queued_cons, List.append_assoc]
    show _ = _ ++ (_ ++ queued _ _ (d.lock.release task).line)
    rw [line, queued_set absent]

/-- Whoever is first in line starts to write. -/
theorem hands (inLine : InLine errands d log) {rest : List TaskId}
    (first : d.lock.line = task :: rest) (absent : task ∉ rest) {block : Bytes}
    (sends : errands task = some (.sends block)) :
    InLine (errands.set task (some (.writes block))) d (log ++ [(task, .hands block)]) := by
  have sorted := inLine.sorted
  rw [first, List.pairwise_cons] at sorted
  refine ⟨inLine.standing.changes (by rw [sends]; rfl) _, fun other also writes => ?_, ?_, ?_, ?_,
    ?_⟩
  · rcases Work.set_cases _ _ _ writes with ⟨same, -⟩ | ⟨different, before⟩
    · -- It has been granted the lock, so it is first.
      rw [same, first]
      rfl
    · exact inLine.first other also before
  · rw [first, List.pairwise_cons]
    refine ⟨fun other there handles => ?_, sorted_set absent _ sorted.2⟩
    rw [Work.set_self] at handles
    cases handles
  · intro other there sender
    by_cases same : other = task
    · exact inLine.writer other there (by rw [same, sends]; exact fun other => nomatch other)
    · rw [Work.set_of_ne _ _ _ same] at sender
      exact inLine.writer other there sender
  · rw [Ledger.blocks_append, Ledger.blocks_append, inLine.asked, first, queued_cons, queued_cons,
      queued_set absent, Work.set_self, sends]
    show _ ++ ([(task, block)] ++ _) ++ [] = _ ++ [(task, block)] ++ ([] ++ _)
    rw [List.append_nil, List.nil_append, List.append_assoc]
  · rw [Ledger.blocks_append, Ledger.blocks_append, inLine.handed, first, queued_cons, queued_cons,
      queued_set absent, Work.set_self, sends, inLine.behind first]
    show _ ++ ([] ++ []) ++ [(task, block)] = _ ++ [] ++ ([(task, block)] ++ [])
    simp only [List.append_nil]

/-! ### What follows -/

/-- At most one block that has been handed over is still being written. -/
theorem handed_cases (inLine : InLine errands d log) :
    log.blocks Dealing.handed? = log.blocks Dealing.ended? ∨
      ∃ task block, errands task = some (.writes block) ∧
        log.blocks Dealing.handed? = log.blocks Dealing.ended? ++ [(task, block)] := by
  rw [inLine.handed]
  cases line : d.lock.line with
  | nil => exact Or.inl (List.append_nil _)
  | cons task rest =>
    rw [queued_cons, inLine.behind line, List.append_nil]
    cases errand : errands task with
    | none => exact Or.inl (List.append_nil _)
    | some found =>
      cases found with
      | writes block => exact Or.inr ⟨task, block, errand, rfl⟩
      | _ => exact Or.inl (List.append_nil _)

/-- If somebody writes, then its block is the last that has been handed over, and all others have
come to an end. -/
theorem handed_of_writes (inLine : InLine errands d log) {block : Bytes}
    (writes : errands task = some (.writes block)) :
    log.blocks Dealing.handed? = log.blocks Dealing.ended? ++ [(task, block)] := by
  obtain ⟨rest, line⟩ : ∃ rest, d.lock.line = task :: rest :=
    List.head?_eq_some_iff.mp (inLine.first task block writes)
  rw [inLine.handed, line, queued_cons, inLine.behind line, writes]
  rfl

/-- Whoever has asked and is no longer in line has handed its block over. -/
theorem handed_of_asked (inLine : InLine errands d log) (gone : errands task = none) {block : Bytes}
    (asked : (task, block) ∈ log.blocks Dealing.asked?) :
    (task, block) ∈ log.blocks Dealing.handed? := by
  rw [inLine.asked] at asked
  rcases List.mem_append.mp asked with handed | waits
  · exact handed
  · have sends := (mem_queued.mp waits).2
    rw [gone] at sends
    cases sends

/-- What somebody has handed over who is no longer in line has come to an end. -/
theorem ended_of_handed (inLine : InLine errands d log) (gone : errands task = none)
    {block : Bytes} (handed : (task, block) ∈ log.blocks Dealing.handed?) :
    (task, block) ∈ log.blocks Dealing.ended? := by
  rw [inLine.handed] at handed
  rcases List.mem_append.mp handed with ended | goesOn
  · exact ended
  · have writes := (mem_queued.mp goesOn).2
    rw [gone] at writes
    cases writes

/-- Whoever has handed a block over has asked. -/
theorem asked_of_handed (inLine : InLine errands d log) {block : Bytes}
    (handed : (task, block) ∈ log.blocks Dealing.handed?) :
    (task, block) ∈ log.blocks Dealing.asked? := by
  rw [inLine.asked]
  exact List.mem_append_left _ handed

/-- What has come to an end has been handed over. -/
theorem handed_of_ended (inLine : InLine errands d log) {block : Bytes}
    (ended : (task, block) ∈ log.blocks Dealing.ended?) :
    (task, block) ∈ log.blocks Dealing.handed? := by
  rw [inLine.handed]
  exact List.mem_append_left _ ended

/-- When all who have asked have left, everything that was asked for has come to an end. -/
theorem settled (inLine : InLine errands d log)
    (gone : ∀ task block, (task, block) ∈ log.blocks Dealing.asked? → errands task = none) :
    log.blocks Dealing.ended? = log.blocks Dealing.asked? := by
  have idle : ∀ is : Errand → Option Bytes,
      (∀ entry ∈ queued is errands d.lock.line, entry ∈ log.blocks Dealing.asked?) →
        queued is errands d.lock.line = [] := by
    intro is asked
    refine List.eq_nil_iff_forall_not_mem.mpr fun entry there => ?_
    have waits := (mem_queued.mp there).2
    rw [gone entry.1 entry.2 (asked entry there)] at waits
    cases waits
  have unsent := idle Errand.sends? fun entry there => by
    rw [inLine.asked]
    exact List.mem_append_right _ there
  have unwritten := idle Errand.writes? fun entry there => by
    rw [inLine.asked, inLine.handed]
    exact List.mem_append_left _ (List.mem_append_right _ there)
  rw [inLine.asked, inLine.handed, unsent, unwritten, List.append_nil, List.append_nil]

/-- Whoever waits to write, or writes, has asked, and the writing half is there. -/
theorem asked_of_sender (inLine : InLine errands d log) {block : Bytes}
    (sender : errands task = some (.sends block) ∨ errands task = some (.writes block)) :
    (task, block) ∈ log.blocks Dealing.asked? ∧ d.writer = true := by
  have stands : task ∈ d.lock.line := by
    rw [inLine.standing.stands]
    rcases sender with same | same <;> rw [same] <;> rfl
  constructor
  · rcases sender with sends | writes
    · rw [inLine.asked]
      exact List.mem_append_right _ (mem_queued.mpr ⟨stands, by rw [sends]; rfl⟩)
    · refine inLine.asked_of_handed ?_
      rw [inLine.handed_of_writes writes]
      exact List.mem_append_right _ (List.mem_singleton_self _)
  · refine inLine.writer task stands ?_
    rcases sender with same | same <;> rw [same] <;> exact fun other => nomatch other

end InLine

section

variable {errands : Work Errand} {d d' : Desk} {log : Ledger} {task : TaskId}
  {done : List Dealing} {errand? : Option Errand}

/-- Nobody who has waited finds the writing half gone. -/
theorem not_denied (inLine : InLine errands d log)
    (move : Move task (errands task) d done errand? d') (block : Bytes) : .denied block ∉ done := by
  intro denied
  generalize before : errands task = errand₀ at move
  cases move with
  | denied granted waited gone =>
    cases gone.symm.trans (inLine.asked_of_sender (Or.inl before)).2
  | _ => simp at denied

/-- Every move keeps the line and the dealings together. Whoever asks has to find the writing half
there, and nobody who is to take it out. -/
theorem inLine_move (inLine : InLine errands d log)
    (move : Move task (errands task) d done errand? d')
    (asking : ∀ block, .asks block ∈ done →
      d.writer = true ∧ ∀ other, errands other ≠ some .handles) :
    InLine (errands.set task errand?) d' (log ++ done.map fun dealing => (task, dealing)) := by
  have undenied := not_denied inLine move
  generalize before : errands task = errand₀ at move
  cases move with
  | rests =>
    rw [Work.set_same before, List.map_nil, List.append_nil]
    exact inLine
  | comes => exact inLine.comes before .handles rfl (fun other => absurd rfl other) rfl rfl rfl
  | asks _ block =>
    have finds := asking block (List.mem_singleton_self _)
    exact inLine.comes before (.sends block) rfl (fun _ => finds) rfl rfl rfl
  | goes granted writer =>
    obtain ⟨rest, first, absent⟩ := inLine.standing.first granted
    exact inLine.goes first absent (Or.inl before) rfl (by rw [before]; rfl) rfl
      (by rw [before]; rfl)
  | again granted writer =>
    -- Whoever stands in line again has left it and come back.
    obtain ⟨rest, first, absent⟩ := inLine.standing.first granted
    have gone : InLine (errands.set task none) ⟨d.lock.release task, writer⟩ (log ++ []) :=
      inLine.goes first absent (Or.inl before) rfl (by rw [before]; rfl) rfl (by rw [before]; rfl)
    rw [List.append_nil] at gone
    have back : InLine ((errands.set task none).set task (some .handles))
        ⟨(d.lock.release task).request task .exclusive, writer⟩ (log ++ []) :=
      gone.comes (Work.set_self errands task none) .handles rfl (fun other => absurd rfl other)
        rfl rfl rfl
    rw [Work.set_set] at back
    exact back
  | denied granted block gone => exact absurd (List.mem_singleton_self _) (undenied block)
  | hands granted block there =>
    obtain ⟨rest, first, absent⟩ := inLine.standing.first granted
    exact inLine.hands first absent before
  | ends _ block outcome =>
    -- Whoever writes is first in line, though nobody looks at the lock again.
    obtain ⟨rest, line⟩ : ∃ rest, d.lock.line = task :: rest :=
      List.head?_eq_some_iff.mp (inLine.first task block before)
    have once := inLine.standing.once
    rw [line] at once
    exact inLine.goes line (List.nodup_cons.mp once).1 (Or.inr rfl) rfl (by rw [before]; rfl) rfl
      (by rw [before]; rfl)

end

end Desk

end HardwareSigner
