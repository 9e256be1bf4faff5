import HardwareSigner.Proofs.Engine.Dealings

/-!
# Blocks go out one at a time

Writing a block may take a while, and what a block is cut into may go out bit by bit in the course
of it. A `Stroke` is one such bit: a report that goes out at some time while somebody is writing.
This file says nothing about how many there are, or when they go out.

> `Engine.unmixed`: in whatever strokes blocks go out, those of one block go out before those of the
> next, in the order in which the blocks are handed over.
-/

namespace HardwareSigner

/-! ## Lists in groups -/

section

variable {α β : Type}

/-- If whatever `p` says of an element is so of all in front of it, then these come first. -/
theorem eq_filter_append_filter {p : β → Bool} {items : List β}
    (sorted : items.Pairwise fun before behind => p behind = true → p before = true) :
    items = items.filter p ++ items.filter fun item => !p item := by
  induction items with
  | nil => rfl
  | cons item items ih =>
    rw [List.pairwise_cons] at sorted
    cases first : p item with
    | true =>
      rw [List.filter_cons_of_pos first, List.filter_cons_of_neg (by rw [first]; decide),
        List.cons_append, ← ih sorted.2]
    | false =>
      have none : (item :: items).filter p = [] := by
        rw [List.filter_cons_of_neg (by rw [first]; decide), List.filter_eq_nil_iff]
        intro other there holds
        cases first.symm.trans (sorted.1 other there holds)
      have all : (item :: items).filter (fun item => !p item) = item :: items := by
        rw [List.filter_eq_self]
        intro other there
        rcases List.mem_cons.mp there with rfl | behind
        · rw [first]
          rfl
        · cases holds : p other with
          | false => rfl
          | true => cases first.symm.trans (sorted.1 other behind holds)
      rw [none, all, List.nil_append]

/-- The first key of all is found at the first place only. -/
theorem eq_first_iff {order : List α} {first found : α} (absent : first ∉ order) {place : Nat}
    (there : (first :: order)[place]? = some found) : found = first ↔ place = 0 := by
  cases place with
  | zero =>
    rw [List.getElem?_cons_zero] at there
    exact iff_of_true (Option.some.inj there).symm rfl
  | succ place =>
    rw [List.getElem?_cons_succ] at there
    refine iff_of_false (fun same => ?_) (Nat.succ_ne_zero place)
    rw [same] at there
    exact absent (List.mem_of_getElem? there)

variable [DecidableEq α]

/-- Items with one key are not those with another. -/
theorem filter_filter_of_ne {first found : α} (different : found ≠ first) (key : β → α)
    (items : List β) :
    (items.filter fun item => !decide (key item = first)).filter (fun item => key item = found) =
      items.filter fun item => key item = found := by
  rw [List.filter_filter]
  refine List.filter_congr fun item _ => ?_
  by_cases same : key item = found
  · simp [same, different]
  · simp [same]

/-- Items that are sorted by the place of their key in `order` stand in groups, one for each key. -/
theorem eq_flatMap_filter {order : List α} (once : order.Nodup) {items : List β} {key : β → α}
    {rank : β → Nat} (placed : ∀ item ∈ items, order[rank item]? = some (key item))
    (sorted : items.Pairwise fun before behind => rank before ≤ rank behind) :
    items = order.flatMap fun found => items.filter fun item => key item = found := by
  induction order generalizing items rank with
  | nil =>
    cases items with
    | nil => rfl
    | cons item items => cases placed item (List.mem_cons_self ..)
  | cons first order ih =>
    obtain ⟨absent, once⟩ := List.nodup_cons.mp once
    have early : ∀ item ∈ items, key item = first ↔ rank item = 0 :=
      fun item there => eq_first_iff absent (placed item there)
    have split : items = (items.filter fun item => key item = first) ++
        items.filter fun item => !decide (key item = first) := by
      refine eq_filter_append_filter
        (sorted.imp_of_mem fun {before behind} there also le mine => ?_)
      have zero := (early behind also).mp (of_decide_eq_true mine)
      exact decide_eq_true ((early before there).mpr (by omega))
    -- All that is left has its place behind the first key, so the places can be counted from there.
    have others : (items.filter fun item => !decide (key item = first)) =
        order.flatMap fun found => (items.filter fun item => !decide (key item = first)).filter
          fun item => key item = found := by
      refine @ih once _ (fun item => rank item - 1) (fun item there => ?_)
        ((sorted.sublist List.filter_sublist).imp fun le => Nat.sub_le_sub_right le 1)
      obtain ⟨among, other⟩ := List.mem_filter.mp there
      have place := placed item among
      cases counted : rank item with
      | zero =>
        rw [decide_eq_true ((early item among).mpr counted)] at other
        cases other
      | succ earlier =>
        rw [counted, List.getElem?_cons_succ] at place
        exact place
    rw [List.flatMap_cons]
    refine split.trans (congrArg _ (others.trans (List.flatMap_congr fun found there => ?_)))
    refine filter_filter_of_ne (fun same => ?_) key items
    rw [same] at there
    exact absent there

end

namespace Engine

variable {M : Type}

/-- A report that goes out. -/
structure Stroke where
  /-- How many actions have been taken. -/
  time : Nat
  /-- Whoever is writing. -/
  writer : TaskId
  report : Bytes

/-- Reports that go out in the course of a run, in the order in which they go out. -/
structure Spread (start : Site M) (deeds : List (Deed M)) (strokes : List Stroke) : Prop where
  sorted : strokes.Pairwise fun before behind => before.time ≤ behind.time
  writing : ∀ stroke ∈ strokes, ∃ block,
    errands (stages (start.applyAll machine (deeds.take stroke.time))) stroke.writer =
      some (.writes block)

/-- How many blocks have come to an end by some time. -/
def endedBy (start : Site M) (deeds : List (Deed M)) (time : Nat) : Nat :=
  ((ledger start (deeds.take time)).blocks Dealing.ended?).length

section

variable {codec : RequestCodec M} {settings : EngineSettings} {link : ScriptedLink}
  {start : Site M} {deeds : List (Deed M)} {task : TaskId} {block : Bytes}

theorem endedBy_le {time later : Nat} (le : time ≤ later) :
    endedBy start deeds time ≤ endedBy start deeds later := by
  obtain ⟨more, split⟩ : deeds.take time <+: deeds.take later := List.take_prefix_take_left le
  unfold endedBy
  rw [← split, ledger_append, Ledger.blocks_append, List.length_append]
  exact Nat.le_add_right _ _

/-- Whoever is writing has handed over the block behind those that have come to an end. -/
theorem handed_at (fresh : start = World.ofState (create codec settings link))
    (obeys : start.Obeys machine Patient deeds) {time : Nat}
    (writes : errands (stages (start.applyAll machine (deeds.take time))) task =
      some (.writes block)) :
    ((ledger start deeds).blocks Dealing.handed?)[endedBy start deeds time]? =
      some (task, block) := by
  -- At that time it was the last to have handed anything over, and what comes later comes behind.
  have split : ledger start deeds = ledger start (deeds.take time) ++
      ledger (start.applyAll machine (deeds.take time)) (deeds.drop time) := by
    rw [← ledger_append, List.take_append_drop]
  have earlier : start.Obeys machine Patient (deeds.take time) := by
    rw [← List.take_append_drop time deeds] at obeys
    exact (World.obeys_append.mp obeys).1
  have handed := (inLine_run fresh earlier).handed_of_writes writes
  rw [split, Ledger.blocks_append, handed, List.append_assoc, endedBy,
    List.getElem?_append_right (Nat.le_refl _), Nat.sub_self]
  rfl

/-- The reports of one block go out before those of the next. -/
theorem unmixed (fresh : start = World.ofState (create codec settings link))
    (obeys : start.Obeys machine Patient deeds) {strokes : List Stroke}
    (spread : Spread start deeds strokes) :
    strokes = ((ledger start deeds).blocks Dealing.handed?).flatMap fun entry =>
      strokes.filter fun stroke => stroke.writer = entry.1 := by
  -- The place of a stroke is that of its block among all that are handed over.
  have placed : ∀ stroke ∈ strokes,
      (((ledger start deeds).blocks Dealing.handed?).map
        Prod.fst)[endedBy start deeds stroke.time]? = some stroke.writer := by
    intro stroke there
    obtain ⟨block, writes⟩ := spread.writing stroke there
    rw [List.getElem?_map, handed_at fresh obeys writes]
    rfl
  have grouped := eq_flatMap_filter (handed_once fresh obeys) placed (spread.sorted.imp endedBy_le)
  rw [List.flatMap_map] at grouped
  exact grouped

/-- So if the reports of every block go out, they go out block by block. -/
theorem reports_of_spread (fresh : start = World.ofState (create codec settings link))
    (obeys : start.Obeys machine Patient deeds) {strokes : List Stroke}
    (spread : Spread start deeds strokes)
    (whole : ∀ entry ∈ (ledger start deeds).blocks Dealing.handed?,
      (strokes.filter fun stroke => stroke.writer = entry.1).map Stroke.report =
        Report.chunk entry.2) :
    strokes.map Stroke.report =
      ((ledger start deeds).blocks Dealing.handed?).flatMap fun entry => Report.chunk entry.2 := by
  have grouped := congrArg (List.map Stroke.report) (unmixed fresh obeys spread)
  rw [List.map_flatMap] at grouped
  exact grouped.trans (List.flatMap_congr whole)

end

end Engine

end HardwareSigner
