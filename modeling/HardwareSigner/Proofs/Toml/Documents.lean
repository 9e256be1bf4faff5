import HardwareSigner.Proofs.Toml.Numbers
import HardwareSigner.Proofs.Toml.Quoting

/-!
# Documents read back as they were written

A written document has a header for every table and a line for every pair, with keys that need no
quotes (`Bare`). `Draft.Reads` says what becomes of a draft when the rest of a document is read;
there is one lemma for each kind of line, and the whole document follows by induction.

> `parse_writeTables`: tables with keys of their own, written as a document, read back in order.
-/

namespace HardwareSigner.Toml

/-! ## Values -/

/-- What reading makes of a value that was written. -/
def Scalar.value : Scalar → Value
  | .text s => .string s
  | .number n => .integer n

/-- A number may not be too large. -/
def Scalar.Fits : Scalar → Prop
  | .text _ => True
  | .number n => n ≤ maxInteger

/-- The entries that reading makes of some pairs. -/
def entriesOf (pairs : List (String × Scalar)) : Entries :=
  pairs.map fun pair => (pair.1, pair.2.value)

/-- The entries that reading makes of some tables. -/
def tablesOf (tables : List (String × List (String × Scalar))) : Entries :=
  tables.map fun table => (table.1, .table .header (entriesOf table.2))

theorem writeText_opens (text : String) :
    ∃ quote more, writeText text = quote :: more ∧ (quote = '"' ∨ quote = tick) := by
  unfold writeText
  dsimp only
  split
  · exact ⟨_, _, rfl, .inl rfl⟩
  · exact ⟨_, _, rfl, .inr rfl⟩
  · exact ⟨_, _, rfl, .inl rfl⟩
  · exact ⟨_, _, rfl, .inr rfl⟩

theorem Scalar.write_opens (value : Scalar) :
    ∃ c more, value.write = c :: more ∧ (c = '"' ∨ c = tick ∨ c.isDigit = true) := by
  cases value with
  | text s =>
    obtain ⟨quote, more, written, is⟩ := writeText_opens s
    exact ⟨quote, more, written, is.elim .inl fun is => .inr (.inl is)⟩
  | number n =>
    have all := isDigit_toDigits n
    show ∃ c more, Nat.toDigits 10 n = c :: more ∧ _
    match digits : Nat.toDigits 10 n with
    | [] => exact absurd digits Nat.toDigits_ne_nil
    | c :: more =>
      rw [digits] at all
      exact ⟨c, more, rfl, .inr (.inr (all c List.mem_cons_self))⟩

theorem scanScalar_write {value : Scalar} (fits : value.Fits) (rest : List Char) :
    scanScalar (value.write ++ '\n' :: rest) = some (value.value, '\n' :: rest) := by
  cases value with
  | text s =>
    have text := scanText_writeText s rest
    obtain ⟨quote, more, written, is⟩ := writeText_opens s
    rw [written, List.cons_append] at text
    rw [Scalar.write, written, List.cons_append, scanScalar, if_pos, text]
    · rfl
    · simpa only [Bool.or_eq_true, decide_eq_true_eq] using is
    · rintro _ rfl
      exact absurd is (by decide)
    · rintro _ rfl
      exact absurd is (by decide)
  | number n => exact scanScalar_toDigits fits rest

theorem scanValue_write {value : Scalar} (fits : value.Fits) (fuel : Nat) (rest : List Char) :
    scanValue (fuel + 1) 0 (value.write ++ '\n' :: rest) = some (value.value, '\n' :: rest) := by
  have scalar := scanScalar_write fits rest
  obtain ⟨c, more, written, is⟩ := value.write_opens
  rw [written, List.cons_append] at scalar ⊢
  rw [scanValue, scalar]
  · rintro _ ⟨⟩
    exact absurd is (by decide)
  · rintro _ ⟨⟩
    exact absurd is (by decide)

/-! ## Keys -/

/-- Whether a key can be written without quotes. -/
def Bare (key : String) : Prop :=
  key.toList.isEmpty = false ∧ key.toList.all isBareChar = true

instance decidableBare (key : String) : Decidable (Bare key) := instDecidableAnd

theorem skipBlanks_cons {c : Char} (visible : isBlank c = false) (cs : List Char) :
    skipBlanks (c :: cs) = c :: cs := by
  rw [skipBlanks, List.dropWhile_cons, if_neg (by rw [visible]; exact Bool.false_ne_true)]

theorem isBareChar_ne {c : Char} (bare : isBareChar c = true) :
    isBlank c = false ∧ c ≠ '[' ∧ c ≠ '#' ∧ c ≠ '\n' ∧ c ≠ '\r' := by
  have visible : isBlank c = false := by
    rw [isBlank, Bool.or_eq_false_iff, beq_eq_false_iff_ne, beq_eq_false_iff_ne]
    refine ⟨?_, ?_⟩ <;> (rintro rfl; exact absurd bare (by decide))
  refine ⟨visible, ?_, ?_, ?_, ?_⟩ <;> (rintro rfl; exact absurd bare (by decide))

theorem Bare.opens {key : String} (bare : Bare key) :
    ∃ c more, key.toList = c :: more ∧ isBareChar c = true := by
  obtain ⟨some, all⟩ := bare
  match chars : key.toList with
  | [] =>
    rw [chars] at some
    exact absurd some (by decide)
  | c :: more =>
    rw [chars, List.all_cons, Bool.and_eq_true] at all
    exact ⟨c, more, rfl, all.1⟩

theorem scanPart_bare {key : String} (bare : Bare key) {c : Char} (stop : isBareChar c = false)
    (rest : List Char) : scanPart (key.toList ++ c :: rest) = some (key, c :: rest) := by
  obtain ⟨first, more, chars, -⟩ := bare.opens
  have all := List.all_eq_true.1 bare.2
  have taken : (key.toList ++ c :: rest).takeWhile isBareChar = key.toList := by
    rw [List.takeWhile_append_of_pos all, List.takeWhile_cons, stop, if_neg Bool.false_ne_true,
      List.append_nil]
  have left : (key.toList ++ c :: rest).dropWhile isBareChar = c :: rest := by
    rw [List.dropWhile_append_of_pos all, List.dropWhile_cons, stop, if_neg Bool.false_ne_true]
  unfold scanPart
  rw [taken]
  split
  case h_1 none => cases chars.symm.trans none
  case h_2 => rw [left, String.ofList_toList]

/-- A key ends at the first character that cannot be in one; no dot follows. -/
theorem scanKey_bare {key : String} (bare : Bare key) {c : Char} {rest : List Char}
    (stop : isBareChar c = false) (single : ∀ more, skipBlanks (c :: rest) ≠ '.' :: more) :
    scanKey (key.toList ++ c :: rest) = some (([], key), skipBlanks (c :: rest)) := by
  have here : skipBlanks (key.toList ++ c :: rest) = key.toList ++ c :: rest := by
    obtain ⟨first, more, chars, visible⟩ := bare.opens
    rw [chars]
    exact skipBlanks_cons (isBareChar_ne visible).1 _
  have parts : scanParts (maxDepth - 1) (c :: rest) = some ([], skipBlanks (c :: rest)) := by
    show scanParts (78 + 1) _ = _
    unfold scanParts
    split
    case h_1 more dot => exact absurd dot (single more)
    case h_2 => rfl
  rw [scanKey, here, scanPart_bare bare stop]
  dsimp only
  rw [parts]
  rfl

/-! ## Entries -/

theorem find?_eq_none {entries : Entries} {key : String} (new : key ∉ entries.map Prod.fst) :
    Entries.find? entries key = none := by
  refine List.lookup_eq_none_iff.2 fun entry inside => ?_
  rw [bne_iff_ne]
  rintro rfl
  exact new (List.mem_map_of_mem inside)

theorem insert?_new {entries : Entries} {key : String} (new : key ∉ entries.map Prod.fst)
    (value : Value) : Entries.insert? entries key value = some (entries ++ [(key, value)]) := by
  rw [Entries.insert?, find?_eq_none new]
  rfl

theorem addPair_new {entries : Entries} {key : String} (new : key ∉ entries.map Prod.fst)
    (value : Value) : addPair .header [] key value entries = some (entries ++ [(key, value)]) := by
  show Option.map _ ((Entries.insert? entries key value).map _) = _
  rw [insert?_new new]
  rfl

/-- Keys that differ from the last one are still new behind it. -/
theorem new_of_append {entries : Entries} {key : String} {keys : List String}
    (new : ∀ other ∈ keys, other ∉ entries.map Prod.fst) (distinct : key ∉ keys) (value : Value) :
    ∀ other ∈ keys, other ∉ (entries ++ [(key, value)]).map Prod.fst := by
  intro other inside
  rw [List.map_append, List.mem_append, not_or]
  refine ⟨new other inside, fun same => ?_⟩
  cases List.mem_singleton.1 same
  exact distinct inside

/-! ## Lines -/

namespace Draft

/-- Reading the rest of a document with this draft gives these entries. -/
def Reads (d : Draft) (cs : List Char) (entries : Entries) : Prop :=
  ∀ fuel, cs.length < fuel → (lines? fuel d cs).bind settle? = some entries

variable {d after : Draft} {cs rest : List Char} {entries : Entries}

theorem Reads.nil (settled : d.settle? = some entries) : d.Reads [] entries := by
  intro fuel enough
  match fuel, enough with
  | fuel + 1, _ => exact settled

/-- One line is read. -/
theorem Reads.line {c : Char} (visible : isBlank c = false)
    (line : d.line? (c :: cs) = some (after, rest)) (less : rest.length ≤ cs.length)
    (onward : after.Reads rest entries) : d.Reads (c :: cs) entries := by
  intro fuel enough
  match fuel, enough with
  | fuel + 1, enough =>
    rw [lines?, skipBlanks_cons visible]
    dsimp only
    rw [line]
    rw [List.length_cons] at enough
    exact onward fuel (by omega)

theorem Reads.blank (onward : d.Reads rest entries) : d.Reads ('\n' :: rest) entries :=
  .line (by decide) rfl (Nat.le_refl _) onward

theorem finishLine_visible {c : Char} (visible : isBlank c = false)
    (other : c ≠ '#' ∧ c ≠ '\n' ∧ c ≠ '\r') : finishLine? (c :: cs) = none := by
  have comment : skipComment (c :: cs) = c :: cs := by
    rw [skipComment]
    rintro _ ⟨⟩
    exact other.1 rfl
  rw [finishLine?, skipBlanks_cons visible, comment]
  dsimp only
  rw [lineEnd?]
  · rintro _ ⟨⟩
    exact other.2.1 rfl
  · rintro _ ⟨⟩
    exact other.2.2 rfl

/-- The value behind a key, up to the end of the line. -/
theorem pair_write {key : String} {value : Scalar} (bare : Bare key) (fits : value.Fits)
    (new : key ∉ d.current.map Prod.fst) (rest : List Char) :
    d.pair? (key.toList ++ ' ' :: '=' :: ' ' :: (value.write ++ '\n' :: rest)) =
      some ({ d with current := d.current ++ [(key, value.value)] }, rest) := by
  have named : scanKey (key.toList ++ ' ' :: '=' :: ' ' :: (value.write ++ '\n' :: rest)) =
      some (([], key), '=' :: ' ' :: (value.write ++ '\n' :: rest)) :=
    scanKey_bare bare (by decide) fun _ => nofun
  have apart : skipBlanks (' ' :: (value.write ++ '\n' :: rest)) =
      value.write ++ '\n' :: rest := by
    obtain ⟨c, more, written, is⟩ := value.write_opens
    have visible : isBlank c = false := by
      rw [isBlank, Bool.or_eq_false_iff, beq_eq_false_iff_ne, beq_eq_false_iff_ne]
      refine ⟨?_, ?_⟩ <;> (rintro rfl; exact absurd is (by decide))
    rw [written]
    exact skipBlanks_cons visible _
  unfold pair?
  rw [named]
  show ((scanValue _ 0 (skipBlanks (' ' :: (value.write ++ '\n' :: rest)))).bind _) = _
  rw [apart, scanValue_write fits]
  show ((addPair .header [] key value.value d.current).bind _) = _
  rw [addPair_new new]
  rfl

/-- A pair goes into the table under construction. -/
theorem Reads.pair {key : String} {value : Scalar} (bare : Bare key) (fits : value.Fits)
    (new : key ∉ d.current.map Prod.fst)
    (onward : Reads { d with current := d.current ++ [(key, value.value)] } rest entries) :
    d.Reads (writePair (key, value) ++ rest) entries := by
  have spelled : writePair (key, value) ++ rest =
      key.toList ++ ' ' :: '=' :: ' ' :: (value.write ++ '\n' :: rest) := by
    simp only [writePair, List.append_assoc, List.cons_append, List.nil_append]
  have read := pair_write bare fits new rest
  obtain ⟨c, more, chars, is⟩ := bare.opens
  have ⟨visible, noBracket, other⟩ := isBareChar_ne is
  rw [spelled]
  rw [chars, List.cons_append] at read ⊢
  refine .line visible ?_ ?_ onward
  · rw [line?, finishLine_visible visible other]
    · exact read
    · exact fun _ same => noBracket (List.cons.inj same).1
    · exact fun _ same => noBracket (List.cons.inj same).1
  · simp only [List.length_append, List.length_cons]
    omega

/-- A header finishes the table under construction and starts one. -/
theorem Reads.header {name : String} {finished : Entries} (bare : Bare name)
    (settled : d.settle? = some finished) (new : name ∉ finished.map Prod.fst)
    (onward : Reads ⟨finished, .table [] name, []⟩ rest entries) :
    d.Reads ('[' :: (name.toList ++ ']' :: '\n' :: rest)) entries := by
  have named : scanKey (name.toList ++ ']' :: '\n' :: rest) =
      some (([], name), ']' :: '\n' :: rest) := scanKey_bare bare (by decide) fun _ => nofun
  have opened : openTable? [] name finished = some ⟨finished, .table [] name, []⟩ := by
    simp only [openTable?, descend, find?_eq_none new, Option.map_some]
  have read : d.header? false (name.toList ++ ']' :: '\n' :: rest) =
      some (⟨finished, .table [] name, []⟩, rest) := by
    unfold header?
    rw [named]
    show (d.settle?.bind _) = _
    rw [settled]
    show (openTable? [] name finished).bind _ = _
    rw [opened]
    rfl
  refine .line (by decide) ?_ ?_ onward
  · obtain ⟨c, more, chars, is⟩ := bare.opens
    rw [chars, List.cons_append] at read ⊢
    rw [line?, read]
    rintro _ ⟨⟩
    exact (isBareChar_ne is).2.1 rfl
  · simp only [List.length_append, List.length_cons]
    omega

end Draft

/-! ## Documents -/

/-- Pairs that can be written as one table. -/
structure Writable (pairs : List (String × Scalar)) : Prop where
  bare : ∀ key ∈ pairs.map Prod.fst, Bare key
  distinct : (pairs.map Prod.fst).Nodup
  fits : ∀ pair ∈ pairs, pair.2.Fits

namespace Draft

variable {d : Draft} {rest : List Char} {entries : Entries}

theorem Reads.pairs {pairs : List (String × Scalar)} (writable : Writable pairs)
    (new : ∀ key ∈ pairs.map Prod.fst, key ∉ d.current.map Prod.fst)
    (onward : Reads { d with current := d.current ++ entriesOf pairs } rest entries) :
    d.Reads (pairs.flatMap writePair ++ rest) entries := by
  induction pairs generalizing d with
  | nil =>
    rw [entriesOf, List.map_nil, List.append_nil] at onward
    exact onward
  | cons pair pairs ih =>
    obtain ⟨bare, distinct, fits⟩ := writable
    rw [List.forall_mem_cons] at fits
    rw [List.map_cons, List.nodup_cons] at distinct
    rw [List.map_cons, List.forall_mem_cons] at new bare
    rw [List.flatMap_cons, List.append_assoc]
    have others := new_of_append new.2 distinct.1 pair.2.value
    refine .pair bare.1 fits.1 new.1 (ih ⟨bare.2, distinct.2, fits.2⟩ others ?_)
    rw [entriesOf, List.map_cons] at onward
    rw [List.append_assoc]
    exact onward

theorem Reads.table {name : String} {pairs : List (String × Scalar)} {finished : Entries}
    (bare : Bare name) (writable : Writable pairs) (settled : d.settle? = some finished)
    (new : name ∉ finished.map Prod.fst)
    (onward : Reads ⟨finished, .table [] name, entriesOf pairs⟩ rest entries) :
    d.Reads (writeTable name pairs ++ rest) entries := by
  have spelled : writeTable name pairs ++ rest =
      '[' :: (name.toList ++ ']' :: '\n' :: (pairs.flatMap writePair ++ rest)) := by
    simp only [writeTable, List.append_assoc, List.cons_append, List.nil_append]
  rw [spelled]
  exact .header bare settled new (.pairs writable (fun _ _ => List.not_mem_nil) onward)

theorem settle_table {finished : Entries} {name : String}
    (new : name ∉ finished.map Prod.fst) (current : Entries) :
    settle? ⟨finished, .table [] name, current⟩ =
      some (finished ++ [(name, .table .header current)]) := by
  show Option.map _ ((Entries.insert? finished name _).map _) = _
  rw [insert?_new new]
  rfl

/-- Each table is settled by the header of the next, and the last by the end. -/
theorem Reads.tables {tables : List (String × List (String × Scalar))} {finished : Entries}
    (bare : ∀ name ∈ tables.map Prod.fst, Bare name) (distinct : (tables.map Prod.fst).Nodup)
    (writable : ∀ table ∈ tables, Writable table.2) (settled : d.settle? = some finished)
    (new : ∀ name ∈ tables.map Prod.fst, name ∉ finished.map Prod.fst) :
    d.Reads (writeTables tables) (finished ++ tablesOf tables) := by
  induction tables generalizing d finished with
  | nil => exact .nil (by rw [settled, tablesOf, List.map_nil, List.append_nil])
  | cons table tables ih =>
    obtain ⟨name, pairs⟩ := table
    rw [List.forall_mem_cons] at writable
    rw [List.map_cons, List.nodup_cons] at distinct
    rw [List.map_cons, List.forall_mem_cons] at new bare
    have settledNext := settle_table new.1 (entriesOf pairs)
    have others := ih bare.2 distinct.2 writable.2 settledNext
      (new_of_append new.2 distinct.1 (.table .header (entriesOf pairs)))
    rw [List.append_assoc] at others
    match tables with
    | [] =>
      rw [writeTables, ← List.append_nil (writeTable name pairs)]
      exact .table bare.1 writable.1 settled new.1 (.nil settledNext)
    | second :: tables =>
      rw [writeTables]
      · exact .table bare.1 writable.1 settled new.1 (.blank others)
      · exact nofun

end Draft

theorem writeTables_opens (tables : List (String × List (String × Scalar))) :
    writeTables tables = [] ∨ ∃ more, writeTables tables = '[' :: more := by
  match tables with
  | [] => exact .inl rfl
  | [_] | _ :: _ :: _ => exact .inr ⟨_, rfl⟩

/-- Tables with names and keys of their own read back in order. -/
theorem parse_writeTables {tables : List (String × List (String × Scalar))}
    (bare : ∀ name ∈ tables.map Prod.fst, Bare name) (distinct : (tables.map Prod.fst).Nodup)
    (writable : ∀ table ∈ tables, Writable table.2) :
    parse? (String.ofList (writeTables tables)) = some (tablesOf tables) := by
  have read : Draft.Reads ⟨[], .root, []⟩ (writeTables tables) ([] ++ tablesOf tables) :=
    .tables bare distinct writable rfl fun _ _ => List.not_mem_nil
  unfold parse?
  rw [String.toList_ofList]
  obtain opens | ⟨more, opens⟩ := writeTables_opens tables
  all_goals
    rw [opens] at read ⊢
    exact read _ (Nat.lt_succ_self _)

end HardwareSigner.Toml
