import HardwareSigner.Toml.Writer

/-!
# Quoted texts read back as they were written

A text is written between double or single quotes, one or three of them. Between double quotes a
character may stand for itself, or a code stands for it behind a backslash (`Escapes`); which of
the two it is says `Writes`, one character at a time. Between single quotes every character stands
for itself. Where three quotes close a text, the reader looks at up to five quotes in a row, so what
is written before them must not have three in a row itself.

> `scanText_writeText`: a text that is written at the end of a line reads back, in whichever form
> it was written.
-/

namespace HardwareSigner.Toml

/-! ## Codes behind a backslash -/

/-- What reading makes of a code behind a backslash. -/
structure Escapes (c : Char) (code : List Char) : Prop where
  read : ∀ rest, scanEscape (code ++ rest) = some (c, rest)
  /-- It does not join two lines. -/
  stays : ∀ rest, joinLines? (code ++ rest) = none

theorem Escapes.digits {c : Char} {digits : List Char} (four : digits.length = 4)
    (means : charOf? digits = some c) : Escapes c ('u' :: digits) where
  read rest := by
    match digits, four with
    | [a, b, c, d], _ =>
      show (charOf? [a, b, c, d]).map (·, rest) = _
      rw [means]
      rfl
  stays _ := rfl

theorem charOf_padded : ∀ n : Fin 128,
    ((Hex.padded 4 n).toList.map Char.toUpper).length = 4 ∧
      charOf? ((Hex.padded 4 n).toList.map Char.toUpper) = some (Char.ofNat n) := by
  decide +kernel

theorem eq_ofNat_of_toNat_eq {c : Char} {n : Nat} (same : c.toNat = n) : c = Char.ofNat n := by
  rw [← same, Char.ofNat_toNat]

theorem escapeOf_escapes {c : Char} (small : c.toNat < 128) :
    ∃ code, escapeOf c = '\\' :: code ∧ Escapes c code := by
  unfold escapeOf
  -- Seven characters have a letter of their own, the others four digits.
  split
  case isTrue h =>
    cases eq_ofNat_of_toNat_eq h
    exact ⟨_, rfl, fun _ => rfl, fun _ => rfl⟩
  split
  case isTrue h => cases h; exact ⟨_, rfl, fun _ => rfl, fun _ => rfl⟩
  split
  case isTrue h => cases h; exact ⟨_, rfl, fun _ => rfl, fun _ => rfl⟩
  split
  case isTrue h =>
    cases eq_ofNat_of_toNat_eq h
    exact ⟨_, rfl, fun _ => rfl, fun _ => rfl⟩
  split
  case isTrue h => cases h; exact ⟨_, rfl, fun _ => rfl, fun _ => rfl⟩
  split
  case isTrue h => cases h; exact ⟨_, rfl, fun _ => rfl, fun _ => rfl⟩
  split
  case isTrue h => cases h; exact ⟨_, rfl, fun _ => rfl, fun _ => rfl⟩
  have ⟨four, means⟩ := charOf_padded ⟨c.toNat, small⟩
  rw [Char.ofNat_toNat] at means
  exact ⟨_, rfl, .digits four means⟩

/-! ## One character between double quotes -/

/-- How a character is written between double quotes behind `quotes` quotes: what stands for it, and
how many quotes in a row there are then. -/
inductive Writes (lines : Bool) (quotes : Nat) : Char → List Char → Nat → Prop
  | quote (long : lines = true) (few : quotes < 2) : Writes lines quotes '"' ['"'] (quotes + 1)
  | lineBreak (long : lines = true) : Writes lines quotes '\n' ['\n'] 0
  | escape {c : Char} {code : List Char} (means : Escapes c code) :
    Writes lines quotes c ('\\' :: code) 0
  | plain {c : Char} (is : isBasicChar c = true) : Writes lines quotes c [c] 0

theorem toNat_lt_of_coded {c : Char}
    (coded : needsEscape c = true ∨ c = '\t' ∨ c = '\n' ∨ c = '\\') : c.toNat < 128 := by
  rcases coded with control | rfl | rfl | rfl
  · simp only [needsEscape, Bool.or_eq_true, Bool.and_eq_true, decide_eq_true_eq,
      beq_iff_eq] at control
    omega
  all_goals decide

theorem isBasicChar_of_uncoded {c : Char} (noQuote : c ≠ '"')
    (uncoded : ¬(needsEscape c = true ∨ c = '\t' ∨ c = '\n' ∨ c = '\\')) :
    isBasicChar c = true := by
  simp only [needsEscape, not_or, Bool.or_eq_true, Bool.and_eq_true, decide_eq_true_eq,
    bne_iff_ne, beq_iff_eq] at uncoded
  obtain ⟨⟨low, high⟩, noTab, noBreak, noSlash⟩ := uncoded
  have visible : 0x20 ≤ c.toNat :=
    Nat.le_of_not_lt fun control => low ⟨⟨control, noTab⟩, noBreak⟩
  simp only [isBasicChar, Bool.or_eq_true, Bool.and_eq_true, decide_eq_true_eq, bne_iff_ne]
  exact .inr ⟨⟨⟨visible, noQuote⟩, noSlash⟩, high⟩

theorem writeBasic_cons (lines : Bool) (quotes : Nat) (c : Char) (cs : List Char) :
    ∃ out next, Writes lines quotes c out next ∧
      writeBasic lines quotes (c :: cs) = out ++ writeBasic lines next cs := by
  have coded (small : c.toNat < 128) : ∃ out next, Writes lines quotes c out next ∧
      escapeOf c ++ writeBasic lines 0 cs = out ++ writeBasic lines next cs := by
    obtain ⟨code, spelled, means⟩ := escapeOf_escapes small
    exact ⟨_, _, .escape means, by rw [spelled]⟩
  rw [writeBasic]
  split
  case isTrue quote =>
    cases quote
    split
    case isTrue h =>
      have ⟨long, few⟩ := Bool.and_eq_true_iff.1 h
      exact ⟨_, _, .quote long (of_decide_eq_true few), rfl⟩
    case isFalse => exact coded (by decide)
  case isFalse noQuote =>
    split
    case isTrue h =>
      obtain ⟨is, long⟩ := Bool.and_eq_true_iff.1 h
      cases of_decide_eq_true is
      exact ⟨_, _, .lineBreak long, rfl⟩
    case isFalse =>
      simp only [Bool.or_eq_true, decide_eq_true_eq, or_assoc]
      split
      case isTrue special => exact coded (toNat_lt_of_coded special)
      case isFalse h => exact ⟨_, _, .plain (isBasicChar_of_uncoded noQuote h), rfl⟩

theorem isBasicChar_ne {c : Char} (is : isBasicChar c = true) :
    c ≠ '"' ∧ c ≠ '\\' ∧ c ≠ '\n' ∧ c ≠ '\r' := by
  refine ⟨?_, ?_, ?_, ?_⟩ <;> (rintro rfl; exact Bool.false_ne_true is)

/-! ## Double quotes on one line -/

theorem basicBody_escape {c : Char} {code : List Char} (means : Escapes c code)
    (rest : List Char) :
    basicBody ('\\' :: (code ++ rest)) =
      (basicBody rest).map fun (text, rest) => (c :: text, rest) := by
  rw [basicBody, means.read]

theorem basicBody_plain {c : Char} (is : isBasicChar c = true) (rest : List Char) :
    basicBody (c :: rest) = (basicBody rest).map fun (text, rest) => (c :: text, rest) := by
  have ⟨noQuote, noSlash, _⟩ := isBasicChar_ne is
  rw [basicBody, if_pos is]
  · exact noQuote
  · exact noSlash

theorem basicBody_writeBasic (quotes : Nat) (cs rest : List Char) :
    basicBody (writeBasic false quotes cs ++ '"' :: rest) = some (cs, rest) := by
  induction cs generalizing quotes with
  | nil => rw [writeBasic, List.nil_append, basicBody]
  | cons c cs ih =>
    obtain ⟨out, next, writes, written⟩ := writeBasic_cons false quotes c cs
    rw [written, List.append_assoc]
    cases writes with
    | quote long | lineBreak long => cases long
    | escape means => rw [List.cons_append, basicBody_escape means, ih]; rfl
    | plain is => rw [List.singleton_append, basicBody_plain is, ih]; rfl

/-! ## Triple double quotes -/

theorem basicLines_escape {c : Char} {code : List Char} (means : Escapes c code)
    (rest : List Char) :
    basicLines ('\\' :: (code ++ rest)) =
      (basicLines rest).map fun (text, rest) => (c :: text, rest) := by
  rw [basicLines, means.read, means.stays]

theorem basicLines_other {c : Char} (is : (c == '\n' || isBasicChar c) = true) (rest : List Char) :
    basicLines (c :: rest) = (basicLines rest).map fun (text, rest) => (c :: text, rest) := by
  have ⟨noQuote, noSlash, noReturn⟩ : c ≠ '"' ∧ c ≠ '\\' ∧ c ≠ '\r' := by
    refine ⟨?_, ?_, ?_⟩ <;> (rintro rfl; exact Bool.false_ne_true is)
  rw [basicLines, if_pos is]
  · exact fun _ quote => (noQuote quote).elim
  · exact fun _ quote => (noQuote quote).elim
  · exact fun _ quote => (noQuote quote).elim
  · exact noQuote
  · exact noSlash
  · exact fun _ carriage => (noReturn carriage).elim

/-- A quote that is not the first of three stands for itself. -/
theorem basicLines_quote {rest : List Char} (lone : ∀ more, rest ≠ '"' :: '"' :: more) :
    basicLines ('"' :: rest) = (basicLines rest).map fun (text, rest) => ('"' :: text, rest) := by
  rw [basicLines]
  · exact fun _ => lone _
  · exact fun _ => lone _
  · exact lone

/-- What is written opens with a quote only where one stands for itself. -/
theorem writeBasic_quote {lines : Bool} {quotes : Nat} {cs tail more : List Char} (some : cs ≠ [])
    (opens : writeBasic lines quotes cs ++ tail = '"' :: more) :
    lines = true ∧ quotes < 2 ∧
      ∃ others, cs = '"' :: others ∧ more = writeBasic lines (quotes + 1) others ++ tail := by
  match cs with
  | c :: cs =>
    obtain ⟨out, next, writes, written⟩ := writeBasic_cons lines quotes c cs
    rw [written, List.append_assoc] at opens
    cases writes with
    | quote long few =>
      exact ⟨long, few, cs, rfl, (List.cons.inj opens).2.symm⟩
    | lineBreak | escape => cases opens
    | plain is => exact absurd (List.cons.inj opens).1 (isBasicChar_ne is).1

/-- Behind a quote that stands for itself, two more in a row are written only at the end. -/
theorem writeBasic_lone (quotes : Nat) (cs tail : List Char) :
    cs = [] ∨ quotes = 0 ∧ cs = ['"'] ∨
      ∀ more, writeBasic true (quotes + 1) cs ++ tail ≠ '"' :: '"' :: more := by
  by_cases none : cs = []
  · exact .inl none
  by_cases single : quotes = 0 ∧ cs = ['"']
  · exact .inr (.inl single)
  refine .inr (.inr fun more opens => ?_)
  obtain ⟨-, few, others, rfl, second⟩ := writeBasic_quote none opens
  by_cases last : others = []
  · exact single ⟨by omega, by rw [last]⟩
  · have ⟨_, fewer, _⟩ := writeBasic_quote last second.symm
    omega

/-- The quotes that close a text in three quotes, and the end of the line. -/
abbrev closing (quote : Char) (rest : List Char) : List Char :=
  quote :: quote :: quote :: '\n' :: rest

theorem basicLines_writeBasic (quotes : Nat) (cs rest : List Char) :
    basicLines (writeBasic true quotes cs ++ closing '"' rest) = some (cs, '\n' :: rest) := by
  -- The reader forgets the quotes it has passed, so it starts anew behind every character.
  induction cs generalizing quotes with
  | nil =>
    rw [writeBasic, List.nil_append, basicLines]
    all_goals
      intro more same
      cases same
  | cons c cs ih =>
    obtain ⟨out, next, writes, written⟩ := writeBasic_cons true quotes c cs
    rw [written, List.append_assoc]
    cases writes with
    | quote =>
      rw [List.singleton_append]
      -- One or two quotes before the closing ones are taken together with them.
      obtain rfl | ⟨rfl, rfl⟩ | lone := writeBasic_lone quotes cs (closing '"' rest)
      · rw [writeBasic, List.nil_append, basicLines]
        intro more same
        cases same
      · show basicLines ('"' :: '"' :: closing '"' rest) = _
        rw [basicLines]
      · rw [basicLines_quote lone, ih]
        rfl
    | lineBreak => rw [List.singleton_append, basicLines_other rfl, ih]; rfl
    | escape means => rw [List.cons_append, basicLines_escape means, ih]; rfl
    | plain is =>
      rw [List.singleton_append, basicLines_other (by rw [is, Bool.or_true]), ih]
      rfl

/-! ## Runs of a character -/

/-- How one more character changes the longest run so far and the present one. -/
def runStep (c : Char) : Nat × Nat → Char → Nat × Nat := fun (best, run) d =>
  if d = c then (max best (run + 1), run + 1) else (best, 0)

theorem longestRun_eq (c : Char) (cs : List Char) :
    longestRun c cs = (cs.foldl (runStep c) (0, 0)).1 := rfl

theorem foldl_runStep_mono (c : Char) (cs : List Char) {best run best' run' : Nat}
    (bests : best ≤ best') (runs : run ≤ run') :
    (cs.foldl (runStep c) (best, run)).1 ≤ (cs.foldl (runStep c) (best', run')).1 := by
  induction cs generalizing best run best' run' with
  | nil => exact bests
  | cons d cs ih =>
    rw [List.foldl_cons, List.foldl_cons, runStep, runStep]
    split
    · exact ih (by omega) (by omega)
    · exact ih bests (Nat.le_refl _)

theorem le_foldl_runStep (c : Char) (cs : List Char) (best run : Nat) :
    best ≤ (cs.foldl (runStep c) (best, run)).1 := by
  induction cs generalizing best run with
  | nil => exact Nat.le_refl _
  | cons d cs ih =>
    rw [List.foldl_cons, runStep]
    split
    · exact Nat.le_trans (Nat.le_max_left _ _) (ih _ _)
    · exact ih _ _

theorem longestRun_le_cons (c d : Char) (cs : List Char) :
    longestRun c cs ≤ longestRun c (d :: cs) := by
  rw [longestRun_eq, longestRun_eq, List.foldl_cons]
  exact foldl_runStep_mono c cs (Nat.zero_le _) (Nat.zero_le _)

theorem one_le_longestRun {c : Char} {cs : List Char} (inside : c ∈ cs) : 1 ≤ longestRun c cs := by
  induction cs with
  | nil => cases inside
  | cons d cs ih =>
    rcases List.mem_cons.1 inside with rfl | inside
    · rw [longestRun_eq, List.foldl_cons, runStep, if_pos rfl]
      exact le_foldl_runStep c cs 1 1
    · exact Nat.le_trans (ih inside) (longestRun_le_cons c d cs)

theorem three_le_longestRun (c : Char) (cs : List Char) :
    3 ≤ longestRun c (c :: c :: c :: cs) := by
  rw [longestRun_eq, List.foldl_cons, List.foldl_cons, List.foldl_cons, runStep, if_pos rfl,
    runStep, if_pos rfl, runStep, if_pos rfl]
  exact le_foldl_runStep c cs 3 3

/-! ## Single quotes -/

theorem literalBody_append {cs : List Char} (plain : ∀ c ∈ cs, isLiteralChar c = true)
    (rest : List Char) : literalBody (cs ++ tick :: rest) = some (cs, rest) := by
  induction cs with
  | nil => rw [List.nil_append, literalBody, if_pos rfl]
  | cons c cs ih =>
    rw [List.forall_mem_cons] at plain
    have noTick : c ≠ tick := by
      rintro rfl
      exact Bool.false_ne_true plain.1
    rw [List.cons_append, literalBody, if_neg noTick, if_pos plain.1, ih plain.2]
    rfl

/-- A text without three quotes in a row opens with three only if there is nothing else in it. -/
theorem ticks_lt_three {cs : List Char} (few : longestRun tick cs ≤ 2) :
    (∃ n ≤ 2, cs = List.replicate n tick) ∨ ∀ tail, ticks (cs ++ tail) < 3 := by
  match cs with
  | [] => exact .inl ⟨0, by decide, rfl⟩
  | c :: cs =>
    by_cases first : c = tick
    case neg => exact .inr fun _ => by simp [ticks, first]
    subst first
    match cs with
    | [] => exact .inl ⟨1, by decide, rfl⟩
    | d :: cs =>
      by_cases second : d = tick
      case neg => exact .inr fun _ => by simp [ticks, second]
      subst second
      match cs with
      | [] => exact .inl ⟨2, by decide, rfl⟩
      | e :: cs =>
        by_cases third : e = tick
        case neg => exact .inr fun _ => by simp [ticks, third]
        subst third
        exact absurd (three_le_longestRun tick cs) (by omega)

theorem literalLines_append {cs : List Char} (few : longestRun tick cs ≤ 2)
    (plain : ∀ c ∈ cs, c = '\n' ∨ c = tick ∨ isLiteralChar c = true) (rest : List Char) :
    literalLines (cs ++ closing tick rest) = some (cs, '\n' :: rest) := by
  induction cs with
  | nil => rfl
  | cons c cs ih =>
    rw [List.forall_mem_cons] at plain
    obtain ⟨n, small, all⟩ | fewTicks := ticks_lt_three few
    · rw [all]
      match n with
      | 0 | 1 | 2 => rfl
    · have noReturn : c ≠ '\r' := by
        rintro rfl
        exact absurd plain.1 (by decide)
      have short := fewTicks (closing tick rest)
      rw [List.cons_append] at short ⊢
      unfold literalLines
      rw [if_neg (by omega), if_neg noReturn, if_pos (by simpa [or_assoc] using plain.1),
        ih (Nat.le_trans (longestRun_le_cons tick c cs) few) plain.2]
      rfl

/-! ## The four forms -/

/-- A text between single quotes has no control characters but tabs and line breaks. -/
theorem isLiteralChar_of_uncontrolled {cs : List Char} (clean : cs.any needsEscape = false) :
    ∀ c ∈ cs, c = '\n' ∨ c = tick ∨ isLiteralChar c = true := by
  intro c inside
  have uncoded : ¬needsEscape c = true := List.any_eq_false.1 clean c inside
  by_cases lineBreak : c = '\n'
  · exact .inl lineBreak
  by_cases quote : c = tick
  · exact .inr (.inl quote)
  by_cases tab : c = '\t'
  · exact .inr (.inr (by rw [tab]; rfl))
  have quote : c.toNat ≠ 39 := fun same => quote (eq_ofNat_of_toNat_eq same)
  simp only [needsEscape, not_or, Bool.or_eq_true, Bool.and_eq_true, decide_eq_true_eq,
    bne_iff_ne, beq_iff_eq] at uncoded
  obtain ⟨low, high⟩ := uncoded
  have visible : 0x20 ≤ c.toNat := Nat.le_of_not_lt fun control => low ⟨⟨control, tab⟩, lineBreak⟩
  simp only [isLiteralChar, Bool.or_eq_true, Bool.and_eq_true, decide_eq_true_eq, bne_iff_ne]
  exact .inr (.inr (.inr ⟨⟨visible, quote⟩, high⟩))

/-- Whether a form can hold a text. The forms in double quotes can hold any. -/
def Form.CanHold (cs : List Char) : Form → Prop
  | .basic | .basicLines => True
  | .literal => cs.any needsEscape = false ∧ tick ∉ cs ∧ '\n' ∉ cs
  | .literalLines => cs.any needsEscape = false ∧ longestRun tick cs ≤ 2

theorem formOf_canHold (cs : List Char) : (formOf cs).CanHold cs := by
  unfold formOf
  dsimp only
  split
  case isTrue => exact trivial
  split
  case isTrue h =>
    simp only [Bool.and_eq_true, Bool.not_eq_true', beq_iff_eq, List.contains_eq_mem,
      decide_eq_false_iff_not] at h
    obtain ⟨⟨clean, none⟩, noBreak⟩ := h
    refine ⟨clean, fun inside => ?_, noBreak⟩
    have := one_le_longestRun inside
    omega
  split
  case isTrue => exact trivial
  split
  case isTrue h =>
    simp only [Bool.and_eq_true, Bool.not_eq_true', decide_eq_true_eq] at h
    exact h
  split
  all_goals exact trivial

/-- The line end behind the opening quotes is the one that was put there. -/
theorem skipFirstLineEnd_opening {cs written tail : List Char}
    (first : '\n' ∉ cs → ∃ c more, written ++ tail = c :: more ∧ c ≠ '\n' ∧ c ≠ '\r') :
    skipFirstLineEnd (opening cs ++ (written ++ tail)) = written ++ tail := by
  rw [opening]
  split
  case isTrue => rfl
  case isFalse none =>
    obtain ⟨c, more, same, noBreak, noReturn⟩ := first (by simpa using none)
    rw [List.nil_append, same, skipFirstLineEnd, lineEnd?]
    · rfl
    · exact fun _ whole => noBreak (List.cons.inj whole).1
    · exact fun _ whole => noReturn (List.cons.inj whole).1

theorem scanText_lines (cs : List Char) :
    scanText ('"' :: '"' :: '"' :: cs) =
      (basicLines (skipFirstLineEnd cs)).map fun (text, rest) => (String.ofList text, rest) := rfl

theorem scanText_ticks (cs : List Char) :
    scanText (tick :: tick :: tick :: cs) =
      (literalLines (skipFirstLineEnd cs)).map fun (text, rest) => (String.ofList text, rest) := rfl

theorem scanText_line {quote : Char} {cs : List Char} (is : quote = '"' ∨ quote = tick)
    (short : cs.take 2 ≠ [quote, quote]) : scanText (quote :: cs) = scanLineText (quote :: cs) := by
  rw [scanText, List.take_succ_cons]
  rcases is with rfl | rfl
  · rw [if_neg fun same => short (List.cons.inj same).2,
      if_neg fun same => absurd (List.cons.inj same).1 (by decide)]
  · rw [if_neg fun same => absurd (List.cons.inj same).1 (by decide),
      if_neg fun same => short (List.cons.inj same).2]

theorem scanText_basic (cs rest : List Char) :
    scanText ('"' :: (writeBasic false 0 cs ++ '"' :: '\n' :: rest)) =
      some (String.ofList cs, '\n' :: rest) := by
  have short : (writeBasic false 0 cs ++ '"' :: '\n' :: rest).take 2 ≠ ['"', '"'] := by
    intro same
    by_cases none : cs = []
    · rw [none] at same
      exact absurd (List.cons.inj (List.cons.inj same).2).1 (by decide)
    · generalize opens : writeBasic false 0 cs ++ '"' :: '\n' :: rest = written at same
      cases written with
      | nil => cases same
      | cons first more =>
        cases (List.cons.inj same).1
        exact absurd (writeBasic_quote none opens).1 (by decide)
  rw [scanText_line (.inl rfl) short, scanLineText, if_pos rfl, basicBody_writeBasic]
  rfl

theorem scanText_literal {cs : List Char} (clean : cs.any needsEscape = false)
    (noTick : tick ∉ cs) (noBreak : '\n' ∉ cs) (rest : List Char) :
    scanText (tick :: (cs ++ tick :: '\n' :: rest)) = some (String.ofList cs, '\n' :: rest) := by
  have short : (cs ++ tick :: '\n' :: rest).take 2 ≠ [tick, tick] := by
    match cs with
    | [] => exact fun same => absurd (List.cons.inj (List.cons.inj same).2).1 (by decide)
    | c :: cs =>
      intro same
      exact noTick (by rw [← (List.cons.inj same).1]; exact List.mem_cons_self)
  have plain : ∀ c ∈ cs, isLiteralChar c = true := by
    intro c inside
    rcases isLiteralChar_of_uncontrolled clean c inside with rfl | rfl | is
    · exact absurd inside noBreak
    · exact absurd inside noTick
    · exact is
  rw [scanText_line (.inr rfl) short, scanLineText, if_neg (by decide), if_pos rfl,
    literalBody_append plain]
  rfl

theorem scanText_basicLines (cs rest : List Char) :
    scanText ('"' :: '"' :: '"' :: (opening cs ++ (writeBasic true 0 cs ++ closing '"' rest))) =
      some (String.ofList cs, '\n' :: rest) := by
  have start : skipFirstLineEnd (opening cs ++ (writeBasic true 0 cs ++ closing '"' rest)) =
      writeBasic true 0 cs ++ closing '"' rest := by
    refine skipFirstLineEnd_opening fun noBreak => ?_
    match cs with
    | [] => exact ⟨'"', _, rfl, by decide, by decide⟩
    | c :: cs =>
      obtain ⟨out, next, writes, written⟩ := writeBasic_cons true 0 c cs
      rw [written, List.append_assoc]
      cases writes with
      | quote | escape => exact ⟨_, _, rfl, by decide, by decide⟩
      | lineBreak => exact absurd List.mem_cons_self noBreak
      | plain is => exact ⟨_, _, rfl, (isBasicChar_ne is).2.2⟩
  rw [scanText_lines, start, basicLines_writeBasic]
  rfl

theorem scanText_literalLines {cs : List Char} (clean : cs.any needsEscape = false)
    (few : longestRun tick cs ≤ 2) (rest : List Char) :
    scanText (tick :: tick :: tick :: (opening cs ++ (cs ++ closing tick rest))) =
      some (String.ofList cs, '\n' :: rest) := by
  have plain := isLiteralChar_of_uncontrolled clean
  have start : skipFirstLineEnd (opening cs ++ (cs ++ closing tick rest)) =
      cs ++ closing tick rest := by
    refine skipFirstLineEnd_opening fun noBreak => ?_
    match cs with
    | [] => exact ⟨tick, _, rfl, by decide, by decide⟩
    | c :: cs =>
      refine ⟨c, _, rfl, ?_, ?_⟩
      · rintro rfl
        exact noBreak List.mem_cons_self
      · rintro rfl
        exact absurd (plain _ List.mem_cons_self) (by decide)
  rw [scanText_ticks, start, literalLines_append few plain]
  rfl

/-- A text at the end of a line reads back, in whichever form it was written. -/
theorem scanText_writeText (text : String) (rest : List Char) :
    scanText (writeText text ++ '\n' :: rest) = some (text, '\n' :: rest) := by
  have fits := formOf_canHold text.toList
  unfold writeText
  dsimp only
  split
  case h_1 =>
    simp only [List.cons_append, List.append_assoc]
    exact (scanText_basic _ _).trans (by rw [String.ofList_toList])
  case h_2 form =>
    rw [form] at fits
    simp only [List.cons_append, List.append_assoc]
    exact (scanText_literal fits.1 fits.2.1 fits.2.2 _).trans (by rw [String.ofList_toList])
  case h_3 =>
    simp only [List.append_assoc]
    exact (scanText_basicLines _ _).trans (by rw [String.ofList_toList])
  case h_4 form =>
    rw [form] at fits
    simp only [List.append_assoc]
    exact (scanText_literalLines fits.1 fits.2 _).trans (by rw [String.ofList_toList])

end HardwareSigner.Toml
