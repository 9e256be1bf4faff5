import HardwareSigner.Toml.Document
import HardwareSigner.Toml.Writer

/-!
# Numbers read back as they were written

A number is written as its decimal digits up to the end of the line (`DigitLine`). Reading looks for
a date, a time and a floating point number first. None of them is there, because each wants a
character between its digits that is neither a digit nor a line end.

> `scanScalar_toDigits`: a number that a whole number may hold reads back.
-/

namespace HardwareSigner.Toml

/-- Digits up to the end of a line. -/
def DigitLine (cs : List Char) : Prop :=
  ∃ digits rest, (∀ c ∈ digits, c.isDigit = true) ∧ cs = digits ++ '\n' :: rest

namespace DigitLine

variable {cs after : List Char}

theorem first (line : DigitLine cs) :
    ∃ c more, cs = c :: more ∧ (c.isDigit = true ∨ c = '\n') := by
  obtain ⟨digits, rest, all, rfl⟩ := line
  match digits with
  | [] => exact ⟨_, _, rfl, .inr rfl⟩
  | c :: digits => exact ⟨c, _, rfl, .inl (all c List.mem_cons_self)⟩

theorem tail {c : Char} (line : DigitLine (c :: cs)) (digit : c.isDigit = true) : DigitLine cs := by
  obtain ⟨digits, rest, all, same⟩ := line
  match digits with
  | [] =>
    cases same
    exact absurd digit (by decide)
  | d :: digits =>
    exact ⟨digits, rest, fun c inside => all c (List.mem_cons_of_mem d inside),
      (List.cons.inj same).2⟩

/-- Where a mark stands between two numbers, there is none. -/
theorem expect {mark : Char} (line : DigitLine cs) (other : mark.isDigit = false ∧ mark ≠ '\n') :
    expect? mark cs = none := by
  obtain ⟨c, more, rfl, is⟩ := line.first
  rw [expect?, if_neg]
  rintro rfl
  rcases is with is | is
  · exact Bool.false_ne_true (other.1.symm.trans is)
  · exact other.2 is

theorem drop {count : Nat} (line : DigitLine cs) (long : (cs.take count).length = count)
    (all : (cs.take count).all Char.isDigit = true) : DigitLine (cs.drop count) := by
  induction count generalizing cs with
  | zero => exact line
  | succ count ih =>
    match cs with
    | c :: cs =>
      rw [List.take_succ_cons, List.all_cons, Bool.and_eq_true] at all
      rw [List.take_succ_cons, List.length_cons] at long
      exact ih (line.tail all.1) (by omega) all.2

theorem field {count low high n : Nat} (line : DigitLine cs)
    (read : scanField count low high cs = some (n, after)) : DigitLine after := by
  unfold scanField at read
  dsimp only at read
  split at read
  case isTrue h =>
    cases read
    simp only [Bool.and_eq_true, decide_eq_true_eq] at h
    exact line.drop h.1.1.1 h.1.1.2
  case isFalse => cases read

theorem date (line : DigitLine cs) : scanDate? cs = none := by
  unfold scanDate?
  match read : scanField 4 0 9999 cs with
  | none => rfl
  | some (year, after) =>
    show (expect? '-' after).bind _ = none
    rw [(line.field read).expect (by decide)]
    rfl

theorem time (line : DigitLine cs) : scanTime? cs = none := by
  unfold scanTime?
  match read : scanField 2 0 23 cs with
  | none => rfl
  | some (hour, after) =>
    show (expect? ':' after).bind _ = none
    rw [(line.field read).expect (by decide)]
    rfl

theorem dateTime (line : DigitLine cs) : scanDateTime? cs = none := by
  rw [scanDateTime?, line.date, line.time]

theorem sign (line : DigitLine cs) : scanSign cs = (false, cs) := by
  obtain ⟨c, more, rfl, is⟩ := line.first
  rw [scanSign]
  · rintro _ ⟨⟩
    exact absurd is (by decide)
  · rintro _ ⟨⟩
    exact absurd is (by decide)

theorem fraction (line : DigitLine cs) : scanFraction cs = none := by
  obtain ⟨c, more, rfl, is⟩ := line.first
  rw [scanFraction]
  rintro _ ⟨⟩
  exact absurd is (by decide)

theorem exponent (line : DigitLine cs) : scanExponent cs = none := by
  obtain ⟨c, more, rfl, is⟩ := line.first
  rw [scanExponent, if_neg]
  simp only [Bool.or_eq_true, decide_eq_true_eq]
  rintro (rfl | rfl) <;> exact absurd is (by decide)

end DigitLine

/-! ## Digits -/

theorem digitsAfter_append {digits : List Char} (all : ∀ c ∈ digits, c.isDigit = true)
    (rest : List Char) :
    digitsAfter Char.isDigit (digits ++ '\n' :: rest) = (digits, '\n' :: rest) := by
  induction digits with
  | nil =>
    rw [List.nil_append, digitsAfter]
    · rfl
    · exact fun _ _ => nofun
  | cons c digits ih =>
    rw [List.forall_mem_cons] at all
    rw [List.cons_append, digitsAfter, if_pos all.1, ih all.2]
    rintro _ _ rfl
    exact absurd all.1 (by decide)

theorem scanDigits_append {c : Char} {digits : List Char}
    (all : ∀ d ∈ c :: digits, d.isDigit = true) (rest : List Char) :
    scanDigits Char.isDigit (c :: digits ++ '\n' :: rest) = some (c :: digits, '\n' :: rest) := by
  rw [List.forall_mem_cons] at all
  rw [List.cons_append, scanDigits, if_pos all.1, digitsAfter_append all.2]

theorem digitLine_append {digits : List Char} (all : ∀ c ∈ digits, c.isDigit = true)
    (rest : List Char) : DigitLine (digits ++ '\n' :: rest) := ⟨digits, rest, all, rfl⟩

/-- A whole number takes all digits, or only a leading zero. -/
theorem scanWhole_append {c : Char} {digits : List Char}
    (all : ∀ d ∈ c :: digits, d.isDigit = true) (rest : List Char) :
    scanWhole (c :: digits ++ '\n' :: rest) =
      if c = '0' then some (['0'], digits ++ '\n' :: rest)
      else some (c :: digits, '\n' :: rest) := by
  split
  case isTrue h => cases h; rfl
  case isFalse h =>
    rw [← scanDigits_append all rest, scanWhole]
    rintro _ ⟨⟩
    exact h rfl

theorem scanFloat_digits {c : Char} {digits : List Char}
    (all : ∀ d ∈ c :: digits, d.isDigit = true) (rest : List Char) :
    scanFloat? (c :: digits ++ '\n' :: rest) = none := by
  have line := digitLine_append all rest
  have decimal : scanDecimal (c :: digits ++ '\n' :: rest) = none := by
    have others : DigitLine (digits ++ '\n' :: rest) :=
      digitLine_append (fun d inside => all d (List.mem_cons_of_mem c inside)) rest
    have none : DigitLine ('\n' :: rest) := ⟨[], rest, nofun, rfl⟩
    rw [scanDecimal, scanWhole_append all]
    split
    case h_1 => rfl
    case h_2 whole after read =>
      split at read
      all_goals
        cases read
        simp only [others.fraction, others.exponent, none.fraction, none.exponent]
        rfl
  unfold scanFloat?
  rw [line.sign]
  dsimp only
  split
  case h_1 opens | h_2 opens =>
    cases (List.cons.inj opens).1
    exact absurd (all _ List.mem_cons_self) (by decide)
  case h_3 => rw [decimal]

/-! ## Whole numbers -/

theorem valueOf_digit {c : Char} (digit : c.isDigit = true) :
    Hex.value? c = some (c.toNat - '0'.toNat) := by
  have within : 48 ≤ c.val ∧ c.val ≤ 57 := by simpa [Char.isDigit] using digit
  rw [Hex.value?, if_pos]
  exact within

theorem isDigit_toDigits (n : Nat) : ∀ c ∈ Nat.toDigits 10 n, c.isDigit = true :=
  fun _ => Nat.isDigit_of_mem_toDigits (by decide) (by decide)

theorem digitsValue_toDigits (n : Nat) : digitsValue 10 (Nat.toDigits 10 n) = n := by
  have step {digits : List Char} (all : ∀ c ∈ digits, c.isDigit = true) (start : Nat) :
      digits.foldl (fun n c => n * 10 + (Hex.value? c).getD 0) start =
        Nat.ofDigitChars 10 digits start := by
    induction digits generalizing start with
    | nil => rfl
    | cons c digits ih =>
      rw [List.forall_mem_cons] at all
      rw [List.foldl_cons, Nat.ofDigitChars_cons, ih all.2, valueOf_digit all.1, Nat.mul_comm]
      rfl
  rw [digitsValue, step (isDigit_toDigits n)]
  exact Nat.ofDigitChars_ten_toDigits

/-- Only zero starts with a zero. -/
theorem toDigits_leading_zero {n : Nat} {digits : List Char}
    (leads : Nat.toDigits 10 n = '0' :: digits) : digits = [] := by
  induction n using Nat.strongRecOn generalizing digits with
  | ind n ih =>
    by_cases small : n < 10
    · rw [Nat.toDigits_of_lt_base small] at leads
      exact (List.cons.inj leads).2.symm
    rw [Nat.toDigits_of_base_le (by decide) (by omega)] at leads
    match first : Nat.toDigits 10 (n / 10) with
    | [] => exact absurd first Nat.toDigits_ne_nil
    | c :: others =>
      rw [first] at leads
      cases (List.cons.inj leads).1
      cases ih (n / 10) (by omega) first
      have zero := digitsValue_toDigits (n / 10)
      rw [first] at zero
      have : digitsValue 10 ['0'] = 0 := rfl
      omega

/-- A zero in front is not followed by the mark of a base. -/
theorem DigitLine.second {c : Char} {more : List Char} (line : DigitLine ('0' :: c :: more)) :
    c.isDigit = true ∨ c = '\n' := by
  obtain ⟨_, _, ⟨⟩, is⟩ := (line.tail (by decide)).first
  exact is

theorem scanWhole_toDigits (n : Nat) (rest : List Char) :
    scanWhole (Nat.toDigits 10 n ++ '\n' :: rest) = some (Nat.toDigits 10 n, '\n' :: rest) := by
  have all := isDigit_toDigits n
  match digits : Nat.toDigits 10 n with
  | [] => exact absurd digits Nat.toDigits_ne_nil
  | c :: others =>
    rw [digits] at all
    rw [scanWhole_append all]
    split
    case isTrue zero =>
      cases zero
      rw [toDigits_leading_zero digits]
      rfl
    case isFalse => rfl

theorem scanInteger_toDigits {n : Nat} (fits : n ≤ maxInteger) (rest : List Char) :
    scanInteger (Nat.toDigits 10 n ++ '\n' :: rest) = some ((n : Int), '\n' :: rest) := by
  have line := digitLine_append (isDigit_toDigits n) rest
  have holds : fitsLong n = true := by
    simp only [fitsLong, maxInteger, Bool.and_eq_true, decide_eq_true_eq] at fits ⊢
    omega
  unfold scanInteger
  split
  case h_1 opens | h_2 opens | h_3 opens =>
    rw [opens] at line
    exact absurd line.second (by decide)
  case h_4 =>
    rw [line.sign]
    dsimp only
    rw [scanWhole_toDigits]
    dsimp only
    rw [digitsValue_toDigits, if_neg Bool.false_ne_true, if_pos holds]

/-- A number at the end of a line reads back. -/
theorem scanScalar_toDigits {n : Nat} (fits : n ≤ maxInteger) (rest : List Char) :
    scanScalar (Nat.toDigits 10 n ++ '\n' :: rest) = some (.integer n, '\n' :: rest) := by
  have all := isDigit_toDigits n
  have date := (digitLine_append all rest).dateTime
  have number := scanInteger_toDigits fits rest
  match digits : Nat.toDigits 10 n with
  | [] => exact absurd digits Nat.toDigits_ne_nil
  | c :: others =>
    rw [digits] at all date number
    have float := scanFloat_digits all rest
    have digit : c.isDigit = true := all c List.mem_cons_self
    rw [List.cons_append] at date number float ⊢
    rw [scanScalar, if_neg, date, float, number]
    · rfl
    · simp only [Bool.or_eq_true, decide_eq_true_eq]
      rintro (rfl | rfl) <;> exact absurd digit (by decide)
    · rintro _ rfl
      exact absurd digit (by decide)
    · rintro _ rfl
      exact absurd digit (by decide)

end HardwareSigner.Toml
