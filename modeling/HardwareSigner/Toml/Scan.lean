import HardwareSigner.Text.Hex

/-!
# The words of a TOML text

Blanks, comments and line ends; keys; quoted texts in their four forms; and the numbers, dates and
times. Each reader takes a piece off the front of the characters and gives what is left.
-/

namespace HardwareSigner.Toml

/-- Reads something off the front of some characters; gives what follows it. -/
abbrev Scanner (α : Type) := List Char → Option (α × List Char)

/-! ## Blanks and line ends -/

def isBlank (c : Char) : Bool := c == ' ' || c == '\t'

def skipBlanks (cs : List Char) : List Char := cs.dropWhile isBlank

/-- What follows a line end. -/
def lineEnd? : List Char → Option (List Char)
  | '\n' :: rest => some rest
  | '\r' :: '\n' :: rest => some rest
  | _ => none

/-- A comment may hold any character but the control characters; tabs are allowed. -/
def isCommentChar (c : Char) : Bool := c == '\t' || (0x20 ≤ c.toNat && c.toNat != 0x7f)

/-- Skips a comment, if there is one. -/
def skipComment : List Char → List Char
  | '#' :: rest => rest.dropWhile isCommentChar
  | cs => cs

/-- What follows a line that has nothing more but blanks and a comment. -/
def finishLine? (cs : List Char) : Option (List Char) :=
  match skipComment (skipBlanks cs) with
  | [] => some []
  | rest => lineEnd? rest

/-- Skips blanks and line ends. -/
def skipSpace : List Char → List Char
  | ' ' :: rest => skipSpace rest
  | '\t' :: rest => skipSpace rest
  | '\n' :: rest => skipSpace rest
  | '\r' :: '\n' :: rest => skipSpace rest
  | rest => rest

theorem length_skipSpace_le (cs : List Char) : (skipSpace cs).length ≤ cs.length := by
  fun_induction skipSpace cs with
  | case1 _ ih | case2 _ ih | case3 _ ih | case4 _ ih => simp only [List.length_cons]; omega
  | case5 => exact Nat.le_refl _

/-! ## Quoted texts -/

/-- The character with the given hexadecimal digits as its number. -/
def charOf? (digits : List Char) : Option Char := do
  let values ← digits.mapM Hex.value?
  let n := values.foldl (fun n d => n * 16 + d) 0
  if n.isValidChar then some (Char.ofNat n) else none

/-- Whether a character may stand for itself between double quotes. -/
def isBasicChar (c : Char) : Bool :=
  c == '\t' || (0x20 ≤ c.toNat && c != '"' && c != '\\' && c.toNat != 0x7f)

/-- Whether a character may stand between single quotes. -/
def isLiteralChar (c : Char) : Bool :=
  c == '\t' || (0x20 ≤ c.toNat && c.toNat != 39 && c.toNat != 0x7f)

/-- The character that a letter behind a backslash stands for. -/
def escaped? : Char → Option Char
  | 'b' => some (Char.ofNat 8)
  | 't' => some '\t'
  | 'n' => some '\n'
  | 'f' => some (Char.ofNat 12)
  | 'r' => some '\r'
  | '"' => some '"'
  | '\\' => some '\\'
  | _ => none

/-- The character that is written behind a backslash. -/
def scanEscape : Scanner Char
  | 'u' :: a :: b :: c :: d :: rest => (charOf? [a, b, c, d]).map (·, rest)
  | 'U' :: a :: b :: c :: d :: e :: f :: g :: h :: rest =>
    (charOf? [a, b, c, d, e, f, g, h]).map (·, rest)
  | letter :: rest => (escaped? letter).map (·, rest)
  | [] => none

theorem length_lt_of_scanEscape {cs rest : List Char} {c : Char}
    (h : scanEscape cs = some (c, rest)) : rest.length < cs.length := by
  unfold scanEscape at h
  split at h
  · obtain ⟨_, _, same⟩ := Option.map_eq_some_iff.1 h
    cases same; simp only [List.length_cons]; omega
  · obtain ⟨_, _, same⟩ := Option.map_eq_some_iff.1 h
    cases same; simp only [List.length_cons]; omega
  · obtain ⟨_, _, same⟩ := Option.map_eq_some_iff.1 h
    cases same; exact Nat.lt_succ_self _
  · cases h

/-- The rest of a text between double quotes, on one line. -/
def basicBody (cs : List Char) : Option (List Char × List Char) :=
  match cs with
  | [] => none
  | '"' :: rest => some ([], rest)
  | '\\' :: rest =>
    match _escape : scanEscape rest with
    | none => none
    | some (c, rest) => (basicBody rest).map fun (text, rest) => (c :: text, rest)
  | c :: rest =>
    if isBasicChar c then (basicBody rest).map fun (text, rest) => (c :: text, rest) else none
termination_by cs.length
decreasing_by
  · have := length_lt_of_scanEscape _escape
    simp only [List.length_cons]; omega
  · exact Nat.lt_succ_self _

/-- What follows a backslash at the end of a line: all blanks and line ends are skipped. -/
def joinLines? (cs : List Char) : Option (List Char) := (lineEnd? (skipBlanks cs)).map skipSpace

theorem length_le_of_lineEnd {cs rest : List Char} (h : lineEnd? cs = some rest) :
    rest.length ≤ cs.length := by
  unfold lineEnd? at h
  split at h
  · cases h; exact Nat.le_succ _
  · cases h; exact Nat.le_add_right _ 2
  · cases h

theorem length_le_of_joinLines {cs rest : List Char} (h : joinLines? cs = some rest) :
    rest.length ≤ cs.length := by
  obtain ⟨after, ended, rfl⟩ := Option.map_eq_some_iff.1 h
  have blanks : (skipBlanks cs).length ≤ cs.length := (List.dropWhile_sublist _).length_le
  have line := length_le_of_lineEnd ended
  have space := length_skipSpace_le after
  omega

/-- The rest of a text between triple double quotes. Up to two quotes may stand in the text, also
right before its end. -/
def basicLines (cs : List Char) : Option (List Char × List Char) :=
  match cs with
  | [] => none
  | '"' :: '"' :: '"' :: '"' :: '"' :: rest => some (['"', '"'], rest)
  | '"' :: '"' :: '"' :: '"' :: rest => some (['"'], rest)
  | '"' :: '"' :: '"' :: rest => some ([], rest)
  | '"' :: rest => (basicLines rest).map fun (text, rest) => ('"' :: text, rest)
  | '\\' :: rest =>
    match _joined : joinLines? rest with
    | some rest => basicLines rest
    | none =>
      match _escape : scanEscape rest with
      | none => none
      | some (c, rest) => (basicLines rest).map fun (text, rest) => (c :: text, rest)
  | '\r' :: '\n' :: rest => (basicLines rest).map fun (text, rest) => ('\n' :: text, rest)
  | c :: rest =>
    if c == '\n' || isBasicChar c then
      (basicLines rest).map fun (text, rest) => (c :: text, rest)
    else none
termination_by cs.length
decreasing_by
  · exact Nat.lt_succ_self _
  · have := length_le_of_joinLines _joined
    simp only [List.length_cons]; omega
  · have := length_lt_of_scanEscape _escape
    simp only [List.length_cons]; omega
  · simp only [List.length_cons]; omega
  · exact Nat.lt_succ_self _

/-- The single quote. -/
def tick : Char := Char.ofNat 39

/-- The rest of a text between single quotes, on one line. -/
def literalBody : List Char → Option (List Char × List Char)
  | [] => none
  | c :: rest =>
    if c = tick then some ([], rest)
    else if isLiteralChar c then (literalBody rest).map fun (text, rest) => (c :: text, rest)
    else none

/-- How many of the first five characters in a row are single quotes. -/
def ticks (cs : List Char) : Nat := ((cs.take 5).takeWhile (· = tick)).length

/-- The rest of a text between triple single quotes. Up to two quotes may stand in the text, also
right before its end. -/
def literalLines : List Char → Option (List Char × List Char)
  | [] => none
  | c :: rest =>
    let quotes := ticks (c :: rest)
    if 3 ≤ quotes then some (List.replicate (quotes - 3) tick, rest.drop (quotes - 1))
    else if c = '\r' then
      match rest with
      | '\n' :: _ => literalLines rest
      | _ => none
    else if c = '\n' || c = tick || isLiteralChar c then
      (literalLines rest).map fun (text, rest) => (c :: text, rest)
    else none

/-- A line end right behind opening triple quotes does not count. -/
def skipFirstLineEnd (cs : List Char) : List Char := (lineEnd? cs).getD cs

/-- A text in quotes of either kind, on one line. -/
def scanLineText : Scanner String := fun cs =>
  match cs with
  | [] => none
  | c :: rest =>
    if c = '"' then (basicBody rest).map fun (text, rest) => (String.ofList text, rest)
    else if c = tick then (literalBody rest).map fun (text, rest) => (String.ofList text, rest)
    else none

/-- A text in quotes. -/
def scanText : Scanner String := fun cs =>
  if cs.take 3 = ['"', '"', '"'] then
    (basicLines (skipFirstLineEnd (cs.drop 3))).map fun (text, rest) => (String.ofList text, rest)
  else if cs.take 3 = [tick, tick, tick] then
    (literalLines (skipFirstLineEnd (cs.drop 3))).map fun (text, rest) =>
      (String.ofList text, rest)
  else scanLineText cs

/-! ## Keys -/

/-- Whether a character may stand in a key without quotes. -/
def isBareChar (c : Char) : Bool := c.isAlphanum || c == '-' || c == '_'

/-- One part of a key. -/
def scanPart : Scanner String := fun cs =>
  match cs.takeWhile isBareChar with
  | [] => scanLineText cs
  | bare => some (String.ofList bare, cs.dropWhile isBareChar)

/-- The further parts of a dotted key, each behind a dot, of at most `limit`. -/
def scanParts : Nat → Scanner (List String)
  | 0, _ => none
  | limit + 1, cs =>
    match skipBlanks cs with
    | '.' :: rest =>
      match scanPart (skipBlanks rest) with
      | none => none
      | some (part, rest) => (scanParts limit rest).map fun (parts, rest) => (part :: parts, rest)
    | rest => some ([], rest)

/-- How deep keys and values may be nested. -/
def maxDepth : Nat := 80

/-- A dotted key: the parts before the last, and the last. Blanks around the parts do not count. -/
def scanKey : Scanner (List String × String) := fun cs =>
  match scanPart (skipBlanks cs) with
  | none => none
  | some (first, rest) =>
    (scanParts (maxDepth - 1) rest).map fun (parts, rest) =>
      let all := first :: parts
      ((all.dropLast, all.getLast?.getD first), rest)

/-! ## Numbers -/

/-- Digits of a base, where an underscore may stand between two of them. -/
def digitsAfter (isDigit : Char → Bool) : List Char → List Char × List Char
  | '_' :: c :: rest =>
    if isDigit c then
      let (digits, rest) := digitsAfter isDigit rest
      (c :: digits, rest)
    else ([], '_' :: c :: rest)
  | c :: rest =>
    if isDigit c then
      let (digits, rest) := digitsAfter isDigit rest
      (c :: digits, rest)
    else ([], c :: rest)
  | [] => ([], [])

/-- At least one digit, the others possibly set off by underscores. -/
def scanDigits (isDigit : Char → Bool) : Scanner (List Char)
  | c :: rest =>
    if isDigit c then
      let (digits, rest) := digitsAfter isDigit rest
      some (c :: digits, rest)
    else none
  | [] => none

/-- The number with the given digits. -/
def digitsValue (base : Nat) (digits : List Char) : Nat :=
  digits.foldl (fun n c => n * base + (Hex.value? c).getD 0) 0

/-- An optional sign: whether it is a minus. -/
def scanSign : List Char → Bool × List Char
  | '-' :: rest => (true, rest)
  | '+' :: rest => (false, rest)
  | rest => (false, rest)

/-- The digits of a decimal whole number: a zero stands alone. -/
def scanWhole : Scanner (List Char)
  | '0' :: rest => some (['0'], rest)
  | cs => scanDigits Char.isDigit cs

/-- A whole number that 64 bits hold with a sign. -/
def fitsLong (n : Int) : Bool := -9223372036854775808 ≤ n && n ≤ 9223372036854775807

/-- A whole number in one of the bases 16, 8 and 2, behind its two-character mark. -/
def scanBased (base : Nat) (isDigit : Char → Bool) (cs : List Char) : Option (Int × List Char) :=
  match scanDigits isDigit cs with
  | none => none
  | some (digits, rest) =>
    let n : Int := digitsValue base digits
    if fitsLong n then some (n, rest) else none

/-- A whole number. -/
def scanInteger : Scanner Int
  | '0' :: 'x' :: rest => scanBased 16 (fun c => (Hex.value? c).isSome) rest
  | '0' :: 'o' :: rest => scanBased 8 (fun c => '0' ≤ c && c ≤ '7') rest
  | '0' :: 'b' :: rest => scanBased 2 (fun c => c == '0' || c == '1') rest
  | cs =>
    let (negative, cs) := scanSign cs
    match scanWhole cs with
    | none => none
    | some (digits, rest) =>
      let n : Int := digitsValue 10 digits
      let n := if negative then -n else n
      if fitsLong n then some (n, rest) else none

/-- The exponent of a floating point number. -/
def scanExponent : Scanner Int
  | e :: rest =>
    if e = 'e' || e = 'E' then
      let (negative, rest) := scanSign rest
      (scanDigits Char.isDigit rest).map fun (digits, rest) =>
        let n : Int := digitsValue 10 digits
        (if negative then -n else n, rest)
    else none
  | [] => none

/-- The digits behind the point of a floating point number. -/
def scanFraction : Scanner (List Char)
  | '.' :: rest => scanDigits Char.isDigit rest
  | _ => none

/-- Whether `digits` times ten to the `exponent` is too large for a floating point number of 64
bits, that is, rounds beyond the largest one. -/
def overflows (digits : List Char) (exponent : Int) : Bool :=
  let significant := digits.dropWhile (· = '0')
  let magnitude := significant.length + exponent
  if significant.isEmpty then false
  else if magnitude < 300 then false
  else if 320 < magnitude then true
  else
    let bound := Nat.pow 2 1024 - Nat.pow 2 970
    let n := digitsValue 10 significant
    if 0 ≤ exponent then bound ≤ n * Nat.pow 10 exponent.toNat
    else bound * Nat.pow 10 (-exponent).toNat ≤ n

/-- The digits and the exponent of a floating point number with a fraction or an exponent. -/
def scanDecimal : Scanner (List Char × Int) := fun cs =>
  match scanWhole cs with
  | none => none
  | some (whole, rest) =>
    match scanFraction rest with
    | some (part, rest) =>
      match scanExponent rest with
      | some (exponent, rest) => some ((whole ++ part, exponent - part.length), rest)
      | none => some ((whole ++ part, -(part.length : Int)), rest)
    | none => (scanExponent rest).map fun (exponent, rest) => ((whole, exponent), rest)

/-- What follows a floating point number. A positive one may not overflow. -/
def scanFloat? (cs : List Char) : Option (List Char) :=
  let (negative, cs) := scanSign cs
  match cs with
  | 'i' :: 'n' :: 'f' :: rest => some rest
  | 'n' :: 'a' :: 'n' :: rest => some rest
  | cs =>
    match scanDecimal cs with
    | none => none
    | some ((digits, exponent), rest) =>
      if !negative && overflows digits exponent then none else some rest

/-! ## Dates and times -/

/-- A number of exactly `count` digits between two bounds. -/
def scanField (count low high : Nat) : Scanner Nat := fun cs =>
  let digits := cs.take count
  let n := digitsValue 10 digits
  if digits.length = count && digits.all Char.isDigit && low ≤ n && n ≤ high then
    some (n, cs.drop count)
  else none

def isLeap (year : Nat) : Bool := year % 4 == 0 && (year % 100 != 0 || year % 400 == 0)

/-- The number of days of a month. -/
def daysIn (year month : Nat) : Nat :=
  if month = 2 then if isLeap year then 29 else 28
  else if month = 4 || month = 6 || month = 9 || month = 11 then 30
  else 31

/-- What follows a given character. -/
def expect? (c : Char) : List Char → Option (List Char)
  | d :: rest => if c = d then some rest else none
  | [] => none

/-- What follows a date. -/
def scanDate? (cs : List Char) : Option (List Char) := do
  let (year, cs) ← scanField 4 0 9999 cs
  let (month, cs) ← scanField 2 1 12 (← expect? '-' cs)
  let (_, cs) ← scanField 2 1 (daysIn year month) (← expect? '-' cs)
  return cs

/-- What follows a time of the day. -/
def scanTime? (cs : List Char) : Option (List Char) := do
  let (_, cs) ← scanField 2 0 23 cs
  let (_, cs) ← scanField 2 0 59 (← expect? ':' cs)
  let (_, cs) ← scanField 2 0 60 (← expect? ':' cs)
  match cs with
  | '.' :: c :: rest => if c.isDigit then return rest.dropWhile Char.isDigit else return cs
  | _ => return cs

/-- What follows the distance from universal time. -/
def scanOffset? : List Char → Option (List Char)
  | 'Z' :: rest => some rest
  | 'z' :: rest => some rest
  | sign :: rest =>
    if sign = '+' || sign = '-' then do
      let (_, rest) ← scanField 2 0 23 rest
      let (_, rest) ← scanField 2 0 59 (← expect? ':' rest)
      return rest
    else none
  | [] => none

/-- What follows a date, a time, or both. -/
def scanDateTime? (cs : List Char) : Option (List Char) :=
  match scanDate? cs with
  | none => scanTime? cs
  | some afterDate =>
    match afterDate with
    | between :: rest =>
      if between = 'T' || between = 't' || between = ' ' then
        match scanTime? rest with
        | none => some afterDate
        | some afterTime => some ((scanOffset? afterTime).getD afterTime)
      else some afterDate
    | [] => some []

end HardwareSigner.Toml
