import HardwareSigner.Text.Hex
import HardwareSigner.Toml.Scan

/-!
# Writing TOML texts

A text is written in the plainest of the four quoted forms that can hold it. Double quotes come
first; single quotes save the escapes of quotes and backslashes; triple quotes are for line breaks
and for quotes of both kinds. Only the forms in double quotes can hold control characters.
-/

namespace HardwareSigner.Toml

/-- The four quoted forms. -/
inductive Form
  | basic | literal | basicLines | literalLines
  deriving DecidableEq, Repr

/-- The length of the longest run of a character. -/
def longestRun (c : Char) (cs : List Char) : Nat :=
  (cs.foldl (fun (best, run) d => if d = c then (max best (run + 1), run + 1) else (best, 0))
    (0, 0)).1

/-- Whether a character can be written only by its number or letter: all control characters but
tabs and line breaks. -/
def needsEscape (c : Char) : Bool :=
  (c.toNat < 0x20 && c != '\t' && c != '\n') || c.toNat == 0x7f

/-- The plainest form that can hold a text. -/
def formOf (cs : List Char) : Form :=
  let controls := cs.any needsEscape
  let backslashes := cs.contains '\\'
  let double := longestRun '"' cs
  let single := longestRun tick cs
  let lines := cs.contains '\n'
  if !controls && !backslashes && double == 0 && !lines then .basic
  else if !controls && single == 0 && !lines then .literal
  else if !controls && !backslashes && double ≤ 2 then .basicLines
  else if !controls && single ≤ 2 then .literalLines
  else if lines then .basicLines
  else .basic

/-- How a character is written that does not stand for itself between double quotes. -/
def escapeOf (c : Char) : List Char :=
  if c.toNat = 8 then ['\\', 'b']
  else if c = '\t' then ['\\', 't']
  else if c = '\n' then ['\\', 'n']
  else if c.toNat = 12 then ['\\', 'f']
  else if c = '\r' then ['\\', 'r']
  else if c = '"' then ['\\', '"']
  else if c = '\\' then ['\\', '\\']
  else '\\' :: 'u' :: ((Hex.padded 4 c.toNat).toList.map Char.toUpper)

/-- The text between double quotes. Between triple ones (`lines`), line breaks and up to two quotes
in a row stand for themselves; `quotes` counts those right before. -/
def writeBasic (lines : Bool) : (quotes : Nat) → List Char → List Char
  | _, [] => []
  | quotes, c :: cs =>
    if c = '"' then
      if lines && quotes < 2 then '"' :: writeBasic lines (quotes + 1) cs
      else escapeOf c ++ writeBasic lines 0 cs
    else if c = '\n' && lines then '\n' :: writeBasic lines 0 cs
    else if needsEscape c || c = '\t' || c = '\n' || c = '\\' then
      escapeOf c ++ writeBasic lines 0 cs
    else c :: writeBasic lines 0 cs

/-- A text in triple quotes that has line breaks starts on a line of its own. -/
def opening (cs : List Char) : List Char := if cs.contains '\n' then ['\n'] else []

/-- A text in quotes. -/
def writeText (text : String) : List Char :=
  let cs := text.toList
  match formOf cs with
  | .basic => '"' :: writeBasic false 0 cs ++ ['"']
  | .literal => tick :: cs ++ [tick]
  | .basicLines =>
    List.replicate 3 '"' ++ opening cs ++ writeBasic true 0 cs ++ List.replicate 3 '"'
  | .literalLines => List.replicate 3 tick ++ opening cs ++ cs ++ List.replicate 3 tick

/-- What is written under a key. -/
inductive Scalar
  | text (s : String)
  | number (n : Nat)

def Scalar.write : Scalar → List Char
  | .text s => writeText s
  | .number n => Nat.toDigits 10 n

/-- The line that puts a value under a key of letters. -/
def writePair (pair : String × Scalar) : List Char :=
  pair.1.toList ++ [' ', '=', ' '] ++ pair.2.write ++ ['\n']

/-- A header and the lines behind it. -/
def writeTable (name : String) (pairs : List (String × Scalar)) : List Char :=
  '[' :: name.toList ++ [']', '\n'] ++ pairs.flatMap writePair

/-- Tables, with a blank line between two of them. -/
def writeTables : List (String × List (String × Scalar)) → List Char
  | [] => []
  | [(name, pairs)] => writeTable name pairs
  | (name, pairs) :: more => writeTable name pairs ++ '\n' :: writeTables more

/-- The largest number that a TOML integer holds. -/
def maxInteger : Nat := 9223372036854775807

end HardwareSigner.Toml
