import HardwareSigner.Text.Hex
import HardwareSigner.Text.Unmarked

/-!
# Text in quotes

A text inside an error message stands between double quotes, so that an empty one and one with
blanks at its ends can be told apart. A quote or backslash gets a backslash in front, the usual
control characters have a letter, and any other character without a mark of its own is written as
its number in braces.
-/

namespace HardwareSigner.Text

/-- How one character is written between quotes. -/
def escape (c : Char) : List Char :=
  if c = '"' then ['\\', '"']
  else if c = '\\' then ['\\', '\\']
  else if c = '\t' then ['\\', 't']
  else if c = '\n' then ['\\', 'n']
  else if c = '\r' then ['\\', 'r']
  else if c.toNat = 0 then ['\\', '0']
  else if isUnmarked c then
    ['\\', 'u', Char.ofNat 123] ++ (Hex.ofNat c.toNat).toList ++ [Char.ofNat 125]
  else [c]

/-- The text between double quotes. -/
def quoted (text : String) : String :=
  String.ofList ('"' :: text.toList.flatMap escape ++ ['"'])

/-- A text that may be absent. -/
def quoted? : Option String → String
  | none => "None"
  | some text => "Some(" ++ quoted text ++ ")"

end HardwareSigner.Text
