/-!
# TOML values

Tables keep their entries in order and remember how they came about, because that decides which
later lines may still add to them: a table with a header of its own may get a header only once, one
that was made on the way to another may still get its own, one made by dotted keys may only get
more dotted keys, and one written in braces is closed.
-/

namespace HardwareSigner.Toml

/-- How a table came about. -/
inductive Origin
  /-- Written in braces. -/
  | braces
  /-- By its own header. -/
  | header
  /-- On the way to a table with a longer header. -/
  | passage
  /-- By a dotted key. -/
  | dotted
  deriving DecidableEq, Repr

/-- A value. Of floating point numbers and dates only the kind is kept. -/
inductive Value
  | string (s : String)
  | integer (n : Int)
  | float
  | boolean (b : Bool)
  | dateTime
  /-- A list in brackets. -/
  | array (items : List Value)
  /-- The tables of a header in double brackets, in order. -/
  | tables (items : List Value)
  | table (origin : Origin) (entries : List (String × Value))
  deriving Repr

/-- The entries of a table. -/
abbrev Entries := List (String × Value)

namespace Entries

def find? (entries : Entries) (key : String) : Option Value := entries.lookup key

/-- Puts a value in the place of the one that has the key. -/
def replace (entries : Entries) (key : String) (value : Value) : Entries :=
  entries.map fun entry => if entry.1 = key then (key, value) else entry

def erase (entries : Entries) (key : String) : Entries := entries.filter fun entry => entry.1 != key

/-- Adds a value under a key that is not taken. -/
def insert? (entries : Entries) (key : String) (value : Value) : Option Entries :=
  if (Entries.find? entries key).isSome then none else some (entries ++ [(key, value)])

end Entries

/-- What is done to the table at the end of a path: it is given how the table came about and what is
in it, and gives what shall be in it and an answer. -/
abbrev Change (α : Type) := Origin → Entries → Option (Entries × α)

/-- Applies a change to the table at the end of a path that starts in a table made `here`. Tables
that are missing on the way are made, with origin `made`. A dotted path may not lead through a
table that has a header, no path leads through braces, and one leads through the last of several
tables. -/
def descend {α : Type} (made : Origin) (change : Change α) (here : Origin) :
    List String → Entries → Option (Entries × α)
  | [], entries => change here entries
  | key :: path, entries =>
    match Entries.find? entries key with
    | none =>
      (descend made change made path []).map fun (inner, answer) =>
        (entries ++ [(key, .table made inner)], answer)
    | some (.table origin inner) =>
      if origin = .braces || (made = .dotted && origin = .header) then none
      else
        (descend made change origin path inner).map fun (inner, answer) =>
          (Entries.replace entries key (.table origin inner), answer)
    | some (.tables items) =>
      match items.getLast? with
      | some (.table origin inner) =>
        (descend made change origin path inner).map fun (inner, answer) =>
          (Entries.replace entries key (.tables (items.dropLast ++ [.table origin inner])), answer)
      | _ => none
    | some _ => none

/-- Adds a value under a dotted key to a table made `here`. A key without dots may not go into a
table that dotted keys have made, and one with dots only into such a table. -/
def addPair (here : Origin) (path : List String) (key : String) (value : Value)
    (entries : Entries) : Option Entries :=
  let change : Change Unit := fun origin inner =>
    if (origin == .dotted) == path.isEmpty then none
    else (Entries.insert? inner key value).map (·, ())
  (descend .dotted change here path entries).map Prod.fst

end HardwareSigner.Toml
