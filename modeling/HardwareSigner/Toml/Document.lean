import HardwareSigner.Toml.Scan
import HardwareSigner.Toml.Value

/-!
# TOML documents

A document is read line by line. A line gives a value under a key, or is a header that says which
table the following lines belong to. `Draft` keeps the table under construction apart from the rest
of the document until the next header or the end.
-/

namespace HardwareSigner.Toml

/-! ## Values -/

/-- Skips blanks, line ends and comments inside brackets; `none` if a comment holds what no comment
may. -/
def skipFiller (inComment : Bool) : List Char → Option (List Char)
  | [] => some []
  | '\r' :: '\n' :: rest => skipFiller false rest
  | c :: rest =>
    if c = '\n' then skipFiller false rest
    else if inComment then if isCommentChar c then skipFiller true rest else none
    else if isBlank c then skipFiller false rest
    else if c = '#' then skipFiller true rest
    else some (c :: rest)

/-- A value that is neither a list nor a table. -/
def scanScalar : Scanner Value
  | 't' :: 'r' :: 'u' :: 'e' :: rest => some (.boolean true, rest)
  | 'f' :: 'a' :: 'l' :: 's' :: 'e' :: rest => some (.boolean false, rest)
  | c :: rest =>
    if c = '"' || c = tick then (scanText (c :: rest)).map fun (s, rest) => (.string s, rest)
    else
      match scanDateTime? (c :: rest) with
      | some rest => some (.dateTime, rest)
      | none =>
        match scanFloat? (c :: rest) with
        | some rest => some (.float, rest)
        | none => (scanInteger (c :: rest)).map fun (n, rest) => (.integer n, rest)
  | [] => none

mutual

/-- A value inside `depth` others. `fuel` has to exceed the number of characters. -/
def scanValue : (fuel depth : Nat) → Scanner Value
  | 0, _, _ => none
  | fuel + 1, depth, cs =>
    match cs with
    | '[' :: rest =>
      if depth < maxDepth then
        (scanItems fuel (depth + 1) rest).map fun (items, rest) => (.array items, rest)
      else none
    | '{' :: rest =>
      if depth < maxDepth then
        match skipBlanks rest with
        | '}' :: rest => some (.table .braces [], rest)
        | rest =>
          (scanPairs fuel (depth + 1) [] rest).map fun (entries, rest) =>
            (.table .braces entries, rest)
      else none
    | cs => scanScalar cs

/-- The items of a list up to its closing bracket; a comma may follow the last. -/
def scanItems : (fuel depth : Nat) → Scanner (List Value)
  | 0, _, _ => none
  | fuel + 1, depth, cs =>
    match skipFiller false cs with
    | none => none
    | some (']' :: rest) => some ([], rest)
    | some cs =>
      match scanValue fuel depth cs with
      | none => none
      | some (item, rest) =>
        match skipFiller false rest with
        | some (',' :: rest) =>
          (scanItems fuel depth rest).map fun (items, rest) => (item :: items, rest)
        | some (']' :: rest) => some ([item], rest)
        | _ => none

/-- The pairs of a table in braces up to its closing brace, all on one line. -/
def scanPairs : (fuel depth : Nat) → Entries → Scanner Entries
  | 0, _, _, _ => none
  | fuel + 1, depth, entries, cs =>
    match scanKey cs with
    | some ((path, key), '=' :: rest) =>
      match scanValue fuel depth (skipBlanks rest) with
      | none => none
      | some (value, rest) =>
        match addPair .braces path key value entries with
        | none => none
        | some entries =>
          match skipBlanks rest with
          | ',' :: rest => scanPairs fuel depth entries rest
          | '}' :: rest => some (entries, rest)
          | _ => none
    | _ => none

end

/-! ## Headers and lines -/

/-- Which table the lines belong to. -/
inductive Place
  | root
  | table (path : List String) (key : String)
  /-- One more of several tables. -/
  | oneMore (path : List String) (key : String)

/-- A document under construction. -/
structure Draft where
  /-- The tables that are finished. -/
  finished : Entries
  place : Place
  /-- The entries of the table under construction. -/
  current : Entries

namespace Draft

/-- Puts the table under construction where it belongs. -/
def settle? (d : Draft) : Option Entries :=
  match d.place with
  | .root => some d.current
  | .table path key =>
    let change : Change Unit := fun _ entries =>
      (Entries.insert? entries key (.table .header d.current)).map (·, ())
    (descend .passage change .header path d.finished).map Prod.fst
  | .oneMore path key =>
    let change : Change Unit := fun _ entries =>
      match Entries.find? entries key with
      | some (.tables items) =>
        some (Entries.replace entries key (.tables (items ++ [.table .header d.current])), ())
      | _ => none
    (descend .passage change .header path d.finished).map Prod.fst

/-- Starts the table of a header. One that was made on the way to another keeps what it holds; any
other table that is already there may not get a header. -/
def openTable? (path : List String) (key : String) (finished : Entries) : Option Draft :=
  let change : Change Entries := fun _ entries =>
    match Entries.find? entries key with
    | none => some (entries, [])
    | some (.table .passage held) => some (Entries.erase entries key, held)
    | some _ => none
  (descend .passage change .header path finished).map fun (finished, held) =>
    { finished := finished, place := .table path key, current := held }

/-- Starts one more of several tables. -/
def openOneMore? (path : List String) (key : String) (finished : Entries) : Option Draft :=
  let change : Change Unit := fun _ entries =>
    match Entries.find? entries key with
    | none => some (entries ++ [(key, .tables [])], ())
    | some (.tables _) => some (entries, ())
    | some _ => none
  (descend .passage change .header path finished).map fun (finished, _) =>
    { finished := finished, place := .oneMore path key, current := [] }

/-- Reads the header behind its opening brackets. -/
def header? (many : Bool) (d : Draft) (cs : List Char) : Option (Draft × List Char) := do
  let ((path, key), cs) ← scanKey cs
  let cs ← expect? ']' cs
  let cs ← if many then expect? ']' cs else some cs
  let rest ← finishLine? cs
  let finished ← d.settle?
  let draft ← if many then openOneMore? path key finished else openTable? path key finished
  return (draft, rest)

/-- Reads a key and its value. -/
def pair? (d : Draft) (cs : List Char) : Option (Draft × List Char) := do
  let ((path, key), cs) ← scanKey cs
  let cs ← expect? '=' cs
  let (value, cs) ← scanValue (cs.length + 1) 0 (skipBlanks cs)
  let rest ← finishLine? cs
  let current ← addPair .header path key value d.current
  return ({ d with current := current }, rest)

/-- Reads one line, or what is left of it behind its blanks. -/
def line? (d : Draft) (cs : List Char) : Option (Draft × List Char) :=
  match cs with
  | '[' :: '[' :: rest => d.header? true rest
  | '[' :: rest => d.header? false rest
  | cs =>
    match finishLine? cs with
    | some rest => some (d, rest)
    | none => d.pair? cs

/-- Reads lines to the end. `fuel` has to exceed the number of characters. -/
def lines? : Nat → Draft → List Char → Option Draft
  | 0, _, _ => none
  | fuel + 1, d, cs =>
    match skipBlanks cs with
    | [] => some d
    | cs =>
      match d.line? cs with
      | none => none
      | some (d, rest) => lines? fuel d rest

end Draft

/-- Reads a whole document; a byte order mark in front of it does not count. -/
def parse? (text : String) : Option Entries := do
  let cs := match text.toList with
    | c :: rest => if c.toNat = 0xfeff then rest else c :: rest
    | [] => []
  let draft ← Draft.lines? (cs.length + 1) ⟨[], .root, []⟩ cs
  draft.settle?

end HardwareSigner.Toml
