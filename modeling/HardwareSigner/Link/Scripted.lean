import HardwareSigner.Link.Hid

/-!
# Links that follow a script

What a `ScriptedLink` does is laid down beforehand: how long the next openings and writes take and
whether they fail, what the other side answers to each write, and what arrives for the reader and in
which order. What has been written is kept.

The link may lead to an attached device. Then it is the device that is opened, written to and read
from, once for each thing that arrives.
-/

namespace HardwareSigner

/-- How the next opening or write will go. -/
structure Plan where
  /-- How long it takes, in milliseconds. -/
  delay : Nat := 0
  /-- The text of the error that it ends with. -/
  failure? : Option String := none
  deriving DecidableEq, Repr

/-- What arrives for the reader. -/
inductive Arrival
  /-- The outcome of one read. -/
  | outcome (outcome : Except Failure Received)
  /-- The end of the stream, for every read until something else arrives. -/
  | lastingEnd
  /-- Reports that are at the device as soon as they arrive. -/
  | reports (reads : List Report.Read)

structure ScriptedLink where
  /-- The other side in words. -/
  target : String := "channel"
  opens : List Plan := []
  writes : List Plan := []
  /-- What arrives after each successful write. -/
  replies : List (List Arrival) := []
  /-- The error that closing ends with. -/
  closeFailure? : Option String := none
  /-- What has arrived and has not been read yet. -/
  inbox : List Arrival := []
  /-- The end of the stream has been read and lasts. -/
  ended : Bool := false
  /-- The blocks of bytes written so far. -/
  written : List Bytes := []
  /-- How often the link has been closed. -/
  closes : Nat := 0
  hid? : Option HidLink := none

namespace ScriptedLink

/-- Puts what arrives into the inbox, reports also at the device. -/
def feed (l : ScriptedLink) (arrivals : List Arrival) : ScriptedLink :=
  let reads := arrivals.flatMap fun arrival =>
    match arrival with
    | .reports reads => reads
    | _ => []
  { l with inbox := l.inbox ++ arrivals, hid? := l.hid?.map (·.feed reads) }

/-- Begins to open the link: how it will go. -/
def planOpen (l : ScriptedLink) : Plan × ScriptedLink :=
  (l.opens.headD {}, { l with opens := l.opens.tail })

/-- Opens the link, which ends as planned; a device that is opened may fail in its own ways. -/
def openLink (l : ScriptedLink) (failure? : Option String) : Except Failure Unit × ScriptedLink :=
  match failure?, l.hid? with
  | some text, _ => (.error (.connect l.target (.reported text)), l)
  | none, none => (.ok (), l)
  | none, some hid =>
    let (outcome, hid) := hid.openLink
    (outcome, { l with hid? := some hid })

/-- Begins a write: how it will go. -/
def planWrite (l : ScriptedLink) : Plan × ScriptedLink :=
  (l.writes.headD {}, { l with writes := l.writes.tail })

/-- The other side answers a write. -/
def reply (l : ScriptedLink) : ScriptedLink :=
  { l with replies := l.replies.tail }.feed (l.replies.headD [])

/-- Writes a block, which ends as planned. -/
def write (l : ScriptedLink) (block : Bytes) (failure? : Option String) :
    Except Failure Unit × ScriptedLink :=
  match failure?, l.hid? with
  | some text, _ => (.error (.io (.reported text)), l)
  | none, none => (.ok (), { l with written := l.written ++ [block] }.reply)
  | none, some hid =>
    match hid.send block with
    | (.error failure, hid) => (.error failure, { l with hid? := some hid })
    | (.ok (), hid) =>
      (.ok (), { l with hid? := some hid, written := l.written ++ [block] }.reply)

/-- The next thing for the reader; `none` if it has to wait. -/
def receive? (l : ScriptedLink) : Option (Except Failure Received × ScriptedLink) :=
  match l.inbox, l.hid? with
  | [], _ => if l.ended then some (.ok .endOfStream, l) else none
  | _ :: rest, some hid =>
    let (outcome, hid) := hid.receive
    some (outcome, { l with inbox := rest, hid? := some hid })
  | .outcome outcome :: rest, none => some (outcome, { l with inbox := rest, ended := false })
  | .lastingEnd :: rest, none => some (.ok .endOfStream, { l with inbox := rest, ended := true })
  | .reports _ :: rest, none => some (.ok .idle, { l with inbox := rest, ended := false })

/-- Closes the link. -/
def close (l : ScriptedLink) : Except Failure Unit × ScriptedLink :=
  let closed := { l with closes := l.closes + 1 }
  let planned : Except Failure Unit :=
    match l.closeFailure? with
    | some text => .error (.io (.reported text))
    | none => .ok ()
  match l.hid? with
  | none => (planned, closed)
  | some hid =>
    let (outcome, hid) := hid.close
    (outcome.bind fun () => planned, { closed with hid? := some hid })

end ScriptedLink

end HardwareSigner
