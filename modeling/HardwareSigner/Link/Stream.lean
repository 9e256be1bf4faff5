import HardwareSigner.Link.Received
import HardwareSigner.Settings.Basic

/-!
# The link over a network stream

A stream carries bytes both ways unchanged. What one side has written and the other has not read
yet waits in between. A read takes at most `StreamLink.blockSize` of the waiting bytes.

A stream is opened by dialling a host and a port on a network (`StreamLink.openLink`).
-/

namespace HardwareSigner

/-- An open stream, with the bytes that are under way. -/
structure StreamLink where
  /-- Sent from here and not yet read by the other side. -/
  outbound : Bytes := []
  /-- Written by the other side and not yet received here. -/
  inbound : Bytes := []
  /-- Nothing more will be sent from here. -/
  closed : Bool := false
  /-- Nothing more will come from the other side. -/
  peerClosed : Bool := false

/-- What can be dialled, and what has been. -/
structure Network where
  /-- What comes of dialling a host and a port; nothing if there is no answer within the time. -/
  answer : String → UInt16 → Duration → Option (Except IoCause StreamLink)
  /-- What comes of asking that small blocks on a stream be sent at once. -/
  hasten : StreamLink → Except IoCause Unit := fun _ => .ok ()
  /-- The hosts and ports that have been dialled. -/
  dialled : List (String × UInt16) := []

namespace Network

/-- Nothing can be reached. -/
def unreachable : Network where
  answer _ _ _ := some (.error (.system .networkUnreachable))

/-- Dials once and waits for an answer no longer than the limit. -/
def dial (n : Network) (host : String) (port : UInt16) (limit : Duration) :
    Option (Except IoCause StreamLink) × Network :=
  (n.answer host port limit, { n with dialled := n.dialled ++ [(host, port)] })

end Network

namespace StreamLink

/-- The most bytes that one read takes. -/
def blockSize : Nat := 1024

/-- Dials the configured host and has small blocks sent at once. The failure to reach a host names
the address. -/
def openLink (settings : StreamSettings) (n : Network) : Except Failure StreamLink × Network :=
  match n.dial settings.dialled settings.port settings.connectTimeout with
  | (none, n) => (.error (.connect settings.address (.reported "connect timed out")), n)
  | (some (.error cause), n) => (.error (.connect settings.address cause), n)
  | (some (.ok link), n) =>
    match n.hasten link with
    | .error cause => (.error (.io cause), n)
    | .ok () => (.ok link, n)

/-- Opening a stream to a host on which nothing answers. -/
def refusal (settings : StreamSettings) : Failure :=
  .connect settings.address (.system .networkUnreachable)

theorem openLink_unreachable (settings : StreamSettings) :
    (openLink settings .unreachable).1 = .error (refusal settings) := rfl

/-- Sends bytes, unless this side has been closed. -/
def send (l : StreamLink) (data : Bytes) : Except Failure Unit × StreamLink :=
  if l.closed then (.error (.io (.system .brokenPipe)), l)
  else (.ok (), { l with outbound := l.outbound ++ data })

/-- The next bytes; `none` if there is nothing to receive yet. -/
def receive? (l : StreamLink) : Option (Received × StreamLink) :=
  if l.inbound.isEmpty then if l.peerClosed then some (.endOfStream, l) else none
  else
    some (.data (l.inbound.take blockSize), { l with inbound := l.inbound.drop blockSize })

/-- Ends what is sent from here. -/
def close (l : StreamLink) : StreamLink := { l with closed := true }

/-- The other side writes. -/
def peerWrite (l : StreamLink) (data : Bytes) : StreamLink :=
  { l with inbound := l.inbound ++ data }

/-- The other side reads at most `count` bytes. -/
def peerRead (l : StreamLink) (count : Nat) : Bytes × StreamLink :=
  (l.outbound.take count, { l with outbound := l.outbound.drop count })

/-- The other side closes. -/
def peerClose (l : StreamLink) : StreamLink := { l with peerClosed := true }

/-- Several reads joined. -/
structure Gathered where
  data : Bytes
  /-- Whether the end of the stream was met. -/
  atEnd : Bool
  /-- Whether every read kept to the block size. -/
  withinBlock : Bool

/-- Reads, at most `reads` times, until there are `count` bytes. -/
def gather (count : Nat) : Nat → StreamLink → Gathered × StreamLink
  | 0, l => (⟨[], false, true⟩, l)
  | reads + 1, l =>
    if count = 0 then (⟨[], false, true⟩, l)
    else
      match l.receive? with
      | some (.data bytes, after) =>
        let (rest, after) := gather (count - bytes.length) reads after
        (⟨bytes ++ rest.data, rest.atEnd, bytes.length ≤ blockSize && rest.withinBlock⟩, after)
      | some (.endOfStream, after) => (⟨[], true, true⟩, after)
      | some (.idle, after) => gather count reads after
      | none => (⟨[], false, true⟩, l)

/-- Reads until there are `count` bytes, or the stream ends or has nothing more. -/
def receiveAtLeast (l : StreamLink) (count : Nat) : Gathered × StreamLink :=
  gather count (count + 1) l

end StreamLink

end HardwareSigner
