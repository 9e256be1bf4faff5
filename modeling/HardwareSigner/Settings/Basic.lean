import HardwareSigner.Failure

/-!
# Settings

Which link to open and how, and how the connection over it behaves. Times are whole milliseconds.
`ClientSettings.check` names the first thing that is wrong with a configuration.
-/

namespace HardwareSigner

/-- A link over a network stream. -/
structure StreamSettings where
  host : String := "localhost"
  port : UInt16 := 3000
  /-- Connecting is given up after so many milliseconds. -/
  connectTimeoutMs : UInt64 := 5000
  deriving DecidableEq

/-- A link to an attached device. -/
structure HidSettings where
  vendor : UInt16 := 0x10c4
  product : UInt16 := 0xea80
  /-- The serial number that the device has to have, if any will not do. -/
  serial? : Option String := none
  /-- A message is complete when no report has come for so many milliseconds. -/
  readTimeoutMs : UInt64 := 500
  deriving DecidableEq

inductive TransportSettings
  | stream (settings : StreamSettings)
  | hid (settings : HidSettings)
  deriving DecidableEq

/-- How a connection behaves. -/
structure EngineSettings where
  /-- How many events a listener's queue holds. -/
  queueCapacity : UInt64 := 32
  /-- How long closing waits for the reader to stop. -/
  shutdownGraceMs : UInt64 := 500
  /-- The pause before reading again after the end of the stream. -/
  eofPollMs : UInt64 := 100
  /-- How long a client's call waits for the next event. -/
  responseTimeoutMs : UInt64 := 1000
  /-- The largest payload accepted from the device. -/
  maxPayload : UInt32 := 16777216
  deriving DecidableEq

structure ClientSettings where
  transport : TransportSettings := .stream {}
  engine : EngineSettings := {}
  deriving DecidableEq

namespace StreamSettings

/-- Host and port in one text. A host with a colon is put in brackets, unless it opens with one. -/
def address (s : StreamSettings) : String :=
  if s.host.toList.contains ':' && !(s.host.toList.head? == some '[') then s!"[{s.host}]:{s.port}"
  else s!"{s.host}:{s.port}"

/-- The host to dial: without brackets around it. -/
def dialled (s : StreamSettings) : String :=
  let opened := s.host.toList.dropWhile (· = '[')
  String.ofList (opened.reverse.dropWhile (· = ']')).reverse

def connectTimeout (s : StreamSettings) : Duration := .ofMillis s.connectTimeoutMs

end StreamSettings

namespace HidSettings

def readTimeout (s : HidSettings) : Duration := .ofMillis s.readTimeoutMs

/-- The device in words: both identifiers, and the serial number if one is asked for. -/
def target (s : HidSettings) : String :=
  let device := s!"hid {Hex.padded 4 s.vendor.toNat}:{Hex.padded 4 s.product.toNat}"
  match s.serial? with
  | none => device
  | some serial => s!"{device} serial {serial}"

end HidSettings

namespace EngineSettings

def withShutdownGrace (s : EngineSettings) (grace : Duration) : EngineSettings :=
  { s with shutdownGraceMs := grace.toMillis }

def withEofPoll (s : EngineSettings) (interval : Duration) : EngineSettings :=
  { s with eofPollMs := interval.toMillis }

def withResponseTimeout (s : EngineSettings) (timeout : Duration) : EngineSettings :=
  { s with responseTimeoutMs := timeout.toMillis }

def shutdownGrace (s : EngineSettings) : Duration := .ofMillis s.shutdownGraceMs

def eofPoll (s : EngineSettings) : Duration := .ofMillis s.eofPollMs

def responseTimeout (s : EngineSettings) : Duration := .ofMillis s.responseTimeoutMs

end EngineSettings

namespace TransportSettings

/-- The link in words. There is none to attached devices without the part that drives them. -/
def target : TransportSettings → Except Failure String
  | .stream settings => .ok settings.address
  | .hid _ => .error (.hid "USB support requires the `hidapi` feature")

end TransportSettings

namespace ClientSettings

/-- The first fault: of the link, then of the connection. -/
def check (s : ClientSettings) : Except SettingsFault Unit := do
  match s.transport with
  | .stream stream =>
    if stream.host.isEmpty then throw .emptyHost
    if stream.port = 0 then throw .zeroPort
  | .hid hid =>
    if hid.readTimeoutMs = 0 then throw (.readTimeout hid.readTimeoutMs)
  if s.engine.queueCapacity = 0 then throw (.queueCapacity s.engine.queueCapacity.toNat)
  if s.engine.maxPayload = 0 then throw (.maxPayloadSize s.engine.maxPayload)

end ClientSettings

end HardwareSigner
