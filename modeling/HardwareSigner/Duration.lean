/-!
# Durations

A length of time in whole seconds and nanoseconds. Settings keep durations as milliseconds:
`Duration.toMillis` cuts the fraction of a millisecond off and counts modulo `UInt64.size`.
-/

namespace HardwareSigner

/-- A length of time. The nanoseconds are meant to stay below one second. -/
structure Duration where
  secs : UInt64
  nanos : UInt32
  deriving DecidableEq, Repr

namespace Duration

/-- Carries whole seconds out of the nanoseconds. -/
def new (secs : UInt64) (nanos : UInt32) : Duration :=
  ⟨secs + UInt64.ofNat (nanos.toNat / 1000000000), nanos % 1000000000⟩

def ofMillis (ms : UInt64) : Duration :=
  ⟨ms / 1000, UInt32.ofNat (ms.toNat % 1000 * 1000000)⟩

/-- The whole milliseconds, modulo `UInt64.size`. -/
def toMillis (d : Duration) : UInt64 :=
  UInt64.ofNat (d.secs.toNat * 1000 + d.nanos.toNat / 1000000)

/-- A decimal point and the `width` digits of `part` behind it, without zeros at the end; nothing
for zero. -/
def fraction (width part : Nat) : String :=
  if part = 0 then "" else
    let digits := Nat.toDigits 10 part
    let full := List.replicate (width - digits.length) '0' ++ digits
    "." ++ String.ofList (full.reverse.dropWhile (· = '0')).reverse

/-- The duration in the largest unit of which it has at least one: `1.5s`, `20ms`, `1.5µs`,
`0ns`. -/
def display (d : Duration) : String :=
  let ns := d.nanos.toNat
  if 0 < d.secs then toString d.secs.toNat ++ fraction 9 ns ++ "s"
  else if 1000000 ≤ ns then toString (ns / 1000000) ++ fraction 6 (ns % 1000000) ++ "ms"
  else if 1000 ≤ ns then toString (ns / 1000) ++ fraction 3 (ns % 1000) ++ "µs"
  else toString ns ++ "ns"

end Duration

end HardwareSigner
