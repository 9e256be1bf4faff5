import HardwareSigner.Bytes
import HardwareSigner.Failure

/-!
# Frame headers

A frame opens with eight bytes: the two marker bytes `##`, the message code in two bytes and the
payload length in four, both big-endian. The marker is written but not checked when a header is
read.

> `Header.decode_encode`: a written header reads back, whatever follows it.
-/

namespace HardwareSigner

/-- What a frame says about its payload. -/
structure Header where
  /-- The code of the message type. -/
  code : UInt16
  /-- The payload length in bytes. -/
  length : UInt32
  deriving DecidableEq, Repr

namespace Header

/-- The two bytes `##`. -/
def marker : Bytes := [0x23, 0x23]

/-- The number of bytes in a header, marker included. -/
def size : Nat := 8

/-- The largest payload accepted unless another limit is set: 16 MiB. -/
def defaultLimit : UInt32 := 16777216

/-- The message type that the code names. -/
def type (h : Header) : MessageType := .ofCode h.code

def encode (h : Header) : Bytes :=
  marker ++ BigEndian.encode 2 h.code.toNat ++ BigEndian.encode 4 h.length.toNat

/-- Writes the header over the first bytes of `buffer`, which has to have room for it. -/
def encodeOver? (h : Header) (buffer : Bytes) : Option Bytes :=
  if buffer.length < size then none else some (h.encode ++ buffer.drop size)

/-- The header at the start of `bytes`; `none` if there are fewer than eight. The first two bytes
may be anything. -/
def decode? (bytes : Bytes) : Option Header :=
  if bytes.length < size then none
  else some ⟨UInt16.ofNat (BigEndian.decode ((bytes.drop 2).take 2)),
    UInt32.ofNat (BigEndian.decode ((bytes.drop 4).take 4))⟩

/-- Whether the bytes open with the marker. -/
def hasMarker (bytes : Bytes) : Bool := marker.isPrefixOf bytes

/-- Refuses a payload length above `limit`. -/
def check (h : Header) (limit : UInt32) : Except DecodeFailure Unit :=
  if limit < h.length then .error (.oversized h.length limit) else .ok ()

@[simp] theorem length_encode (h : Header) : h.encode.length = size := by
  simp [encode, marker, size]

theorem decode?_eq_none_iff (bytes : Bytes) : decode? bytes = none ↔ bytes.length < size := by
  simp [decode?]

theorem decode_encode (h : Header) (rest : Bytes) : decode? (h.encode ++ rest) = some h := by
  have code : BigEndian.decode (BigEndian.encode 2 h.code.toNat) = h.code.toNat :=
    BigEndian.decode_encode_of_lt h.code.toNat_lt
  have length : BigEndian.decode (BigEndian.encode 4 h.length.toNat) = h.length.toNat :=
    BigEndian.decode_encode_of_lt h.length.toNat_lt
  rw [decode?, if_neg (by simp)]
  simp [encode, marker, List.drop_append, code, length]

end Header

end HardwareSigner
