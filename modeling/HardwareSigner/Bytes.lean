/-!
# Bytes, and numbers written most significant byte first

Everything that travels over a link is a list of bytes. Numbers inside it stand in big-endian
order: `BigEndian.encode` writes a number in a fixed count of bytes and `BigEndian.decode` reads
one back.

> `BigEndian.decode_encode`: reading what was written in `width` bytes gives the number modulo
> `BigEndian.bound width`.
-/

namespace HardwareSigner

/-- A run of bytes, first byte first. -/
abbrev Bytes := List UInt8

namespace BigEndian

/-- The least number that `width` bytes cannot hold. -/
def bound : Nat → Nat
  | 0 => 1
  | width + 1 => 256 * bound width

/-- The last `width` base-256 digits of `n`, most significant first. -/
def encode : Nat → Nat → Bytes
  | 0, _ => []
  | width + 1, n => encode width (n / 256) ++ [UInt8.ofNat n]

/-- The number whose base-256 digits are `bytes`, most significant first. -/
def decode (bytes : Bytes) : Nat :=
  bytes.foldl (fun n b => n * 256 + b.toNat) 0

@[simp] theorem length_encode (width n : Nat) : (encode width n).length = width := by
  induction width generalizing n with
  | zero => rfl
  | succ width ih => simp [encode, ih]

theorem decode_concat (bytes : Bytes) (b : UInt8) :
    decode (bytes ++ [b]) = decode bytes * 256 + b.toNat := by
  simp [decode]

theorem decode_encode (width n : Nat) : decode (encode width n) = n % bound width := by
  induction width generalizing n with
  | zero => simp [encode, decode, bound, Nat.mod_one]
  | succ width ih =>
    have digit : (UInt8.ofNat n).toNat = n % 256 := by simp
    rw [encode, decode_concat, ih, digit, bound, Nat.mod_mul]
    omega

/-- Without overflow the number comes back unchanged. -/
theorem decode_encode_of_lt {width n : Nat} (h : n < bound width) :
    decode (encode width n) = n := by
  rw [decode_encode, Nat.mod_eq_of_lt h]

end BigEndian

end HardwareSigner
