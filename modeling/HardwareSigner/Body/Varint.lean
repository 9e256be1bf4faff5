import HardwareSigner.Bytes

/-!
# Variable-length numbers

A number of 64 bits in groups of seven bits, lowest group first; every byte but the last has
its high bit set. Written numbers are as short as can be. Read numbers may have up to ten bytes,
with superfluous zero groups at the end.

> `Varint.read_write`: a written number reads back and leaves what follows.
> `Varint.length_lt_of_read`: reading takes at least one byte.
-/

namespace HardwareSigner.Varint

/-- The most bytes a number may take. -/
def maxBytes : Nat := 10

/-- The least number that takes more than `places` bytes. -/
def bound : Nat → Nat
  | 0 => 1
  | places + 1 => 128 * bound places

def write (n : Nat) : Bytes :=
  if n < 128 then [UInt8.ofNat n] else UInt8.ofNat (n % 128 + 128) :: write (n / 128)
termination_by n
decreasing_by omega

/-- A number of at most `places` bytes, and what follows it. -/
def readUpTo : Nat → Bytes → Option (Nat × Bytes)
  | 0, _ => none
  | _ + 1, [] => none
  | places + 1, b :: rest =>
    if b.toNat < 128 then some (b.toNat, rest)
    else (readUpTo places rest).map fun (n, rest) => (b.toNat - 128 + 128 * n, rest)

/-- The number at the front, and what follows it. -/
def read? (bytes : Bytes) : Option (Nat × Bytes) :=
  (readUpTo maxBytes bytes).filter (·.1 < UInt64.size)

theorem length_lt_of_readUpTo {places : Nat} {bytes rest : Bytes} {n : Nat}
    (h : readUpTo places bytes = some (n, rest)) : rest.length < bytes.length := by
  induction places generalizing bytes n with
  | zero => cases h
  | succ places ih =>
    cases bytes with
    | nil => cases h
    | cons b tail =>
      unfold readUpTo at h
      split at h
      · cases h; simp
      · simp only [Option.map_eq_some_iff, Prod.exists, Prod.mk.injEq] at h
        obtain ⟨m, r, read, _, rfl⟩ := h
        have := ih read
        simp only [List.length_cons]
        omega

theorem length_lt_of_read {bytes rest : Bytes} {n : Nat}
    (h : read? bytes = some (n, rest)) : rest.length < bytes.length := by
  unfold read? at h
  simp only [Option.filter_eq_some_iff] at h
  exact length_lt_of_readUpTo h.1

theorem readUpTo_write (places : Nat) {n : Nat} (rest : Bytes) (h : n < bound (places + 1)) :
    readUpTo (places + 1) (write n ++ rest) = some (n, rest) := by
  induction places generalizing n with
  | zero =>
    have small : n < 128 := by simpa [bound] using h
    rw [write, if_pos small]
    have byte : (UInt8.ofNat n).toNat = n := by simp; omega
    simp [readUpTo, byte, small]
  | succ places ih =>
    rw [write]
    split
    · next small =>
      have byte : (UInt8.ofNat n).toNat = n := by simp; omega
      simp [readUpTo, byte, small]
    · next large =>
      have byte : (UInt8.ofNat (n % 128 + 128)).toNat = n % 128 + 128 := by simp; omega
      have more : n / 128 < bound (places + 1) := Nat.div_lt_of_lt_mul h
      rw [List.cons_append, readUpTo, byte, if_neg (by omega), ih more]
      simp only [Option.map_some, Option.some.injEq, Prod.mk.injEq, and_true]
      omega

theorem read_write {n : Nat} (rest : Bytes) (h : n < UInt64.size) :
    read? (write n ++ rest) = some (n, rest) := by
  have small : n < bound maxBytes := Nat.lt_of_lt_of_le h (by decide)
  have found : readUpTo maxBytes (write n ++ rest) = some (n, rest) := readUpTo_write 9 rest small
  rw [read?, found, Option.filter_some, if_pos (decide_eq_true h)]

end HardwareSigner.Varint
