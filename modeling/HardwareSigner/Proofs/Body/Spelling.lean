import HardwareSigner.Body.Varint

/-!
# How numbers are spelled

A number can be spelled in many ways, because zero groups at its end do not count (`Spells`). One of
them is the shortest, and it is the one that is written:

> `minimal_write`, `eq_write_of_minimal`: what is written is the shortest spelling, and the only one
> of its length.
> `read?_eq_some_iff`: what is read is any spelling of at most ten bytes of a number of 64 bits.
-/

namespace HardwareSigner.Varint

/-- Seven bits of the number in each byte, lowest first. All bytes but the last have their high bit
set. -/
inductive Spells : Nat → Bytes → Prop
  | last {b : UInt8} (small : b.toNat < 128) : Spells b.toNat [b]
  | more {b : UInt8} {n : Nat} {bytes : Bytes} (large : 128 ≤ b.toNat) (others : Spells n bytes) :
      Spells (b.toNat - 128 + 128 * n) (b :: bytes)

/-- The shortest spelling. -/
structure Minimal (n : Nat) (bytes : Bytes) : Prop where
  spells : Spells n bytes
  least : ∀ other, Spells n other → bytes.length ≤ other.length

/-- A spelling that is accepted where a number is read. -/
structure Accepted (n : Nat) (bytes : Bytes) : Prop where
  spells : Spells n bytes
  short : bytes.length ≤ maxBytes
  fits : n < UInt64.size

section

variable {n places : Nat} {bytes rest other : Bytes}

/-! ## What is written -/

theorem toNat_low (small : n < 128) : (UInt8.ofNat n).toNat = n := by
  rw [UInt8.toNat_ofNat']
  omega

theorem toNat_marked (n : Nat) : (UInt8.ofNat (n % 128 + 128)).toNat = n % 128 + 128 := by
  rw [UInt8.toNat_ofNat']
  omega

theorem spells_write (n : Nat) : Spells n (write n) := by
  induction n using Nat.strongRecOn with
  | ind n ih =>
    rw [write]
    split
    next small =>
      have spelt : Spells (UInt8.ofNat n).toNat [UInt8.ofNat n] :=
        .last (by rw [toNat_low small]; exact small)
      rwa [toNat_low small] at spelt
    next large =>
      have spelt := Spells.more (b := UInt8.ofNat (n % 128 + 128))
        (by rw [toNat_marked]; omega) (ih (n / 128) (by omega))
      have same : n % 128 + 128 - 128 + 128 * (n / 128) = n := by omega
      rwa [toNat_marked, same] at spelt

theorem write_of_small (small : n < 128) : write n = [UInt8.ofNat n] := by
  rw [write, if_pos small]

theorem write_of_large (large : 128 ≤ n) :
    write n = UInt8.ofNat (n % 128 + 128) :: write (n / 128) := by
  rw [write, if_neg (Nat.not_lt.mpr large)]

theorem Spells.length_pos (spells : Spells n bytes) : 0 < bytes.length := by
  cases spells <;> exact Nat.succ_pos _

/-- The groups of a spelling are those of the number, so only what is behind them can differ. -/
theorem Spells.cases (spells : Spells n bytes) :
    bytes = write n ∨ (write n).length < bytes.length := by
  induction spells with
  | @last b small =>
    refine Or.inl ?_
    rw [write_of_small small, UInt8.ofNat_toNat]
  | @more b n bytes large others ih =>
    have below := b.toNat_lt
    by_cases zero : n = 0
    · -- Nothing but zeros follow, and one byte would have done.
      refine Or.inr ?_
      rw [zero, Nat.mul_zero, Nat.add_zero, write_of_small (by omega)]
      exact Nat.succ_lt_succ others.length_pos
    · have higher : (b.toNat - 128 + 128 * n) / 128 = n := by omega
      have lowest : (b.toNat - 128 + 128 * n) % 128 + 128 = b.toNat := by omega
      rw [write_of_large (by omega), higher, lowest, UInt8.ofNat_toNat, List.length_cons,
        List.length_cons]
      exact ih.imp (congrArg _) Nat.succ_lt_succ

/-- What is written is the shortest spelling. -/
theorem minimal_write (n : Nat) : Minimal n (write n) where
  spells := spells_write n
  least other spells := by
    rcases spells.cases with rfl | longer
    · exact Nat.le_refl _
    · exact Nat.le_of_lt longer

/-- There is no other. -/
theorem eq_write_of_minimal (minimal : Minimal n bytes) : bytes = write n :=
  minimal.spells.cases.resolve_right (Nat.not_lt.mpr (minimal.least _ (spells_write n)))

/-! ## What is read -/

theorem spells_of_readUpTo (read : readUpTo places bytes = some (n, rest)) :
    ∃ spelling, bytes = spelling ++ rest ∧ Spells n spelling ∧ spelling.length ≤ places := by
  induction places generalizing bytes n with
  | zero => cases read
  | succ places ih =>
    cases bytes with
    | nil => cases read
    | cons b bytes =>
      unfold readUpTo at read
      split at read
      next small =>
        cases read
        exact ⟨[b], rfl, .last small, Nat.succ_le_succ (Nat.zero_le _)⟩
      next large =>
        obtain ⟨⟨m, behind⟩, found, same⟩ := Option.map_eq_some_iff.mp read
        cases same
        obtain ⟨spelling, rfl, spells, short⟩ := ih found
        exact ⟨b :: spelling, rfl, .more (Nat.not_lt.mp large) spells, Nat.succ_le_succ short⟩

theorem readUpTo_of_spells (spells : Spells n bytes) (short : bytes.length ≤ places)
    (rest : Bytes) : readUpTo places (bytes ++ rest) = some (n, rest) := by
  induction spells generalizing places with
  | last small =>
    cases places with
    | zero => cases short
    | succ places =>
      rw [List.cons_append, readUpTo, if_pos small]
      rfl
  | more large others ih =>
    cases places with
    | zero => cases short
    | succ places =>
      rw [List.cons_append, readUpTo, if_neg (Nat.not_lt.mpr large),
        ih (Nat.le_of_succ_le_succ short)]
      rfl

theorem Accepted.read (accepted : Accepted n bytes) (rest : Bytes) :
    read? (bytes ++ rest) = some (n, rest) :=
  Option.filter_eq_some_iff.mpr
    ⟨readUpTo_of_spells accepted.spells accepted.short rest, decide_eq_true accepted.fits⟩

/-- A number is read from any spelling of it that is accepted. -/
theorem read?_eq_some_iff :
    read? bytes = some (n, rest) ↔ ∃ spelling, bytes = spelling ++ rest ∧ Accepted n spelling := by
  constructor
  · intro read
    obtain ⟨found, fits⟩ := Option.filter_eq_some_iff.mp read
    obtain ⟨spelling, same, spells, short⟩ := spells_of_readUpTo found
    exact ⟨spelling, same, spells, short, of_decide_eq_true fits⟩
  · rintro ⟨spelling, rfl, accepted⟩
    exact accepted.read rest

/-- What is written is accepted. -/
theorem accepted_write (fits : n < UInt64.size) : Accepted n (write n) := by
  obtain ⟨spelling, same, accepted⟩ := read?_eq_some_iff.mp (read_write [] fits)
  rwa [List.append_cancel_right same]

end

end HardwareSigner.Varint
