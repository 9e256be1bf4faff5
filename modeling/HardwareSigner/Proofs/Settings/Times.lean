import HardwareSigner.Settings.Basic

/-!
# Times that are set and read back

A time is kept as its whole milliseconds, counted modulo 2^64 (`total_time_withTime`). As long as it
has fewer, setting it only rounds it down (`Rounds`). From 2^64 milliseconds on, which is some 584
million years, counting begins anew at zero, and a time that was meant to be endless can come back
as none at all. Only by chance does one of them come back as the longest time there is.

> `EngineSettings.rounds_what_fits`: for which times the settings keep what they were given, and
> what becomes of the others.
-/

namespace HardwareSigner

namespace Duration

/-- The length in nanoseconds. -/
def total (d : Duration) : Nat := d.secs.toNat * 1000000000 + d.nanos.toNat

/-- The number of whole milliseconds. -/
def millis (d : Duration) : Nat := d.total / 1000000

/-- The longest time that can be kept. -/
def longest : Duration := ofMillis (UInt64.ofNat (UInt64.size - 1))

/-- Less than a millisecond is lost, or the time is longer than any that can be kept and the longest
of those is taken for it. -/
def Rounds (given kept : Duration) : Prop :=
  kept.total ≤ given.total ∧ given.total < kept.total + 1000000 ∨
    longest.total < given.total ∧ kept = longest

theorem toNat_toMillis (d : Duration) : d.toMillis.toNat = d.millis % UInt64.size := by
  rw [toMillis, UInt64.toNat_ofNat', millis, total]
  congr 1
  omega

theorem total_ofMillis (ms : UInt64) : (ofMillis ms).total = ms.toNat * 1000000 := by
  have small : ms.toNat % 1000 * 1000000 < UInt32.size := by
    simp only [UInt32.size]
    omega
  rw [total, ofMillis, UInt64.toNat_div, UInt32.toNat_ofNat_of_lt' small]
  have thousand : (1000 : UInt64).toNat = 1000 := rfl
  rw [thousand]
  omega

theorem millis_ofMillis (ms : UInt64) : (ofMillis ms).millis = ms.toNat := by
  rw [millis, total_ofMillis, Nat.mul_div_cancel _ (by decide)]

theorem toMillis_ofMillis (ms : UInt64) : (ofMillis ms).toMillis = ms := by
  rw [← UInt64.toNat_inj, toNat_toMillis, millis_ofMillis, Nat.mod_eq_of_lt ms.toNat_lt_size]

theorem total_longest : longest.total = (UInt64.size - 1) * 1000000 := by
  rw [longest, total_ofMillis]
  rfl

end Duration

/-- The times among the settings of a connection. -/
inductive EngineTime
  | shutdownGrace
  | eofPoll
  | responseTimeout

namespace EngineSettings

open Duration (longest Rounds)

def withTime (s : EngineSettings) (d : Duration) : EngineTime → EngineSettings
  | .shutdownGrace => s.withShutdownGrace d
  | .eofPoll => s.withEofPoll d
  | .responseTimeout => s.withResponseTimeout d

def time (s : EngineSettings) : EngineTime → Duration
  | .shutdownGrace => s.shutdownGrace
  | .eofPoll => s.eofPoll
  | .responseTimeout => s.responseTimeout

variable {s : EngineSettings} {t : EngineTime} {d longer : Duration}

theorem time_withTime : (s.withTime d t).time t = .ofMillis d.toMillis := by
  cases t <;> rfl

/-- Setting a time to what is read back is nothing new. -/
theorem withTime_time : s.withTime (s.time t) t = s := by
  cases t with
  | shutdownGrace =>
    show { s with shutdownGraceMs := (Duration.ofMillis s.shutdownGraceMs).toMillis } = s
    rw [Duration.toMillis_ofMillis]
  | eofPoll =>
    show { s with eofPollMs := (Duration.ofMillis s.eofPollMs).toMillis } = s
    rw [Duration.toMillis_ofMillis]
  | responseTimeout =>
    show { s with responseTimeoutMs := (Duration.ofMillis s.responseTimeoutMs).toMillis } = s
    rw [Duration.toMillis_ofMillis]

theorem total_time_withTime :
    ((s.withTime d t).time t).total = d.millis % UInt64.size * 1000000 := by
  rw [time_withTime, Duration.total_ofMillis, Duration.toNat_toMillis]

theorem time_eq_longest_iff :
    (s.withTime d t).time t = longest ↔ d.millis % UInt64.size = UInt64.size - 1 := by
  rw [← Duration.toNat_toMillis, time_withTime]
  constructor
  · intro same
    have millis := congrArg Duration.millis same
    rwa [Duration.millis_ofMillis, longest, Duration.millis_ofMillis] at millis
  · intro same
    rw [longest, ← same, UInt64.ofNat_toNat]

/-- A time comes back rounded exactly if it has fewer than 2^64 milliseconds, or by chance. -/
theorem rounds_iff : Rounds d ((s.withTime d t).time t) ↔
    d.millis < UInt64.size ∨ d.millis % UInt64.size = UInt64.size - 1 := by
  unfold Rounds
  rw [time_eq_longest_iff, total_time_withTime, Duration.total_longest, Duration.millis]
  simp only [UInt64.size]
  omega

/-- What does not fit loses 2^64 milliseconds at least. -/
theorem total_add_le (long : UInt64.size ≤ d.millis) :
    ((s.withTime d t).time t).total + UInt64.size * 1000000 ≤ d.total := by
  rw [total_time_withTime]
  simp only [Duration.millis, UInt64.size] at long ⊢
  omega

/-- A longer time comes back as the longer one, as long as it fits. -/
theorem total_mono (fits : longer.millis < UInt64.size) (le : d.total ≤ longer.total) :
    ((s.withTime d t).time t).total ≤ ((s.withTime longer t).time t).total := by
  rw [total_time_withTime, total_time_withTime]
  simp only [Duration.millis, UInt64.size] at fits ⊢
  omega

/-- What is read back is the number of whole milliseconds modulo 2^64. It is the time that was set,
rounded, if there are fewer than 2^64 milliseconds, and up to there a longer time comes back as the
longer one. A time with more loses 2^64 milliseconds at least, often all it has; it is by chance if
it comes back as the longest time. Setting a time to what has been read back changes nothing. -/
theorem rounds_what_fits (s : EngineSettings) (t : EngineTime) (d : Duration) :
    ((s.withTime d t).time t).total = d.millis % UInt64.size * 1000000 ∧
    (Rounds d ((s.withTime d t).time t) ↔
      d.millis < UInt64.size ∨ d.millis % UInt64.size = UInt64.size - 1) ∧
    (UInt64.size ≤ d.millis →
      ((s.withTime d t).time t).total + UInt64.size * 1000000 ≤ d.total) ∧
    (∀ longer : Duration, longer.millis < UInt64.size → d.total ≤ longer.total →
      ((s.withTime d t).time t).total ≤ ((s.withTime longer t).time t).total) ∧
    (s.withTime d t).withTime ((s.withTime d t).time t) t = s.withTime d t :=
  ⟨total_time_withTime, rounds_iff, total_add_le, fun _ => total_mono, withTime_time⟩

/-- 2^64 milliseconds come back as none at all, and one nanosecond less as the longest time. The
longest duration comes back as the longest time by chance. -/
theorem rounds_what_fits_to_the_brim :
    (withTime {} ⟨18446744073709551, 616000000⟩ .shutdownGrace).time .shutdownGrace = ⟨0, 0⟩ ∧
    ¬Rounds ⟨18446744073709551, 616000000⟩
      ((withTime {} ⟨18446744073709551, 616000000⟩ .shutdownGrace).time .shutdownGrace) ∧
    Rounds ⟨18446744073709551, 615999999⟩
      ((withTime {} ⟨18446744073709551, 615999999⟩ .eofPoll).time .eofPoll) ∧
    Rounds ⟨18446744073709551615, 999999999⟩
      ((withTime {} ⟨18446744073709551615, 999999999⟩ .eofPoll).time .eofPoll) ∧
    ((withTime {} ⟨18446744073709551, 616000000⟩ .shutdownGrace).time .shutdownGrace).total +
      UInt64.size * 1000000 ≤ Duration.total ⟨18446744073709551, 616000000⟩ ∧
    ((withTime {} ⟨3, 999999999⟩ .eofPoll).time .eofPoll).total ≤
      ((withTime {} ⟨18446744073709551, 615999999⟩ .eofPoll).time .eofPoll).total := by
  obtain ⟨-, long, lost, -⟩ :=
    rounds_what_fits {} .shutdownGrace ⟨18446744073709551, 616000000⟩
  obtain ⟨-, fits, -⟩ := rounds_what_fits {} .eofPoll ⟨18446744073709551, 615999999⟩
  obtain ⟨-, chance, -⟩ := rounds_what_fits {} .eofPoll ⟨18446744073709551615, 999999999⟩
  obtain ⟨-, -, -, mono, -⟩ := rounds_what_fits {} .eofPoll ⟨3, 999999999⟩
  refine ⟨rfl, ?_, fits.mpr (.inl (by decide)), chance.mpr (.inr (by decide)), lost (by decide),
    mono ⟨18446744073709551, 615999999⟩ (by decide) (by decide)⟩
  rw [long]
  decide

end EngineSettings

end HardwareSigner
