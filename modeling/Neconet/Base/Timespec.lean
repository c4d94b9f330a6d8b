import Mathlib.Order.Monotone.Defs
import Mathlib.Tactic

/-!
# `struct timespec`

Times and durations in seconds and nanoseconds, and two functions of `base/` that compute one:
`CCondition::WaitForSeconds` of `base/CCondition.cpp` and `CurrentThread::SleepUsec` of
`base/CurrentThread.cpp`. The fields are integers; the additions of the source on them do not
overflow.

* `Timespec`, `Timespec.nanoseconds`, `Timespec.Normalised`: a time, its length in nanoseconds, and
  what the system calls demand of the fields.
* `CCondition.abstime`: the instant until which `WaitForSeconds` waits. The carry into the seconds
  is taken from the seconds.
* `CCondition.waitsUntil_iff`: it is the right one exactly if that carry happens to be right.
* `CurrentThread.sleepUsec`: what `SleepUsec` passes to `nanosleep`.
-/

namespace Neconet

/-- `struct timespec`. -/
structure Timespec where
  sec : ℤ
  nsec : ℤ
  deriving DecidableEq, Repr

namespace Timespec

/-- The time in nanoseconds. -/
def nanoseconds (t : Timespec) : ℤ := t.sec * 1000000000 + t.nsec

/-- The nanoseconds are less than a second. -/
def Normalised (t : Timespec) : Prop := 0 ≤ t.nsec ∧ t.nsec < 1000000000

instance (t : Timespec) : Decidable t.Normalised :=
  inferInstanceAs (Decidable (0 ≤ t.nsec ∧ t.nsec < 1000000000))

/-- Two normalised times of the same length are equal. -/
theorem Normalised.eq_of_nanoseconds {t t' : Timespec} (h : t.Normalised) (h' : t'.Normalised)
    (heq : t.nanoseconds = t'.nanoseconds) : t = t' := by
  obtain ⟨hnonneg, hlt⟩ := h
  obtain ⟨hnonneg', hlt'⟩ := h'
  unfold nanoseconds at heq
  have hsec : t.sec = t'.sec := by omega
  have hnsec : t.nsec = t'.nsec := by omega
  cases t
  cases t'
  exact congrArg₂ Timespec.mk hsec hnsec

end Timespec

/-! ## `WaitForSeconds` -/

namespace CCondition

/-- The `abstime` that `WaitForSeconds` passes to `pthread_cond_timedwait`: `now` is what
`clock_gettime` stores, `nanoSeconds` is `dSeconds * kNanoSecondsPerSecond` after the cast.
Source: `base/CCondition.cpp`, `CCondition::WaitForSeconds` -/
def abstime (now : Timespec) (nanoSeconds : ℤ) : Timespec where
  -- the source adds to `tv_sec` here, not to `tv_nsec`
  sec := now.sec + (now.sec + nanoSeconds).tdiv 1000000000
  nsec := (now.nsec + nanoSeconds).tmod 1000000000

/-- What a caller expects of `WaitForSeconds`: the instant is normalised, and is `nanoSeconds` after
`now`. -/
def WaitsUntil (now : Timespec) (nanoSeconds : ℤ) : Prop :=
  (abstime now nanoSeconds).Normalised ∧
    (abstime now nanoSeconds).nanoseconds = now.nanoseconds + nanoSeconds

/-- With the part of the duration below a second added, the seconds and the nanoseconds of `now`
carry alike: both stay below `10 ^ 9`, or both reach it, and the seconds not twice. -/
def CarriesAlike (now : Timespec) (nanoSeconds : ℤ) : Prop :=
  now.sec + nanoSeconds % 1000000000 < 1000000000 ∧
      now.nsec + nanoSeconds % 1000000000 < 1000000000 ∨
    1000000000 ≤ now.sec + nanoSeconds % 1000000000 ∧
      now.sec + nanoSeconds % 1000000000 < 2000000000 ∧
      1000000000 ≤ now.nsec + nanoSeconds % 1000000000

section abstime

variable {now : Timespec} {nanoSeconds : ℤ}

/-- The instant, in nanoseconds: the duration is added, and the difference of the two carries. -/
theorem nanoseconds_abstime (hsec : 0 ≤ now.sec) (hnsec : 0 ≤ now.nsec) (h : 0 ≤ nanoSeconds) :
    (abstime now nanoSeconds).nanoseconds = now.nanoseconds + nanoSeconds +
      ((now.sec + nanoSeconds) / 1000000000 - (now.nsec + nanoSeconds) / 1000000000) *
        1000000000 := by
  have hdiv : (now.sec + nanoSeconds).tdiv 1000000000 = (now.sec + nanoSeconds) / 1000000000 :=
    Int.tdiv_eq_ediv_of_nonneg (by omega)
  have hmod : (now.nsec + nanoSeconds).tmod 1000000000 = (now.nsec + nanoSeconds) % 1000000000 :=
    Int.tmod_eq_emod_of_nonneg (by omega)
  simp only [abstime, Timespec.nanoseconds, hdiv, hmod]
  omega

/-- The instant is always normalised. -/
theorem normalised_abstime (hnsec : 0 ≤ now.nsec) (h : 0 ≤ nanoSeconds) :
    (abstime now nanoSeconds).Normalised := by
  have hsum : 0 ≤ now.nsec + nanoSeconds := by omega
  exact ⟨Int.tmod_nonneg _ hsum, Int.tmod_lt_of_pos _ (by decide)⟩

/-- The instant is the right one if the carry is. -/
theorem waitsUntil_iff_carry (hsec : 0 ≤ now.sec) (hnow : now.Normalised) (h : 0 ≤ nanoSeconds) :
    WaitsUntil now nanoSeconds ↔
      (now.sec + nanoSeconds) / 1000000000 = (now.nsec + nanoSeconds) / 1000000000 := by
  have hexact := nanoseconds_abstime hsec hnow.1 h
  constructor
  · rintro ⟨-, heq⟩
    omega
  · intro hcarry
    refine ⟨normalised_abstime hnow.1 h, ?_⟩
    rw [hexact, hcarry, sub_self, zero_mul, add_zero]

/-- The carries are equal if the seconds and the nanoseconds carry alike. -/
theorem carriesAlike_iff (hsec : 0 ≤ now.sec) (hnow : now.Normalised) :
    CarriesAlike now nanoSeconds ↔
      (now.sec + nanoSeconds) / 1000000000 = (now.nsec + nanoSeconds) / 1000000000 := by
  obtain ⟨hnonneg, hlt⟩ := hnow
  have hparts := Int.mul_ediv_add_emod nanoSeconds 1000000000
  unfold CarriesAlike
  omega

/-- Where the nanoseconds begin a new second and the seconds do not reach a multiple of `10 ^ 9`,
one nanosecond more of the duration makes the instant earlier. -/
theorem strictMonoOn_abstime_iff (hsec : 0 ≤ now.sec) (hnow : now.Normalised) :
    StrictMonoOn (fun nanoSeconds => (abstime now nanoSeconds).nanoseconds) {n | 0 ≤ n} ↔
      now.sec % 1000000000 = now.nsec := by
  obtain ⟨hnonneg, hlt⟩ := hnow
  constructor
  · intro hmono
    have hbefore : 0 ≤ 999999999 - now.nsec := by omega
    have hbehind : 0 ≤ 1000000000 - now.nsec := by omega
    have hless := hmono hbefore hbehind (by omega)
    simp only [nanoseconds_abstime hsec hnonneg hbefore,
      nanoseconds_abstime hsec hnonneg hbehind] at hless
    omega
  · intro hmod n hn n' hn' hless
    simp only [nanoseconds_abstime hsec hnonneg hn, nanoseconds_abstime hsec hnonneg hn']
    omega

/-- **`WaitForSeconds` waits until the right instant exactly if the carry happens to be right.**
From a valid current time: for a duration of `nanoSeconds`, the instant is normalised and is
`now + nanoSeconds` if and only if the seconds and the nanoseconds of `now` carry alike with it; and
the instants grow strictly with the duration if and only if the two fields agree modulo `10 ^ 9`. -/
theorem waitsUntil_iff (hsec : 0 ≤ now.sec) (hnow : now.Normalised) :
    (∀ nanoSeconds, 0 ≤ nanoSeconds →
      (WaitsUntil now nanoSeconds ↔ CarriesAlike now nanoSeconds)) ∧
    (StrictMonoOn (fun nanoSeconds => (abstime now nanoSeconds).nanoseconds) {n | 0 ≤ n} ↔
      now.sec % 1000000000 = now.nsec) := by
  refine ⟨?_, strictMonoOn_abstime_iff hsec hnow⟩
  intro nanoSeconds h
  exact (waitsUntil_iff_carry hsec hnow h).trans (carriesAlike_iff hsec hnow).symm

end abstime

/-- The theorem seven seconds and seven nanoseconds after the epoch. -/
theorem waitsUntil_seven : WaitsUntil ⟨7, 7⟩ 1500000000 ∧
    StrictMonoOn (fun nanoSeconds => (abstime ⟨7, 7⟩ nanoSeconds).nanoseconds) {n | 0 ≤ n} := by
  have h := @waitsUntil_iff ⟨7, 7⟩ (by decide) (by decide)
  exact ⟨(h.1 1500000000 (by decide)).mpr (by unfold CarriesAlike; decide), h.2.mpr (by decide)⟩

/-- **A wait of one second in September 2020**: the instant is two seconds away, and a wait that is
one nanosecond shorter ends later. -/
theorem not_waitsUntil_2020 : ∃ (now : Timespec) (nanoSeconds : ℤ), 0 ≤ now.sec ∧ now.Normalised ∧
    0 ≤ nanoSeconds ∧ ¬ WaitsUntil now nanoSeconds ∧
    (abstime now nanoSeconds).nanoseconds < (abstime now (nanoSeconds - 1)).nanoseconds := by
  refine ⟨⟨1600000000, 0⟩, 1000000000, by decide, by decide, by decide, ?_, by decide⟩
  rintro ⟨-, heq⟩
  exact absurd heq (by decide)

end CCondition

/-! ## `SleepUsec` -/

/-- What `SleepUsec` passes to `nanosleep`.
Source: `base/CurrentThread.cpp`, `CurrentThread::SleepUsec` -/
def CurrentThread.sleepUsec (i64Usec : ℤ) : Timespec :=
  ⟨i64Usec.tdiv 1000000, i64Usec.tmod 1000000⟩

end Neconet
