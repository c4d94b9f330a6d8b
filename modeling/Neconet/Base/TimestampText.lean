import Neconet.Lib.Calendar
import Neconet.Lib.Printf

/-!
# The texts of a `CTimestamp`

`ToString` and `ToFormattedString` of `base/CTimestamp.cpp`, which the program prints with every
expired timer and every message. The quotient and the remainder of a negative count are those of
C++, towards zero; `gmtime_r` is the calendar of `Lib/Calendar.lean`.

* `CTimestamp`, `toString`, `toFormattedString`: a time, and its two texts.
* `dateTime_gmtime_inj`: the date and the time of day in the text determine the second.
* `toString_sorts`, `toFormattedString_sorts`: no text is cut off, different times have different
  texts, and the texts sort as the times do, as long as the numbers in them fill their places.
-/

namespace Neconet

open Printf Calendar SortedText

/-- A point of time.
Source: `base/CTimestamp.h` -/
@[ext] structure CTimestamp where
  /-- `m_nMicroSecondsSinceEpoch`. -/
  microSecondsSinceEpoch : ℤ
  /-- It has 64 bits. -/
  inRange : -2 ^ 63 ≤ microSecondsSinceEpoch ∧ microSecondsSinceEpoch < 2 ^ 63
  deriving DecidableEq

namespace CTimestamp

/-- Source: `base/CTimestamp.h`, `operator<`, `operator<=` -/
instance : LinearOrder CTimestamp :=
  LinearOrder.lift' microSecondsSinceEpoch fun _ _ h => CTimestamp.ext h

/-- `sm_nMicroSecondsPerSecond`. -/
def microSecondsPerSecond : ℤ := 1000 * 1000

/-- Source: `base/CTimestamp.cpp`, `CTimestamp::GetSecondsSinceEpoch` -/
def getSecondsSinceEpoch (t : CTimestamp) : ℤ := t.microSecondsSinceEpoch.tdiv microSecondsPerSecond

/-- The microseconds behind the point, with the sign of the count. -/
def microseconds (t : CTimestamp) : ℤ := t.microSecondsSinceEpoch.tmod microSecondsPerSecond

/-- Source: `base/CTimestamp.cpp`, `CTimestamp::ToString` -/
def toString (t : CTimestamp) : List Char :=
  snprintf (32 - 1) (zeroPadded 0 t.getSecondsSinceEpoch ++ '.' :: zeroPadded 6 t.microseconds)

/-- `struct tm`. -/
structure Tm where
  /-- `tm_sec`. -/
  sec : ℤ
  /-- `tm_min`. -/
  min : ℤ
  /-- `tm_hour`. -/
  hour : ℤ
  /-- `tm_mday`. -/
  mday : ℤ
  /-- `tm_mon`. -/
  mon : ℤ
  /-- `tm_year`. -/
  year : ℤ
  deriving DecidableEq, Repr

/-- `gmtime_r`. -/
def gmtime (tSeconds : ℤ) : Tm :=
  let date := ofDayNumber (tSeconds / 86400)
  let rem := tSeconds % 86400
  { sec := rem % 3600 % 60
    min := rem % 3600 / 60
    hour := rem / 3600
    mday := date.day + 1
    mon := date.month
    year := date.year - 1900 }

/-- `%4d%02d%02d %02d:%02d:%02d`. -/
def dateTime (tmTime : Tm) : List Char :=
  blankPadded 4 (tmTime.year + 1900) ++ zeroPadded 2 (tmTime.mon + 1) ++ zeroPadded 2 tmTime.mday ++
    ' ' :: zeroPadded 2 tmTime.hour ++ ':' :: zeroPadded 2 tmTime.min ++ ':' :: zeroPadded 2 tmTime.sec

/-- Source: `base/CTimestamp.cpp`, `CTimestamp::ToFormattedString` -/
def toFormattedString (t : CTimestamp) (bShowMicroseconds : Bool) : List Char :=
  let tmTime := gmtime t.getSecondsSinceEpoch
  if bShowMicroseconds then snprintf 64 (dateTime tmTime ++ '.' :: zeroPadded 6 t.microseconds)
  else snprintf 64 (dateTime tmTime)

/-! ## Seconds and microseconds -/

/-- The two parts are the time. -/
theorem seconds_microseconds (t : CTimestamp) :
    t.getSecondsSinceEpoch * microSecondsPerSecond + t.microseconds = t.microSecondsSinceEpoch := by
  rw [getSecondsSinceEpoch, microseconds, Int.mul_comm]
  exact Int.mul_tdiv_add_tmod _ _

/-- The parts determine the time. -/
theorem eq_of_parts {s t : CTimestamp} (hsec : s.getSecondsSinceEpoch = t.getSecondsSinceEpoch)
    (hmicro : s.microseconds = t.microseconds) : s = t := by
  apply CTimestamp.ext
  rw [← seconds_microseconds s, hsec, hmicro, seconds_microseconds]

/-- There are less than a million microseconds. -/
theorem natAbs_microseconds_lt (t : CTimestamp) : t.microseconds.natAbs < 10 ^ 6 := by
  have hlt := Int.natAbs_tmod t.microSecondsSinceEpoch microSecondsPerSecond
  rw [microseconds, hlt]
  exact Nat.mod_lt _ (by decide)

/-- What 64 bits leave for the seconds. -/
theorem seconds_bounds (t : CTimestamp) :
    -9223372036855 ≤ t.getSecondsSinceEpoch ∧ t.getSecondsSinceEpoch ≤ 9223372036855 := by
  have hparts := seconds_microseconds t
  have hmicro := natAbs_microseconds_lt t
  have hrange := t.inRange
  unfold microSecondsPerSecond at hparts
  omega

/-- From 1970 on the parts are the quotient and the remainder. -/
theorem parts_of_nonneg {t : CTimestamp} (h : 0 ≤ t.microSecondsSinceEpoch) :
    t.getSecondsSinceEpoch = t.microSecondsSinceEpoch / 1000000 ∧
      t.microseconds = t.microSecondsSinceEpoch % 1000000 :=
  ⟨Int.tdiv_eq_ediv_of_nonneg h, Int.tmod_eq_emod_of_nonneg h⟩

/-- The characters of a number are no separators. -/
theorem not_mem_zeroPadded {ch : Char} (hminus : ch ≠ '-') (hdigit : ¬ ch.isDigit = true) (w : ℕ)
    (n : ℤ) : ch ∉ zeroPadded w n := by
  intro h
  rcases of_mem_zeroPadded h with h | h
  · exact hminus h
  · exact hdigit h

/-- The part behind the point sorts, from 1970 on. -/
theorem sorts_point : Sorts (fun n => '.' :: zeroPadded 6 n) {n | 0 ≤ n ∧ n < 1000000} 7 :=
  (sorts_zeroPadded (by decide)).cons '.'

/-! ## `ToString` -/

/-- **The text is not cut off.** -/
theorem toString_eq (t : CTimestamp) :
    t.toString = zeroPadded 0 t.getSecondsSinceEpoch ++ '.' :: zeroPadded 6 t.microseconds := by
  have hbounds := t.seconds_bounds
  have hsec : (zeroPadded 0 t.getSecondsSinceEpoch).length ≤ 13 + 1 :=
    length_zeroPadded_le (by decide) (by omega) (by decide)
  have hmicro : (zeroPadded 6 t.microseconds).length ≤ 6 + 1 :=
    length_zeroPadded_le (by decide) t.natAbs_microseconds_lt le_rfl
  apply snprintf_of_lt
  rw [List.length_append, List.length_cons]
  omega

/-- **Different times have different texts, and times whose seconds have equally many digits sort as
their texts.** -/
theorem toString_sorts : Function.Injective toString ∧
    ∀ k, StrictMonoOn toString {t | 10 ^ (k + 6) ≤ t.microSecondsSinceEpoch ∧
      t.microSecondsSinceEpoch < 10 ^ (k + 7)} := by
  constructor
  · intro s t h
    rw [toString_eq, toString_eq, List.append_cons_inj_of_notMem
      (not_mem_zeroPadded (by decide) (by decide) _ _)
      (not_mem_zeroPadded (by decide) (by decide) _ _)] at h
    exact eq_of_parts (zeroPadded_injective 0 h.1) (zeroPadded_injective 6 h.2.2)
  · intro k s hs t ht hlt
    have hsorts := (sorts_zeroPadded_zero k).divMod (by decide : (0 : ℤ) < 1000000) sorts_point
    have hnonneg : ∀ n : ℤ, 10 ^ (k + 6) ≤ n → 0 ≤ n :=
      fun n hn => (pow_nonneg (by norm_num) (k + 6)).trans hn
    have hmem : ∀ n : ℤ, 10 ^ (k + 6) ≤ n ∧ n < 10 ^ (k + 7) →
        10 ^ k ≤ n / 1000000 ∧ n / 1000000 < 10 ^ (k + 1) := by
      intro n hn
      have hlow : (10 : ℤ) ^ (k + 6) = 10 ^ k * 1000000 := by rw [pow_add]; norm_num
      have hhigh : (10 : ℤ) ^ (k + 7) = 10 ^ (k + 1) * 1000000 := by rw [pow_add, pow_add]; norm_num; ring
      rw [hlow, hhigh] at hn
      generalize (10 : ℤ) ^ k = a at hn ⊢
      omega
    have hs' := parts_of_nonneg (hnonneg _ hs.1)
    have ht' := parts_of_nonneg (hnonneg _ ht.1)
    rw [toString_eq, toString_eq, hs'.1, hs'.2, ht'.1, ht'.2]
    exact hsorts.strictMonoOn (hmem _ hs) (hmem _ ht) hlt

/-- The theorem on two times within two seconds. -/
theorem toString_sorts_seconds :
    toString ⟨1999999, by decide⟩ < toString ⟨2000000, by decide⟩ ∧
      toString ⟨1999999, by decide⟩ = "1.999999".toList :=
  ⟨toString_sorts.2 0 ⟨by decide, by decide⟩ ⟨by decide, by decide⟩
    (by decide : (1999999 : ℤ) < 2000000), by decide⟩

/-! ## The fields of `struct tm` -/

/-- A year ends where the next one begins. -/
theorem year_lt_iff {n y : ℤ} : (ofDayNumber n).year < y ↔ n < yearStart y - epoch := by
  have hspec := yearOf_spec (n + epoch)
  change yearOf (n + epoch) < y ↔ _
  constructor
  · intro h
    have hmono := yearStart_mono (Int.add_one_le_of_lt h)
    omega
  · intro h
    by_contra hlate
    have hmono := yearStart_mono (not_lt.mp hlate)
    omega

/-- Two digits sort. -/
theorem sorts_two : Sorts (zeroPadded 2) {n | 0 ≤ n ∧ n < 100} 2 := sorts_zeroPadded (by decide)

/-- Two digits of a number that is counted from 0. -/
theorem sorts_two_succ : Sorts (fun k : ℕ => zeroPadded 2 ((k : ℤ) + 1)) {k | k < 31} 2 := by
  apply sorts_two.comp (k := fun k : ℕ => (k : ℤ) + 1)
  · intro a _ b _ hlt
    exact Int.add_lt_add_right (Int.ofNat_lt.mpr hlt) 1
  · intro k hk
    change k < 31 at hk
    change 0 ≤ (k : ℤ) + 1 ∧ (k : ℤ) + 1 < 100
    omega

/-- `%02d:%02d` of the minute and the second of an hour. -/
def minuteText (r : ℤ) : List Char := zeroPadded 2 (r / 60) ++ ':' :: zeroPadded 2 (r % 60)

/-- `%02d:%02d:%02d` of a second of the day. -/
def clockText (r : ℤ) : List Char := zeroPadded 2 (r / 3600) ++ ':' :: minuteText (r % 3600)

/-- `%02d%02d` of month and day of the month, both counted from 0. -/
def monthDayText (p : ℕ ×ₗ ℕ) : List Char :=
  zeroPadded 2 (((ofLex p).1 : ℤ) + 1) ++ zeroPadded 2 (((ofLex p).2 : ℤ) + 1)

/-- The text behind the year. -/
def behindYear (q : (ℕ ×ₗ ℕ) ×ₗ ℤ) : List Char :=
  monthDayText (ofLex q).1 ++ ' ' :: clockText (ofLex q).2

/-- Minutes and seconds sort. -/
theorem sorts_minuteText : Sorts minuteText {r | 0 ≤ r ∧ r < 3600} 5 := by
  have hseconds : Sorts (fun r => ':' :: zeroPadded 2 r) {r | 0 ≤ r ∧ r < 60} 3 :=
    (sorts_two.mono fun r hr => ⟨hr.1, hr.2.trans (by decide)⟩).cons ':'
  refine (sorts_two.divMod (by decide) hseconds).mono fun r hr => ?_
  change 0 ≤ r ∧ r < 3600 at hr
  change 0 ≤ r / 60 ∧ r / 60 < 100
  omega

/-- The times of a day sort. -/
theorem sorts_clockText : Sorts clockText {r | 0 ≤ r ∧ r < 86400} 8 := by
  refine (sorts_two.divMod (by decide) (sorts_minuteText.cons ':')).mono fun r hr => ?_
  change 0 ≤ r ∧ r < 86400 at hr
  change 0 ≤ r / 3600 ∧ r / 3600 < 100
  omega

/-- The days of a year sort. -/
theorem sorts_monthDayText :
    Sorts monthDayText {p | (ofLex p).1 < 31 ∧ (ofLex p).2 < 31} 4 :=
  sorts_two_succ.append sorts_two_succ

/-- The seconds of a year sort. -/
theorem sorts_behindYear : Sorts behindYear
    {q | ((ofLex (ofLex q).1).1 < 31 ∧ (ofLex (ofLex q).1).2 < 31) ∧
      0 ≤ (ofLex q).2 ∧ (ofLex q).2 < 86400} 13 :=
  sorts_monthDayText.append (sorts_clockText.cons ' ')

/-- Years of four digits sort. -/
theorem sorts_year : Sorts (blankPadded 4) {y | 1000 ≤ y ∧ y < 10000} 4 := sorts_blankPadded 3

/-! ## `ToFormattedString` -/

/-- The second of the year, as its text has it. -/
def secondOfYear (n : ℤ) : (ℕ ×ₗ ℕ) ×ₗ ℤ :=
  toLex (toLex ((ofDayNumber (n / 86400)).month, (ofDayNumber (n / 86400)).day), n % 86400)

/-- Its text has a fixed length. -/
theorem secondOfYear_mem (n : ℤ) : secondOfYear n ∈ {q : (ℕ ×ₗ ℕ) ×ₗ ℤ |
    ((ofLex (ofLex q).1).1 < 31 ∧ (ofLex (ofLex q).1).2 < 31) ∧
      0 ≤ (ofLex q).2 ∧ (ofLex q).2 < 86400} := by
  have hmonth := (ofDayNumber (n / 86400)).month_lt
  have hday := (ofDayNumber (n / 86400)).day_lt
  exact ⟨⟨hmonth.trans (by decide), hday.trans_le (daysOfMonth_le _ hmonth)⟩,
    Int.emod_nonneg n (by decide), Int.emod_lt_of_pos n (by decide)⟩

/-- **The text of a second**: the year, and what is behind it. -/
theorem dateTime_gmtime (n : ℤ) : dateTime (gmtime n) =
    blankPadded 4 (ofDayNumber (n / 86400)).year ++ behindYear (secondOfYear n) := by
  have hyear : (gmtime n).year + 1900 = (ofDayNumber (n / 86400)).year := Int.sub_add_cancel _ _
  rw [dateTime, hyear]
  simp only [behindYear, monthDayText, clockText, minuteText, secondOfYear, gmtime, ofLex_toLex,
    List.append_assoc, List.cons_append]

/-- **The text determines the second**, in every year. -/
theorem dateTime_gmtime_inj {m n : ℤ} : dateTime (gmtime m) = dateTime (gmtime n) ↔ m = n := by
  refine ⟨fun h => ?_, fun h => by rw [h]⟩
  have hlen := sorts_behindYear.length_eq _ (secondOfYear_mem m)
  rw [← sorts_behindYear.length_eq _ (secondOfYear_mem n)] at hlen
  rw [dateTime_gmtime, dateTime_gmtime] at h
  obtain ⟨hyear, hbehind⟩ := List.append_inj' h hlen
  have hsecond := sorts_behindYear.strictMonoOn.injOn (secondOfYear_mem m) (secondOfYear_mem n) hbehind
  have hmonth : (ofDayNumber (m / 86400)).month = (ofDayNumber (n / 86400)).month :=
    congrArg (fun q => (ofLex (ofLex q).1).1) hsecond
  have hdayOfMonth : (ofDayNumber (m / 86400)).day = (ofDayNumber (n / 86400)).day :=
    congrArg (fun q => (ofLex (ofLex q).1).2) hsecond
  have hdate : ofDayNumber (m / 86400) = ofDayNumber (n / 86400) :=
    Date.ext (blankPadded_injective 4 hyear) hmonth hdayOfMonth
  have hday := congrArg dayNumber hdate
  rw [dayNumber_ofDayNumber, dayNumber_ofDayNumber] at hday
  have hrest : m % 86400 = n % 86400 := congrArg (fun q => (ofLex q).2) hsecond
  omega

/-- The days of four-digit years sort. -/
theorem sorts_dateText : Sorts
    (fun d => blankPadded 4 (ofDayNumber d).year ++
      monthDayText (toLex ((ofDayNumber d).month, (ofDayNumber d).day)))
    {d | 1000 ≤ (ofDayNumber d).year ∧ (ofDayNumber d).year < 10000} 8 := by
  have hmem : ∀ d : ℤ, (ofDayNumber d).month < 31 ∧ (ofDayNumber d).day < 31 := by
    intro d
    have hmonth := (ofDayNumber d).month_lt
    have hday := (ofDayNumber d).day_lt
    exact ⟨hmonth.trans (by decide), hday.trans_le (daysOfMonth_le _ hmonth)⟩
  have hfields := strictMono_fields.strictMonoOn
    {d | 1000 ≤ (ofDayNumber d).year ∧ (ofDayNumber d).year < 10000}
  have hsorts := (sorts_year.append sorts_monthDayText).comp hfields
  apply hsorts
  intro d hd
  exact ⟨hd, hmem d⟩

/-- From the start of 1970 to the end of 9999. -/
def FourDigits (tSeconds : ℤ) : Prop := 0 ≤ tSeconds ∧ tSeconds < 253402300800

/-- **Seconds sort as their texts.** -/
theorem sorts_dateTime : Sorts (fun n => dateTime (gmtime n)) {n | FourDigits n} 17 := by
  have hdays := sorts_dateText.divMod (by decide : (0 : ℤ) < 86400) (sorts_clockText.cons ' ')
  refine (hdays.mono ?_).congr ?_
  · intro n hn
    change 0 ≤ n ∧ n < 253402300800 at hn
    have hlow : ¬ (ofDayNumber (n / 86400)).year < 1000 := by
      rw [year_lt_iff]
      have hstart : yearStart 1000 - epoch = -354285 := rfl
      omega
    have hhigh : (ofDayNumber (n / 86400)).year < 10000 := by
      rw [year_lt_iff]
      have hstart : yearStart 10000 - epoch = 2932897 := rfl
      omega
    exact ⟨not_lt.mp hlow, hhigh⟩
  · intro n _
    rw [dateTime_gmtime, behindYear, secondOfYear, List.append_assoc]
    rfl

/-- The years that 64 bits of microseconds reach have up to six digits. -/
theorem length_dateTime_le (t : CTimestamp) :
    (dateTime (gmtime t.getSecondsSinceEpoch)).length ≤ 20 := by
  have hbounds := t.seconds_bounds
  have hlow : ¬ (ofDayNumber (t.getSecondsSinceEpoch / 86400)).year < -999999 := by
    rw [year_lt_iff]
    have hstart : yearStart (-999999) - epoch = -365961662 := rfl
    omega
  have hhigh : (ofDayNumber (t.getSecondsSinceEpoch / 86400)).year < 1000000 := by
    rw [year_lt_iff]
    have hstart : yearStart 1000000 - epoch = 364522972 := rfl
    omega
  have hyear : (blankPadded 4 (ofDayNumber (t.getSecondsSinceEpoch / 86400)).year).length ≤ 6 + 1 :=
    length_blankPadded_le (by decide) (by omega) (by decide)
  rw [dateTime_gmtime, List.length_append, sorts_behindYear.length_eq _ (secondOfYear_mem _)]
  omega

/-- **The text is not cut off.** -/
theorem toFormattedString_eq (t : CTimestamp) :
    t.toFormattedString true =
        dateTime (gmtime t.getSecondsSinceEpoch) ++ '.' :: zeroPadded 6 t.microseconds ∧
      t.toFormattedString false = dateTime (gmtime t.getSecondsSinceEpoch) := by
  have hdate := t.length_dateTime_le
  have hmicro : (zeroPadded 6 t.microseconds).length ≤ 6 + 1 :=
    length_zeroPadded_le (by decide) t.natAbs_microseconds_lt le_rfl
  constructor
  · apply snprintf_of_lt
    rw [List.length_append, List.length_cons]
    omega
  · apply snprintf_of_lt
    omega

/-- There is no point in a date. -/
theorem point_not_mem_dateTime (n : ℤ) : '.' ∉ dateTime (gmtime n) := by
  have hnumber : ∀ w m, '.' ∉ zeroPadded w m := not_mem_zeroPadded (by decide) (by decide)
  have hyear : ∀ m, '.' ∉ blankPadded 4 m := by
    intro m h
    rcases List.mem_append.mp h with h | h
    · exact absurd (List.eq_of_mem_replicate h) (by decide)
    · exact hnumber 0 m h
  simp [dateTime, hnumber, hyear]

/-- **Every date is printed**: each time of each day of these years is the text of some time. -/
theorem exists_toFormattedString (date : Date) {r u : ℤ}
    (hyear : 1970 ≤ date.year ∧ date.year < 10000) (hr : 0 ≤ r ∧ r < 86400)
    (hu : 0 ≤ u ∧ u < 1000000) :
    ∃ t : CTimestamp, FourDigits t.getSecondsSinceEpoch ∧ t.toFormattedString true =
      blankPadded 4 date.year ++ behindYear (toLex (toLex (date.month, date.day), r)) ++
        '.' :: zeroPadded 6 u := by
  have hdate := ofDayNumber_dayNumber date
  have hlow : 0 ≤ dayNumber date := by
    have hspec := year_lt_iff (n := dayNumber date) (y := 1970)
    have hstart : yearStart 1970 - epoch = 0 := rfl
    rw [hdate, hstart] at hspec
    omega
  have hhigh : dayNumber date < 2932897 := by
    have hspec := year_lt_iff (n := dayNumber date) (y := 10000)
    have hstart : yearStart 10000 - epoch = 2932897 := rfl
    rwa [hdate, hstart, eq_true hyear.2, true_iff] at hspec
  let t : CTimestamp := ⟨(dayNumber date * 86400 + r) * 1000000 + u, by omega⟩
  have hmicros : t.microSecondsSinceEpoch = (dayNumber date * 86400 + r) * 1000000 + u := rfl
  have hparts := parts_of_nonneg (t := t) (by omega)
  have hsec : t.getSecondsSinceEpoch = dayNumber date * 86400 + r := by
    rw [hparts.1, hmicros]
    omega
  have hmicro : t.microseconds = u := by
    rw [hparts.2, hmicros]
    omega
  have hday : (dayNumber date * 86400 + r) / 86400 = dayNumber date := by omega
  have hrest : (dayNumber date * 86400 + r) % 86400 = r := by omega
  refine ⟨t, ?_, ?_⟩
  · rw [hsec]
    constructor <;> omega
  · rw [t.toFormattedString_eq.1, hsec, hmicro, dateTime_gmtime, secondOfYear, hday, hrest, hdate]

/-- **Different times have different texts**, and without the microseconds different seconds have;
from 1970 to 9999 times sort as their texts. -/
theorem toFormattedString_sorts :
    Function.Injective (toFormattedString · true) ∧
    (∀ s t : CTimestamp, s.toFormattedString false = t.toFormattedString false ↔
      s.getSecondsSinceEpoch = t.getSecondsSinceEpoch) ∧
    StrictMonoOn (toFormattedString · true)
      {t | 0 ≤ t.microSecondsSinceEpoch ∧ FourDigits t.getSecondsSinceEpoch} ∧
    ∀ s t : CTimestamp, FourDigits s.getSecondsSinceEpoch → FourDigits t.getSecondsSinceEpoch →
      (s.toFormattedString false < t.toFormattedString false ↔
        s.getSecondsSinceEpoch < t.getSecondsSinceEpoch) := by
  refine ⟨?_, ?_, ?_, ?_⟩
  · intro s t h
    change s.toFormattedString true = t.toFormattedString true at h
    rw [s.toFormattedString_eq.1, t.toFormattedString_eq.1, List.append_cons_inj_of_notMem
      (point_not_mem_dateTime _) (not_mem_zeroPadded (by decide) (by decide) _ _)] at h
    exact eq_of_parts (dateTime_gmtime_inj.mp h.1) (zeroPadded_injective 6 h.2.2)
  · intro s t
    rw [s.toFormattedString_eq.2, t.toFormattedString_eq.2, dateTime_gmtime_inj]
  · intro s hs t ht hlt
    have hsorts := sorts_dateTime.divMod (by decide : (0 : ℤ) < 1000000) sorts_point
    obtain ⟨hs0, hs⟩ := hs
    obtain ⟨ht0, ht⟩ := ht
    have hs' := parts_of_nonneg hs0
    have ht' := parts_of_nonneg ht0
    rw [hs'.1] at hs
    rw [ht'.1] at ht
    change s.toFormattedString true < t.toFormattedString true
    rw [s.toFormattedString_eq.1, t.toFormattedString_eq.1, hs'.1, hs'.2, ht'.1, ht'.2]
    exact hsorts.strictMonoOn hs ht hlt
  · intro s t hs ht
    rw [s.toFormattedString_eq.2, t.toFormattedString_eq.2]
    exact sorts_dateTime.strictMonoOn.lt_iff_lt hs ht

/-- The theorem at the end of a leap day. -/
theorem toFormattedString_sorts_leapDay :
    toFormattedString ⟨951868799999999, by decide⟩ true <
        toFormattedString ⟨951868800000000, by decide⟩ true ∧
      toFormattedString ⟨951868799999999, by decide⟩ true = "20000229 23:59:59.999999".toList :=
  ⟨toFormattedString_sorts.2.2.1 ⟨by decide, by decide, by decide⟩ ⟨by decide, by decide, by decide⟩
    (by decide : (951868799999999 : ℤ) < 951868800000000), by decide⟩

/-- Before 1970 the microseconds have a sign. -/
example : toFormattedString ⟨-1, by decide⟩ true = "19700101 00:00:00.-00001".toList := by decide

end CTimestamp

end Neconet
