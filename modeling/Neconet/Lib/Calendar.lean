import Mathlib.Data.Nat.Find
import Neconet.Lib.SortedText

/-!
# The calendar

The proleptic Gregorian calendar: the date of a day, counted from 1 January 1970, and the day of a
date.

* `yearStart`, `monthStart`: the days in front of a year, and those of a year in front of a month.
* `Date`, `dayNumber`, `ofDayNumber`: dates, and the two conversions.
* `dayNumber_ofDayNumber`, `ofDayNumber_dayNumber`: each is the inverse of the other.
* `strictMono_fields`: days sort by year, month and day of the month.
-/

namespace Calendar

/-! ## Years -/

/-- The year has 366 days. -/
def isLeap (y : ℤ) : Bool := y % 4 = 0 ∧ (y % 100 ≠ 0 ∨ y % 400 = 0)

/-- The days of the year. -/
def daysOfYear (y : ℤ) : ℤ := if isLeap y then 366 else 365

/-- The days from 1 January of the year 1 to 1 January of the year `y`. -/
def yearStart (y : ℤ) : ℤ := 365 * (y - 1) + (y - 1) / 4 - (y - 1) / 100 + (y - 1) / 400

/-- A year begins when the last one is over. -/
theorem yearStart_succ (y : ℤ) : yearStart (y + 1) = yearStart y + daysOfYear y := by
  have hfour : (y + 1 - 1) / 4 = (y - 1) / 4 + if y % 4 = 0 then 1 else 0 := by
    split_ifs <;> omega
  have hcentury : (y + 1 - 1) / 100 = (y - 1) / 100 + if y % 100 = 0 then 1 else 0 := by
    split_ifs <;> omega
  have hera : (y + 1 - 1) / 400 = (y - 1) / 400 + if y % 400 = 0 then 1 else 0 := by
    split_ifs <;> omega
  unfold yearStart daysOfYear isLeap
  rw [hfour, hcentury, hera]
  simp only [decide_eq_true_eq]
  split_ifs <;> omega

/-- Later years begin later. -/
theorem yearStart_mono : Monotone yearStart := by
  apply monotone_int_of_le_succ
  intro y
  rw [yearStart_succ, daysOfYear]
  split_ifs <;> omega

/-- The year of the day `n` after 1 January of the year 1: whole spans of 400, 100, 4 and 1
years. -/
def yearOf (n : ℤ) : ℤ :=
  let n400 := n / 146097
  let r400 := n % 146097
  let n100 := min (r400 / 36524) 3
  let r100 := r400 - 36524 * n100
  let n4 := r100 / 1461
  let r4 := r100 % 1461
  let n1 := min (r4 / 365) 3
  400 * n400 + 100 * n100 + 4 * n4 + n1 + 1

/-- The days in front of a year, span by span. -/
theorem yearStart_spans {a b c d : ℤ} (hb : 0 ≤ b ∧ b ≤ 3) (hc : 0 ≤ c ∧ c ≤ 24) (hd : 0 ≤ d ∧ d ≤ 3) :
    yearStart (400 * a + 100 * b + 4 * c + d + 1) = 146097 * a + 36524 * b + 1461 * c + 365 * d := by
  have hfour : (400 * a + 100 * b + 4 * c + d) / 4 = 100 * a + 25 * b + c := by omega
  have hcentury : (400 * a + 100 * b + 4 * c + d) / 100 = 4 * a + b := by omega
  have hera : (400 * a + 100 * b + 4 * c + d) / 400 = a := by omega
  rw [yearStart, Int.add_sub_cancel, hfour, hcentury, hera]
  omega

/-- A span that is counted at most three times; the last one may have a day more. -/
theorem span_spec (r span : ℤ) (hspan : 0 < span) (h0 : 0 ≤ r) (hr : r ≤ 4 * span) :
    (0 ≤ min (r / span) 3 ∧ min (r / span) 3 ≤ 3) ∧ span * min (r / span) 3 ≤ r ∧
      r ≤ span * min (r / span) 3 + span ∧
      (r = span * min (r / span) 3 + span → min (r / span) 3 = 3 ∧ r = 4 * span) := by
  have hmod := Int.emod_add_mul_ediv r span
  have hnonneg := Int.emod_nonneg r hspan.ne'
  have hlt := Int.emod_lt_of_pos r hspan
  have hquot := Int.ediv_nonneg h0 hspan.le
  have hmost : r / span ≤ 4 := by
    apply Int.ediv_le_of_le_mul hspan
    omega
  rcases lt_or_eq_of_le hmost with hless | hfour
  · rw [min_eq_left (by omega)]
    omega
  · rw [hfour] at hmod ⊢
    rw [min_eq_right (by omega)]
    omega

/-- The spans of a day, and the days that are left. There are 365 of these only behind a fourth
year, and at the end of a century only behind a fourth century. -/
theorem yearOf_spans (n : ℤ) : ∃ a b c d r, yearOf n = 400 * a + 100 * b + 4 * c + d + 1 ∧
    (0 ≤ b ∧ b ≤ 3) ∧ (0 ≤ c ∧ c ≤ 24) ∧ (0 ≤ d ∧ d ≤ 3) ∧
    n = 146097 * a + 36524 * b + 1461 * c + 365 * d + r ∧ (0 ≤ r ∧ r ≤ 365) ∧
    (r = 365 → d = 3 ∧ (c = 24 → b = 3)) := by
  have hera := Int.emod_add_mul_ediv n 146097
  have hera0 := Int.emod_nonneg n (by decide : (146097 : ℤ) ≠ 0)
  have heralt := Int.emod_lt_of_pos n (by decide : (0 : ℤ) < 146097)
  obtain ⟨hb, hb1, hb2, hb3⟩ :=
    span_spec (n % 146097) 36524 (by decide) hera0 (by omega)
  unfold yearOf
  dsimp only
  generalize n / 146097 = a at *
  generalize n % 146097 = r400 at *
  generalize min (r400 / 36524) 3 = b at *
  have hc := Int.emod_add_mul_ediv (r400 - 36524 * b) 1461
  have hc0 := Int.emod_nonneg (r400 - 36524 * b) (by decide : (1461 : ℤ) ≠ 0)
  have hclt := Int.emod_lt_of_pos (r400 - 36524 * b) (by decide : (0 : ℤ) < 1461)
  obtain ⟨hd, hd1, hd2, hd3⟩ :=
    span_spec ((r400 - 36524 * b) % 1461) 365 (by decide) hc0 (by omega)
  generalize (r400 - 36524 * b) / 1461 = c at *
  generalize (r400 - 36524 * b) % 1461 = r4 at *
  generalize min (r4 / 365) 3 = d at *
  exact ⟨a, b, c, d, r4 - 365 * d, rfl, hb, by omega, hd, by omega, by omega, by omega⟩

/-- **The day is in its year.** -/
theorem yearOf_spec (n : ℤ) : yearStart (yearOf n) ≤ n ∧ n < yearStart (yearOf n + 1) := by
  obtain ⟨a, b, c, d, r, hyear, hb, hc, hd, hn, hr, hlast⟩ := yearOf_spans n
  rw [yearStart_succ, hyear, yearStart_spans hb hc hd]
  refine ⟨by omega, ?_⟩
  unfold daysOfYear isLeap
  simp only [decide_eq_true_eq]
  split_ifs with hleap
  · omega
  · -- Only the last day of a fourth year could be left, and this year is a leap year.
    have hshort : r ≠ 365 := by
      intro h
      obtain ⟨hfourth, hcentury⟩ := hlast h
      omega
    omega

/-- A day lies in one year only. -/
theorem yearOf_eq {n y : ℤ} (h : yearStart y ≤ n) (h' : n < yearStart (y + 1)) : yearOf n = y := by
  obtain ⟨hstart, hend⟩ := yearOf_spec n
  rcases lt_trichotomy (yearOf n) y with hlt | heq | hgt
  · have hmono := yearStart_mono (Int.add_one_le_of_lt hlt)
    omega
  · exact heq
  · have hmono := yearStart_mono (Int.add_one_le_of_lt hgt)
    omega

/-! ## Months -/

/-- The days of a month; January is the month 0. -/
def daysOfMonth (leap : Bool) (m : ℕ) : ℕ :=
  [31, if leap then 29 else 28, 31, 30, 31, 30, 31, 31, 30, 31, 30, 31].getD m 0

/-- A month has up to 31 days. -/
theorem daysOfMonth_le (leap : Bool) {m : ℕ} (hm : m < 12) : daysOfMonth leap m ≤ 31 := by
  have hmonths : ∀ leap : Bool, ∀ m : Fin 12, daysOfMonth leap m ≤ 31 := by decide
  exact hmonths leap ⟨m, hm⟩

/-- The days of the year in front of a month. -/
def monthStart (leap : Bool) : ℕ → ℕ
  | 0 => 0
  | m + 1 => monthStart leap m + daysOfMonth leap m

/-- Later months begin later. -/
theorem monthStart_mono (leap : Bool) : Monotone (monthStart leap) := by
  apply monotone_nat_of_le_succ
  intro m
  exact Nat.le_add_right _ _

/-- The twelve months are the year. -/
theorem monthStart_twelve (y : ℤ) : (monthStart (isLeap y) 12 : ℤ) = daysOfYear y := by
  rw [daysOfYear]
  cases isLeap y <;> rfl

/-- The month of the day `d` of the year. -/
def monthOf (leap : Bool) (d : ℕ) : ℕ := Nat.findGreatest (fun m => monthStart leap m ≤ d) 11

/-- There are twelve months. -/
theorem monthOf_lt (leap : Bool) (d : ℕ) : monthOf leap d < 12 :=
  Nat.lt_succ_of_le (Nat.findGreatest_le 11)

/-- The month of the day has begun. -/
theorem monthStart_monthOf_le (leap : Bool) (d : ℕ) : monthStart leap (monthOf leap d) ≤ d := by
  apply Nat.findGreatest_spec (P := fun m => monthStart leap m ≤ d) (m := 0) (Nat.zero_le 11)
  exact Nat.zero_le d

/-- **The day is in its month.** -/
theorem lt_monthStart_monthOf {leap : Bool} {d : ℕ} (h : d < monthStart leap 12) :
    d < monthStart leap (monthOf leap d + 1) := by
  rcases Nat.lt_or_ge (monthOf leap d) 11 with hlt | hge
  · apply not_le.mp
    exact Nat.findGreatest_is_greatest (P := fun m => monthStart leap m ≤ d) (Nat.lt_succ_self _)
      (Nat.succ_le_of_lt hlt)
  · have hlast := monthStart_mono leap (Nat.succ_le_succ hge)
    exact h.trans_le hlast

/-- A day lies in one month only. -/
theorem monthOf_eq {leap : Bool} {d m : ℕ} (hm : m < 12) (h : monthStart leap m ≤ d)
    (h' : d < monthStart leap (m + 1)) : monthOf leap d = m := by
  apply le_antisymm
  · by_contra hlater
    have hmono := monthStart_mono leap (Nat.add_one_le_iff.mpr (not_le.mp hlater))
    have hstart := monthStart_monthOf_le leap d
    omega
  · exact Nat.le_findGreatest (Nat.le_of_lt_succ hm) h

/-! ## Dates -/

/-- A date of the calendar. -/
@[ext] structure Date where
  /-- The year. -/
  year : ℤ
  /-- The months of the year in front of it. -/
  month : ℕ
  /-- The days of the month in front of it. -/
  day : ℕ
  /-- There are twelve months. -/
  month_lt : month < 12
  /-- The month has this day. -/
  day_lt : day < daysOfMonth (isLeap year) month
  deriving DecidableEq, Repr

/-- 1 January 1970, in days after 1 January of the year 1. -/
def epoch : ℤ := 719162

/-- The day of a date. -/
def dayNumber (date : Date) : ℤ :=
  yearStart date.year + (monthStart (isLeap date.year) date.month + date.day : ℕ) - epoch

/-- The day of the year, counted from 0. -/
def dayOfYear (n : ℤ) : ℕ := (n + epoch - yearStart (yearOf (n + epoch))).toNat

/-- The day of the year, as a number of days behind its start. -/
theorem dayOfYear_eq (n : ℤ) :
    (dayOfYear n : ℤ) = n + epoch - yearStart (yearOf (n + epoch)) := by
  apply Int.toNat_of_nonneg
  have hstart := (yearOf_spec (n + epoch)).1
  omega

/-- The year has this day. -/
theorem dayOfYear_lt (n : ℤ) : dayOfYear n < monthStart (isLeap (yearOf (n + epoch))) 12 := by
  have hend := (yearOf_spec (n + epoch)).2
  have htwelve := monthStart_twelve (yearOf (n + epoch))
  have hday := dayOfYear_eq n
  rw [yearStart_succ] at hend
  omega

/-- The date of a day. -/
def ofDayNumber (n : ℤ) : Date where
  year := yearOf (n + epoch)
  month := monthOf (isLeap (yearOf (n + epoch))) (dayOfYear n)
  day := dayOfYear n -
    monthStart (isLeap (yearOf (n + epoch))) (monthOf (isLeap (yearOf (n + epoch))) (dayOfYear n))
  month_lt := monthOf_lt _ _
  day_lt := by
    have hstart := monthStart_monthOf_le (isLeap (yearOf (n + epoch))) (dayOfYear n)
    have hend := lt_monthStart_monthOf (dayOfYear_lt n)
    rw [monthStart] at hend
    omega

/-- **The date determines the day.** -/
theorem dayNumber_ofDayNumber (n : ℤ) : dayNumber (ofDayNumber n) = n := by
  have hmonth := monthStart_monthOf_le (isLeap (yearOf (n + epoch))) (dayOfYear n)
  have hday := dayOfYear_eq n
  have hsum : monthStart (isLeap (ofDayNumber n).year) (ofDayNumber n).month + (ofDayNumber n).day =
      dayOfYear n := Nat.add_sub_of_le hmonth
  have hyear : (ofDayNumber n).year = yearOf (n + epoch) := rfl
  rw [dayNumber, hsum, hyear, hday]
  omega

/-- The end of a month is not behind the end of the year. -/
theorem monthStart_add_day_lt (date : Date) :
    monthStart (isLeap date.year) date.month + date.day <
      monthStart (isLeap date.year) (date.month + 1) :=
  Nat.add_lt_add_left date.day_lt _

/-- **Every date is the date of a day.** -/
theorem ofDayNumber_dayNumber (date : Date) : ofDayNumber (dayNumber date) = date := by
  have hmonth := monthStart_add_day_lt date
  have hlast := monthStart_mono (isLeap date.year) (Nat.add_one_le_iff.mpr date.month_lt)
  have htwelve := monthStart_twelve date.year
  have hyear : yearOf (dayNumber date + epoch) = date.year := by
    apply yearOf_eq
    · rw [dayNumber]
      omega
    · rw [dayNumber, yearStart_succ]
      omega
  have hday : dayOfYear (dayNumber date) =
      monthStart (isLeap date.year) date.month + date.day := by
    rw [dayOfYear, hyear, dayNumber]
    omega
  have hmonthOf : monthOf (isLeap date.year) (dayOfYear (dayNumber date)) = date.month := by
    rw [hday]
    exact monthOf_eq date.month_lt (Nat.le_add_right _ _) hmonth
  apply Date.ext
  · exact hyear
  · change monthOf (isLeap (yearOf _)) _ = _
    rw [hyear, hmonthOf]
  · change dayOfYear _ - monthStart (isLeap (yearOf _)) (monthOf (isLeap (yearOf _)) _) = _
    rw [hyear, hmonthOf, hday, Nat.add_sub_cancel_left]

/-! ## The order of days -/

/-- Days of one year sort by month and day of the month. -/
theorem strictMonoOn_month (leap : Bool) :
    StrictMonoOn (fun d => toLex (monthOf leap d, d - monthStart leap (monthOf leap d)))
      {d | d < monthStart leap 12} := by
  apply SortedText.strictMonoOn_staircase (monthOf leap) (monthStart leap)
    (fun m => monthStart leap (m + 1))
  · intro d hd
    exact ⟨monthStart_monthOf_le leap d, lt_monthStart_monthOf hd⟩
  · intro i j hij
    exact monthStart_mono leap hij
  · intro x _ y _ hmonth hlt
    rw [hmonth]
    apply Nat.sub_lt_sub_right _ hlt
    rw [← hmonth]
    exact monthStart_monthOf_le leap x

/-- **Days sort by year, then month, then day of the month.** -/
theorem strictMono_fields : StrictMono fun n : ℤ =>
    toLex ((ofDayNumber n).year, toLex ((ofDayNumber n).month, (ofDayNumber n).day)) := by
  apply strictMonoOn_univ.mp
  apply SortedText.strictMonoOn_staircase (fun n => (ofDayNumber n).year)
    (fun y => yearStart y - epoch) (fun y => yearStart (y + 1) - epoch)
  · intro n _
    have hspec := yearOf_spec (n + epoch)
    have hyear : (ofDayNumber n).year = yearOf (n + epoch) := rfl
    rw [hyear]
    omega
  · intro i j hij
    exact Int.sub_le_sub_right (yearStart_mono (Int.add_one_le_of_lt hij)) _
  · intro x _ y _ hyear hlt
    change yearOf (x + epoch) = yearOf (y + epoch) at hyear
    have hx := dayOfYear_lt x
    have hdays : dayOfYear x < dayOfYear y := by
      have hdx := dayOfYear_eq x
      have hdy := dayOfYear_eq y
      rw [hyear] at hdx
      omega
    rw [hyear] at hx
    have hmonth := strictMonoOn_month _ hx (dayOfYear_lt y) hdays
    change toLex (monthOf (isLeap (yearOf _)) _, _ - monthStart (isLeap (yearOf _)) _) <
      toLex (monthOf (isLeap (yearOf _)) _, _ - monthStart (isLeap (yearOf _)) _)
    rw [hyear]
    exact hmonth

end Calendar
