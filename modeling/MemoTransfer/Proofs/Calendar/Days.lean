import Mathlib.Tactic.IntervalCases
import Mathlib.Tactic.SplitIfs
import MemoTransfer.Calendar.Instant

/-!
# Dates and days

A day is found in its cycle of 400 years, in its year and in its month, and each of these places is
within its bounds (`yearOfCycle_bounds`, `monthOfYear_bounds`). Hence the date of a day is one that
the calendar has (`Date.isValid_ofDays`), and counting its days gives the day again
(`Date.toDays_ofDays`). The seconds that an instant can name lie in the years -262143 to 262142
(`Instant.year_bounds`).
-/

namespace MemoTransfer.Calendar

/-! ## The year of a day -/

/-- The day of a cycle without the leap days before it. -/
def commonDay (d : Int) : Int := d - d / 1460 + d / 36524 - d / 146096

/-- The year of its cycle that a day belongs to. -/
def yearOfCycle (d : Int) : Int := commonDay d / 365

/-- The first day of a year of a cycle. -/
def firstDay (y : Int) : Int := 365 * y + y / 4 - y / 100

/-- A year has 366 days if it ends with a leap day, and 365 otherwise. -/
theorem firstDay_succ (y : Int) :
    firstDay (y + 1) = firstDay y + (if y % 4 = 3 ∧ y % 100 ≠ 99 then 366 else 365) := by
  have four : (y + 1) / 4 = y / 4 + if y % 4 = 3 then 1 else 0 := by
    split <;> omega
  have hundred : (y + 1) / 100 = y / 100 + if y % 100 = 99 then 1 else 0 := by
    split <;> omega
  unfold firstDay
  rw [four, hundred]
  split_ifs <;> omega

theorem commonDay_mono {d e : Int} (h : d ≤ e) : commonDay d ≤ commonDay e := by
  have leap : d - d / 1460 ≤ e - e / 1460 := by omega
  have centuries : d / 36524 - d / 146096 ≤ e / 36524 - e / 146096 := by omega
  unfold commonDay
  omega

/-- A year after the first one begins where the common days reach it. -/
theorem commonDay_firstDay {y : Int} (h0 : 1 ≤ y) (h1 : y < 400) :
    365 * y ≤ commonDay (firstDay y) ∧ commonDay (firstDay y - 1) < 365 * y := by
  have table : ∀ n : Nat, n < 400 → 1 ≤ n → 365 * (n : Int) ≤ commonDay (firstDay n) ∧
      commonDay (firstDay n - 1) < 365 * (n : Int) := by decide +kernel
  obtain ⟨n, rfl⟩ := Int.eq_ofNat_of_zero_le (Int.le_trans (by decide) h0)
  exact table n (by omega) (by omega)

/-- A day stands in its year, and the last day of a year of 366 days is that of a leap year. -/
theorem yearOfCycle_bounds {d : Int} (h0 : 0 ≤ d) (h1 : d < 146097) :
    0 ≤ yearOfCycle d ∧ yearOfCycle d < 400 ∧ firstDay (yearOfCycle d) ≤ d ∧
      d ≤ firstDay (yearOfCycle d) + 365 ∧
      (d = firstDay (yearOfCycle d) + 365 → yearOfCycle d % 4 = 3 ∧
        (yearOfCycle d % 100 ≠ 99 ∨ yearOfCycle d = 399)) := by
  have least : commonDay 0 ≤ commonDay d := commonDay_mono h0
  have most : commonDay d ≤ commonDay 146096 := commonDay_mono (by omega)
  have e0 : commonDay 0 = 0 := by decide
  have e1 : commonDay 146096 = 145999 := by decide
  have hy : 365 * yearOfCycle d ≤ commonDay d ∧ commonDay d < 365 * (yearOfCycle d + 1) := by
    unfold yearOfCycle
    omega
  generalize yearOfCycle d = y at hy ⊢
  have y0 : 0 ≤ y := by omega
  have y1 : y < 400 := by omega
  have after : firstDay y ≤ d := by
    rcases Int.lt_or_le 0 y with hp | hz
    · have bound := (commonDay_firstDay hp y1).2
      rcases Int.lt_or_le d (firstDay y) with early | late
      · have := commonDay_mono (Int.le_sub_one_of_lt early)
        omega
      · exact late
    · obtain rfl : y = 0 := by omega
      exact h0
  have before : d < firstDay (y + 1) ∨ y = 399 := by
    rcases Int.lt_or_le y 399 with hl | hl
    · have bound := (commonDay_firstDay (y := y + 1) (by omega) (by omega)).1
      rcases Int.lt_or_le d (firstDay (y + 1)) with early | late
      · exact .inl early
      · have := commonDay_mono late
        omega
    · exact .inr (by omega)
  rw [firstDay_succ] at before
  have last : firstDay 399 = 145731 := by decide
  rcases before with before | rfl
  · split at before
    · exact ⟨y0, y1, after, by omega, fun _ => by omega⟩
    · exact ⟨y0, y1, after, by omega, fun _ => by omega⟩
  · exact ⟨y0, y1, after, by omega, fun _ => by omega⟩

/-! ## The month of a day -/

/-- The month, counted from March, that a day of a year belongs to. -/
def monthOfYear (d : Int) : Int := (5 * d + 2) / 153

theorem monthOfYear_bounds {d : Int} (h0 : 0 ≤ d) (h1 : d ≤ 365) :
    0 ≤ monthOfYear d ∧ monthOfYear d ≤ 11 ∧ (153 * monthOfYear d + 2) / 5 ≤ d := by
  unfold monthOfYear
  omega

namespace Date

/-- The date of a day of a year of a cycle. -/
def ofPlaces (c y d : Int) : Date :=
  let m := monthOfYear d
  let day := d - (153 * m + 2) / 5 + 1
  if m < 10 then ⟨y + c * 400, (m + 3).toNat, day.toNat⟩
  else ⟨y + c * 400 + 1, (m - 9).toNat, day.toNat⟩

/-- A day has its place in a year of a cycle, which has a leap day if it is the 366th. -/
theorem exists_places (n : Int) : ∃ c y d : Int, ofDays n = ofPlaces c y d ∧
    n = c * 146097 + (firstDay y + d) - 719468 ∧ (0 ≤ y ∧ y < 400) ∧ (0 ≤ d ∧ d ≤ 365) ∧
    (d = 365 → y % 4 = 3 ∧ (y % 100 ≠ 99 ∨ y = 399)) := by
  obtain ⟨h0, h1, h2, h3, h4⟩ :=
    yearOfCycle_bounds (d := (n + 719468) % 146097) (by omega) (by omega)
  refine ⟨(n + 719468) / 146097, yearOfCycle ((n + 719468) % 146097),
    (n + 719468) % 146097 - firstDay (yearOfCycle ((n + 719468) % 146097)), rfl, ?_, ⟨h0, h1⟩,
    ⟨by omega, by omega⟩, fun e => h4 (by omega)⟩
  omega

variable {c y d : Int} (hy : 0 ≤ y ∧ y < 400) (hd : 0 ≤ d ∧ d ≤ 365)

include hd

include hy in
theorem toDays_ofPlaces : (ofPlaces c y d).toDays = c * 146097 + (firstDay y + d) - 719468 := by
  obtain ⟨hm0, hm1, hm2⟩ := monthOfYear_bounds hd.1 hd.2
  have hc : (y + c * 400) % 400 = y ∧ (y + c * 400) / 400 = c := by omega
  unfold ofPlaces
  dsimp only
  generalize monthOfYear d = m at hm0 hm1 hm2 ⊢
  split_ifs with h
  · have hmonth : (((m + 3).toNat : Int) + 9) % 12 = m := by omega
    have hday : ((d - (153 * m + 2) / 5 + 1).toNat : Int) = d - (153 * m + 2) / 5 + 1 := by omega
    simp only [toDays, if_neg (show ¬(m + 3).toNat ≤ 2 by omega), hmonth, hday, hc.1, hc.2]
    unfold firstDay
    omega
  · have hmonth : (((m - 9).toNat : Int) + 9) % 12 = m := by omega
    have hday : ((d - (153 * m + 2) / 5 + 1).toNat : Int) = d - (153 * m + 2) / 5 + 1 := by omega
    simp only [toDays, if_pos (show (m - 9).toNat ≤ 2 by omega), Int.add_sub_cancel, hmonth, hday,
      hc.1, hc.2]
    unfold firstDay
    omega

/-- The month has the day: the twelve months one by one. -/
theorem isValid_ofPlaces (leap : d = 365 → y % 4 = 3 ∧ (y % 100 ≠ 99 ∨ y = 399)) :
    (ofPlaces c y d).isValid = true := by
  obtain ⟨hm0, hm1, -⟩ := monthOfYear_bounds hd.1 hd.2
  have hm : 153 * monthOfYear d ≤ 5 * d + 2 ∧ 5 * d + 2 < 153 * (monthOfYear d + 1) := by
    unfold monthOfYear
    omega
  unfold ofPlaces
  dsimp only
  generalize monthOfYear d = m at hm0 hm1 hm ⊢
  interval_cases m <;> simp [isValid, daysInMonth, isLeapYear] <;> omega

include hy in
/-- The year of a day between the first and the last one that an instant can name. -/
theorem year_ofPlaces (h0 : -96465292 ≤ c * 146097 + (firstDay y + d) - 719468)
    (h1 : c * 146097 + (firstDay y + d) - 719468 ≤ 95026236) :
    -262143 ≤ (ofPlaces c y d).year ∧ (ofPlaces c y d).year ≤ 262142 := by
  have hm : 153 * monthOfYear d ≤ 5 * d + 2 ∧ 5 * d + 2 < 153 * (monthOfYear d + 1) := by
    unfold monthOfYear
    omega
  unfold firstDay at h0 h1
  unfold ofPlaces
  dsimp only
  have most : c ≤ 655 := by omega
  have inLast : c = 655 → y ≤ 142 ∧ (y = 142 → d ≤ 305) := by omega
  split_ifs with h
  · dsimp only
    omega
  · dsimp only
    omega

end Date

/-- **Counting the days of the date of a day gives the day.** -/
theorem Date.toDays_ofDays (n : Int) : (ofDays n).toDays = n := by
  obtain ⟨c, y, d, e, hn, hy, hd, -⟩ := exists_places n
  rw [e, toDays_ofPlaces hy hd, ← hn]

theorem Date.isValid_ofDays (n : Int) : (ofDays n).isValid = true := by
  obtain ⟨c, y, d, e, -, -, hd, leap⟩ := exists_places n
  rw [e, isValid_ofPlaces hd leap]

theorem Date.bounds_of_isValid {d : Date} (h : d.isValid = true) :
    (1 ≤ d.month ∧ d.month ≤ 12) ∧ 1 ≤ d.day ∧ d.day ≤ 31 := by
  have most : daysInMonth d.year d.month ≤ 31 := by
    unfold daysInMonth
    split_ifs <;> decide
  simp only [isValid, Bool.and_eq_true, decide_eq_true_eq] at h
  omega

theorem Instant.year_bounds (t : Instant) : -262143 ≤ t.date.year ∧ t.date.year ≤ 262142 := by
  have first := t.first_le
  have last := t.le_last
  unfold firstSecond at first
  unfold lastSecond at last
  obtain ⟨c, y, d, e, hn, hy, hd, -⟩ := Date.exists_places (t.seconds / 86400)
  rw [Instant.date, e]
  exact Date.year_ofPlaces hy hd (by omega) (by omega)

end MemoTransfer.Calendar
