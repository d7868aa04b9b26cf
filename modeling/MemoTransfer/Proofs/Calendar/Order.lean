import MemoTransfer.Proofs.Calendar.ReadBack

/-!
# The order of time

A later day has a later date (`Date.ofDays_lt_ofDays`): it stands in a later year, counted from
March to February so that the leap day comes last, or later in the same one. The compact digits of
a moment in the years 0 to 9999 are eight for the day and six for the time of day, with a mark
between them, and both are numbers of a fixed width. Hence of two moments the one in the later
second has the later digits (`Instant.compactDigits_lt`), and within a second they are the same
(`Instant.compactDigits_congr`).
-/

namespace MemoTransfer.Calendar

open MemoTransfer.Number

/-! ## Dates -/

/-- The days up to the first of March of a year, from that of the year 0 on. -/
def yearStart (y : Int) : Int := firstDay y + y / 400

theorem yearStart_mono {y z : Int} (h : y ≤ z) : yearStart y ≤ yearStart z := by
  have centuries : y / 4 - y / 100 ≤ z / 4 - z / 100 := by omega
  have cycles : y / 400 ≤ z / 400 := by omega
  unfold yearStart firstDay
  omega

namespace Date

/-- The order of the calendar: by the year, then by the month, then by the day. -/
instance : LT Date :=
  ⟨fun d e => d.year < e.year ∨
    d.year = e.year ∧ (d.month < e.month ∨ d.month = e.month ∧ d.day < e.day)⟩

theorem lt_iff {d e : Date} : d < e ↔ d.year < e.year ∨
    d.year = e.year ∧ (d.month < e.month ∨ d.month = e.month ∧ d.day < e.day) := Iff.rfl

/-- A day has its place in a year that begins in March, and the next year begins after it. -/
theorem exists_place (n : Int) : ∃ y d : Int, ofDays n = ofPlaces 0 y d ∧ (0 ≤ d ∧ d ≤ 365) ∧
    n + 719468 = yearStart y + d ∧ n + 719468 < yearStart (y + 1) := by
  obtain ⟨c, y, d, e, hn, hy, hd, leap⟩ := exists_places n
  have start : yearStart (y + c * 400) = c * 146097 + firstDay y := by
    unfold yearStart firstDay
    omega
  refine ⟨y + c * 400, d, ?_, hd, by omega, ?_⟩
  · simp only [e, ofPlaces, Int.zero_mul, Int.add_zero]
  · have next := firstDay_succ (y + c * 400)
    unfold yearStart at start ⊢
    rw [next]
    split <;> omega

/-- A later place has a later date. January and February belong to the year after, and their months
count from one again: both make up for each other. -/
theorem ofPlaces_lt_ofPlaces {y z d e : Int} (hd : 0 ≤ d ∧ d ≤ 365) (he : 0 ≤ e ∧ e ≤ 365)
    (h : y < z ∨ y = z ∧ d < e) : ofPlaces 0 y d < ofPlaces 0 z e := by
  obtain ⟨hm0, hm1, hm2⟩ := monthOfYear_bounds hd.1 hd.2
  obtain ⟨hk0, hk1, hk2⟩ := monthOfYear_bounds he.1 he.2
  have months : d ≤ e → monthOfYear d ≤ monthOfYear e := by
    unfold monthOfYear
    omega
  rw [lt_iff]
  unfold ofPlaces
  generalize monthOfYear d = m at *
  generalize monthOfYear e = k at *
  dsimp only
  split <;> split <;> dsimp only <;> omega

/-- **A later day has a later date.** -/
theorem ofDays_lt_ofDays {m n : Int} (h : m < n) : ofDays m < ofDays n := by
  obtain ⟨y, d, hm, hd, start, -⟩ := exists_place m
  obtain ⟨z, e, hn, he, start', stop'⟩ := exists_place n
  rw [hm, hn]
  apply ofPlaces_lt_ofPlaces hd he
  rcases Int.lt_trichotomy y z with less | rfl | more
  · exact .inl less
  · exact .inr ⟨rfl, by omega⟩
  · have := yearStart_mono (Int.add_one_le_of_lt more)
    omega

end Date

namespace Instant

variable {a b t : Instant}

/-! ## Moments -/

/-- The order of time. A leap second comes after the second that it is kept in. -/
instance : LE Instant :=
  ⟨fun a b => a.seconds < b.seconds ∨ a.seconds = b.seconds ∧ a.nanos ≤ b.nanos⟩

theorem le_iff :
    a ≤ b ↔ a.seconds < b.seconds ∨ a.seconds = b.seconds ∧ a.nanos ≤ b.nanos := Iff.rfl

/-- The moment lies in the years 0 to 9999, and in no leap second. -/
structure IsCommon (t : Instant) : Prop where
  year_nonneg : 0 ≤ t.date.year
  year_le : t.date.year ≤ 9999
  nanos_lt : t.nanos < 10 ^ 9

/-! ## Compact digits -/

theorem isPadded_two {n : Nat} (h : n < 100) : IsPadded 2 n (padded 2 n) :=
  isPadded_padded (by decide) h

/-- The compact digits of the day. -/
def dayDigits (t : Instant) : List Char :=
  yearDigits t.date.year ++ padded 2 t.date.month ++ padded 2 t.date.day

/-- The compact digits of the time of day. -/
def timeDigits (t : Instant) : List Char :=
  padded 2 t.hour ++ padded 2 t.minute ++ padded 2 t.second

theorem compactDigits_eq (t : Instant) :
    t.compactDigits = t.dayDigits ++ '_' :: t.timeDigits := by
  simp only [compactDigits, dayDigits, timeDigits, List.append_assoc, List.cons_append]

theorem isPadded_dayDigits (ht : t.IsCommon) : IsPadded 8
    ((t.date.year.toNat * 10 ^ 2 + t.date.month) * 10 ^ 2 + t.date.day) t.dayDigits := by
  obtain ⟨⟨-, month⟩, -, day⟩ := Date.bounds_of_isValid (Date.isValid_ofDays (t.seconds / 86400))
  have year := And.intro ht.year_nonneg ht.year_le
  change t.date.month ≤ 12 at month
  change t.date.day ≤ 31 at day
  rw [dayDigits, yearDigits, if_pos year]
  have four : IsPadded 4 t.date.year.toNat (padded 4 t.date.year.toNat) :=
    isPadded_padded (by decide) (by omega)
  exact (four.append (isPadded_two (by omega))).append (isPadded_two (by omega))

theorem isPadded_timeDigits (t : Instant) :
    IsPadded 6 ((t.hour * 10 ^ 2 + t.minute) * 10 ^ 2 + t.second) t.timeDigits := by
  obtain ⟨hour, minute, second⟩ := t.time_bounds
  exact ((isPadded_two (by omega)).append (isPadded_two (by omega))).append
    (isPadded_two (by omega))

theorem length_compactDigits (ht : t.IsCommon) : t.compactDigits.length = 15 := by
  rw [compactDigits_eq, List.length_append, List.length_cons, (isPadded_dayDigits ht).length,
    t.isPadded_timeDigits.length]

/-- A later date has later digits. -/
theorem dayDigits_lt (ha : a.IsCommon) (hb : b.IsCommon) (h : a.date < b.date) :
    a.dayDigits < b.dayDigits := by
  obtain ⟨⟨-, month⟩, -, day⟩ := Date.bounds_of_isValid (Date.isValid_ofDays (a.seconds / 86400))
  have year := ha.year_nonneg
  change a.date.month ≤ 12 at month
  change a.date.day ≤ 31 at day
  apply (isPadded_dayDigits ha).lt (isPadded_dayDigits hb)
  rw [Date.lt_iff] at h
  omega

/-- A later second of a day has later digits. A leap second is the last one of its minute, so the
sixty in its digits does not reach those of the next minute. -/
theorem timeDigits_lt (h : a.secondOfDay < b.secondOfDay) : a.timeDigits < b.timeDigits := by
  apply a.isPadded_timeDigits.lt b.isPadded_timeDigits
  obtain ⟨-, minute, -⟩ := a.time_bounds
  obtain ⟨-, minute', -⟩ := b.time_bounds
  have whole := a.secondOfDay_eq
  have whole' := b.secondOfDay_eq
  have leap := a.secondOfDay_mod
  unfold second
  split_ifs <;> omega

/-- **A later second has later digits.** -/
theorem compactDigits_lt (ha : a.IsCommon) (hb : b.IsCommon) (h : a.seconds < b.seconds) :
    a.compactDigits < b.compactDigits := by
  rw [compactDigits_eq, compactDigits_eq]
  rcases Int.lt_trichotomy (a.seconds / 86400) (b.seconds / 86400) with less | same | more
  · have days := dayDigits_lt ha hb (Date.ofDays_lt_ofDays less)
    have len := (isPadded_dayDigits ha).length.trans (isPadded_dayDigits hb).length.symm
    exact append_lt_append len days _ _
  · have date : a.date = b.date := congrArg Date.ofDays same
    have times : a.secondOfDay < b.secondOfDay := by
      unfold secondOfDay
      omega
    rw [dayDigits, date]
    exact List.append_left_lt (List.cons_lt_cons_iff.2 (.inr ⟨rfl, timeDigits_lt times⟩))
  · omega

/-- The digits leave out what is less than a second. -/
theorem compactDigits_congr (ha : a.IsCommon) (hb : b.IsCommon) (h : a.seconds = b.seconds) :
    a.compactDigits = b.compactDigits := by
  have second : a.second = b.second := by
    unfold second secondOfDay
    rw [h, if_neg (Nat.not_le.2 ha.nanos_lt), if_neg (Nat.not_le.2 hb.nanos_lt)]
  simp only [compactDigits, date, hour, minute, secondOfDay, second, h]

end Instant

end MemoTransfer.Calendar
