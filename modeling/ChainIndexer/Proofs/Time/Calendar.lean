import ChainIndexer.Time.Calendar
import Mathlib.Tactic.IntervalCases

/-
  Days and dates belong to each other.

  A day of an era of 400 years falls into a century, a group of four years, a year and a day of the
  year (`Placed`); only the last year of a group that is not cut short has a day more than 365.
  The formulas for the year of the era, the month and the day are evaluated on these parts, and give
  a date of the calendar (`isValid_dateOfDay`) that has the day number again
  (`dayOfDate_dateOfDay`).
-/

namespace ChainIndexer.Time

/-! ## Days of an era -/

/-- A day of an era by its century, its group of four years, its year and its day in the year. Years
begin in March. -/
structure Placed (doe c q s t : Int) : Prop where
  sum : doe = 36524 * c + 1461 * q + 365 * s + t
  century : 0 ≤ c ∧ c ≤ 3
  group : 0 ≤ q ∧ q ≤ 24
  year : 0 ≤ s ∧ s ≤ 3
  day : 0 ≤ t ∧ t ≤ 365
  leap : t = 365 → s = 3 ∧ (q ≤ 23 ∨ c = 3)

theorem exists_placed {doe : Int} (low : 0 ≤ doe) (high : doe ≤ 146096) :
    ∃ c q s t, Placed doe c q s t := by
  obtain ⟨c, hc, hd, hl⟩ : ∃ c : Int, (0 ≤ c ∧ c ≤ 3) ∧
      (0 ≤ doe - 36524 * c ∧ doe - 36524 * c ≤ 36524) ∧
      (c ≤ 2 → doe - 36524 * c ≤ 36523) := ⟨min (doe / 36524) 3, by omega, by omega, by omega⟩
  obtain ⟨q, hq, hr⟩ : ∃ q : Int, (0 ≤ q ∧ q ≤ 24) ∧
      (0 ≤ doe - 36524 * c - 1461 * q ∧ doe - 36524 * c - 1461 * q ≤ 1460) :=
    ⟨(doe - 36524 * c) / 1461, by omega, by omega⟩
  obtain ⟨s, hs, ht, hm⟩ : ∃ s : Int, (0 ≤ s ∧ s ≤ 3) ∧
      (0 ≤ doe - 36524 * c - 1461 * q - 365 * s ∧ doe - 36524 * c - 1461 * q - 365 * s ≤ 365) ∧
      (s ≤ 2 → doe - 36524 * c - 1461 * q - 365 * s ≤ 364) :=
    ⟨min ((doe - 36524 * c - 1461 * q) / 365) 3, by omega, by omega, by omega⟩
  exact ⟨c, q, s, doe - 36524 * c - 1461 * q - 365 * s, by omega, hc, hq, hs, ht, by omega⟩

/-- The year of the era is that of the parts. -/
theorem Placed.yearOfEra {doe c q s t : Int} (h : Placed doe c q s t) :
    (doe - doe / 1460 + doe / 36524 - doe / 146096) / 365 = 100 * c + 4 * q + s := by
  obtain ⟨sum, century, group, year, day, leap⟩ := h
  have hc : doe / 36524 - doe / 146096 = c := by
    have hv : c = 0 ∨ c = 1 ∨ c = 2 ∨ c = 3 := by omega
    rcases hv with rfl | rfl | rfl | rfl <;> omega
  have hy : doe / 1460 = 25 * c + q + (24 * c + q + 365 * s + t) / 1460 := by omega
  have hs : s = 0 ∨ s = 1 ∨ s = 2 ∨ s = 3 := by omega
  rcases hs with rfl | rfl | rfl | rfl <;> omega

theorem Placed.dayOfYear {doe c q s t : Int} (h : Placed doe c q s t) :
    doe - (365 * (100 * c + 4 * q + s) + (100 * c + 4 * q + s) / 4 - (100 * c + 4 * q + s) / 100)
      = t := by
  obtain ⟨sum, century, group, year, day, leap⟩ := h
  omega

/-! ## Dates -/

/-- The date of a day of a year that begins in March; month 0 is March. -/
def dateOfParts (year t : Int) : Date :=
  let m := (5 * t + 2) / 153
  let month := if m < 10 then m + 3 else m - 9
  ⟨if month ≤ 2 then year + 1 else year, month.toNat, (t - (153 * m + 2) / 5 + 1).toNat⟩

theorem dateOfDay_eq {n c q s t : Int} (h : Placed ((n + 719468) % 146097) c q s t) :
    dateOfDay n = dateOfParts (100 * c + 4 * q + s + (n + 719468) / 146097 * 400) t := by
  unfold dateOfDay dateOfParts
  dsimp only
  rw [h.yearOfEra, h.dayOfYear]

/-- A year is a leap year if the one that begins in March before it has a day more. -/
theorem isLeapYear_of_placed {doe c q s t era : Int} (h : Placed doe c q s t) (ht : t = 365) :
    isLeapYear (100 * c + 4 * q + s + era * 400 + 1) = true := by
  obtain ⟨rfl, hl⟩ := h.leap ht
  have hq := h.group
  unfold isLeapYear
  simp only [Bool.or_eq_true, Bool.and_eq_true, beq_iff_eq, bne_iff_ne]
  omega

theorem isValid_dateOfParts {year t : Int} (ht : 0 ≤ t ∧ t ≤ 365)
    (leap : t = 365 → isLeapYear (year + 1) = true) : (dateOfParts year t).IsValid := by
  obtain ⟨m, hm⟩ : ∃ m, m = (5 * t + 2) / 153 := ⟨_, rfl⟩
  have hr : 0 ≤ m ∧ m ≤ 11 := by omega
  unfold dateOfParts Date.IsValid monthLength
  dsimp only
  rw [← hm]
  -- In February the year decides.
  by_cases hf : m = 11
  · subst hf
    have hd : t ≤ 364 ∨ isLeapYear (year + 1) = true := by
      by_cases h : t = 365
      · exact .inr (leap h)
      · exact .inl (by omega)
    rcases hd with hd | hd
    · simp only [show ¬((11 : Int) < 10) by decide]
      split <;> simp <;> omega
    · simp [hd]
      omega
  · obtain ⟨low, high⟩ := hr
    interval_cases m <;> simp <;> omega

theorem dayOfDate_dateOfParts {doe c q s t era : Int} (h : Placed doe c q s t) :
    dayOfDate (dateOfParts (100 * c + 4 * q + s + era * 400) t) = era * 146097 + doe - 719468 := by
  obtain ⟨sum, century, group, year, day, leap⟩ := h
  obtain ⟨m, hm⟩ : ∃ m, m = (5 * t + 2) / 153 := ⟨_, rfl⟩
  have hr : 0 ≤ m ∧ m ≤ 11 := by omega
  unfold dateOfParts dayOfDate
  dsimp only
  rw [← hm]
  obtain ⟨low, high⟩ := hr
  interval_cases m <;> simp <;> omega

theorem exists_placed_day (n : Int) : ∃ c q s t, Placed ((n + 719468) % 146097) c q s t :=
  exists_placed (by omega) (by omega)

/-- The date of a day is in the calendar. -/
theorem isValid_dateOfDay (n : Int) : (dateOfDay n).IsValid := by
  obtain ⟨c, q, s, t, h⟩ := exists_placed_day n
  rw [dateOfDay_eq h]
  exact isValid_dateOfParts h.day (isLeapYear_of_placed h)

/-- The date of a day has that day number. -/
theorem dayOfDate_dateOfDay (n : Int) : dayOfDate (dateOfDay n) = n := by
  obtain ⟨c, q, s, t, h⟩ := exists_placed_day n
  rw [dateOfDay_eq h, dayOfDate_dateOfParts h]
  omega

/-- The days from the first of January -262143 to the last of December 262142 have these years. -/
theorem year_dateOfDay {n : Int} (h : -96465292 ≤ n ∧ n ≤ 95026236) :
    -262143 ≤ (dateOfDay n).year ∧ (dateOfDay n).year ≤ 262142 := by
  obtain ⟨c, q, s, t, hp⟩ := exists_placed_day n
  rw [dateOfDay_eq hp]
  obtain ⟨sum, century, group, year, day, leap⟩ := hp
  obtain ⟨era, he⟩ : ∃ era, era = (n + 719468) / 146097 := ⟨_, rfl⟩
  have hn : n + 719468 = 146097 * era + (36524 * c + 1461 * q + 365 * s + t) := by omega
  -- The last year is 142 years into its era.
  have hlast : 262142 ≤ 100 * c + 4 * q + s + era * 400 → t ≤ 305 := by
    intro hy
    have h1 : era = 655 := by omega
    have h2 : c = 1 := by omega
    have h3 : q = 10 := by omega
    omega
  unfold dateOfParts
  dsimp only
  rw [← he]
  split
  · split <;> omega
  · split <;> omega

end ChainIndexer.Time
