import Mathlib.Order.Monotone.Basic
import Prox.Lib.Time

/-! # The calendar as a partition of the days

`daysOfCivil` counts the days before a date and `civilOfDays` finds the date of a day. Both are stated
here through the first days of the months, numbered from January of year 0: these are strictly
increasing, and the date of a day names the month whose first day is the last not after it. -/

namespace Prox

/-! ## Years and months -/

/-- The days before 1 March of a year, from 1 March of year 0 on. -/
def daysBeforeYear (y : Int) : Int := 365 * y + y / 4 - y / 100 + y / 400

/-- The first day of a month, numbered from January of year 0. -/
def firstOfMonth (k : Int) : Int :=
  daysBeforeYear ((k - 2) / 12) + (153 * ((k - 2) % 12) + 2) / 5 - 719468

/-- The days before a year, counted in cycles of 400 years. -/
theorem daysBeforeYear_eq_cycle (y : Int) :
    y / 400 * 146097 +
        ((y - y / 400 * 400) * 365 + (y - y / 400 * 400) / 4 - (y - y / 400 * 400) / 100) =
      daysBeforeYear y := by
  have h4 : (y - y / 400 * 400) / 4 = y / 4 - 100 * (y / 400) := by omega
  have h100 : (y - y / 400 * 400) / 100 = y / 100 - 4 * (y / 400) := by omega
  rw [daysBeforeYear]
  omega

/-- A date is so many days behind the first day of its month. -/
theorem daysOfCivil_eq (year month day : Int) :
    daysOfCivil year month day = firstOfMonth (12 * year + (month - 1)) + (day - 1) := by
  have hmonths : year * 12 + (month - 1) = 12 * year + (month - 1) := by omega
  simp only [daysOfCivil, firstOfMonth, hmonths]
  generalize 12 * year + (month - 1) = k
  -- both count the years from March; what is left is linear in the parts of the year
  by_cases hm : k % 12 + 1 ≤ 2
  · have hyear : (k - 2) / 12 = k / 12 - 1 := by omega
    have hmonth : (k - 2) % 12 = k % 12 + 1 + 9 := by omega
    rw [hyear, ← daysBeforeYear_eq_cycle]
    generalize k / 12 - 1 = y
    omega
  · have hyear : (k - 2) / 12 = k / 12 := by omega
    have hmonth : (k - 2) % 12 = k % 12 + 1 - 3 := by omega
    rw [hyear, ← daysBeforeYear_eq_cycle]
    generalize k / 12 = y
    omega

theorem daysBeforeYear_add_one (y : Int) :
    daysBeforeYear y + 365 ≤ daysBeforeYear (y + 1) ∧
      daysBeforeYear (y + 1) ≤ daysBeforeYear y + 366 := by
  simp only [daysBeforeYear]
  omega

theorem daysBeforeYear_add_cycle (y n : Int) :
    daysBeforeYear (y + n * 400) = daysBeforeYear y + n * 146097 := by
  simp only [daysBeforeYear]
  omega

theorem firstOfMonth_lt_add_one (k : Int) : firstOfMonth k < firstOfMonth (k + 1) := by
  by_cases hlast : (k - 2) % 12 = 11
  · -- from February to March
    have hyear := (daysBeforeYear_add_one ((k - 2) / 12)).1
    have hnext : (k + 1 - 2) / 12 = (k - 2) / 12 + 1 := by omega
    have hmonth : (k + 1 - 2) % 12 = 0 := by omega
    rw [firstOfMonth, firstOfMonth, hnext]
    omega
  · have hnext : (k + 1 - 2) / 12 = (k - 2) / 12 := by omega
    have hmonth : (k + 1 - 2) % 12 = (k - 2) % 12 + 1 := by omega
    rw [firstOfMonth, firstOfMonth, hnext]
    omega

theorem firstOfMonth_le {m k : Int} : firstOfMonth m ≤ firstOfMonth k ↔ m ≤ k :=
  (strictMono_int_of_lt_succ firstOfMonth_lt_add_one).le_iff_le

theorem firstOfMonth_lt {m k : Int} : firstOfMonth m < firstOfMonth k ↔ m < k :=
  lt_iff_lt_of_le_iff_le firstOfMonth_le

/-! ## The date of a day -/

/-- A day of a cycle of 400 years is one of a century, of four years and of a year. -/
theorem exists_parts_of_day {doe : Int} (h0 : 0 ≤ doe) (h1 : doe ≤ 146096) :
    ∃ c q s t : Int, doe = 36524 * c + 1461 * q + 365 * s + t ∧ (0 ≤ c ∧ c ≤ 3) ∧
      (0 ≤ q ∧ q ≤ 24) ∧ (0 ≤ s ∧ s ≤ 3) ∧ 0 ≤ t ∧
      (t ≤ 364 ∨ t = 365 ∧ s = 3 ∧ (q ≤ 23 ∨ c = 3)) := by
  obtain ⟨c, hc, r, hdoe, hr0, hr⟩ : ∃ c : Int, (0 ≤ c ∧ c ≤ 3) ∧ ∃ r, doe = 36524 * c + r ∧ 0 ≤ r ∧
      (r ≤ 36523 ∨ r = 36524 ∧ c = 3) := by
    by_cases h : doe = 146096
    · exact ⟨3, by omega, 36524, by omega, by omega, by omega⟩
    · exact ⟨doe / 36524, by omega, doe % 36524, by omega, by omega, by omega⟩
  obtain ⟨q, hq, u, hru, hu⟩ : ∃ q : Int, (0 ≤ q ∧ q ≤ 24) ∧
      ∃ u, r = 1461 * q + u ∧ (0 ≤ u ∧ u ≤ 1460) :=
    ⟨r / 1461, by omega, r % 1461, by omega, by omega⟩
  by_cases h : u = 1460
  · exact ⟨c, q, 3, 365, by omega, hc, hq, by omega, by omega, by omega⟩
  · exact ⟨c, q, u / 365, u % 365, by omega, hc, hq, by omega, by omega, by omega⟩

/-- The year of a day of a cycle of 400 years, and the days before it. -/
theorem yearOfDay_spec {doe : Int} (h0 : 0 ≤ doe) (h1 : doe ≤ 146096) :
    ∃ yoe : Int, (doe - doe / 1460 + doe / 36524 - doe / 146096) / 365 = yoe ∧
      (0 ≤ yoe ∧ yoe ≤ 399) ∧ 365 * yoe + yoe / 4 - yoe / 100 ≤ doe ∧
      doe < daysBeforeYear (yoe + 1) := by
  obtain ⟨c, q, s, t, hdoe, hc, hq, hs, ht, hlast⟩ := exists_parts_of_day h0 h1
  -- the divisions find the century, and the leap days before the day or one more at its end
  have hcentury : doe / 36524 = c ∧ doe / 146096 = 0 ∨
      doe / 36524 = 4 ∧ doe / 146096 = 1 ∧ c = 3 ∧ q = 24 ∧ s = 3 ∧ t = 365 := by omega
  refine ⟨100 * c + 4 * q + s, by omega, by omega, ?_, ?_⟩
  · have h4 : (100 * c + 4 * q + s) / 4 = 25 * c + q := by omega
    have h100 : (100 * c + 4 * q + s) / 100 = c := by omega
    omega
  · rw [daysBeforeYear]
    have h4 : (100 * c + 4 * q + s + 1) / 4 = 25 * c + q + (if s = 3 then 1 else 0) := by
      split_ifs <;> omega
    have h100 : (100 * c + 4 * q + s + 1) / 100 = c + (if q = 24 ∧ s = 3 then 1 else 0) := by
      split_ifs <;> omega
    have h400 : (100 * c + 4 * q + s + 1) / 400 = if c = 3 ∧ q = 24 ∧ s = 3 then 1 else 0 := by
      split_ifs <;> omega
    rw [h400]
    split_ifs <;> omega

/-- The first day of the month that lies so many months behind March of a year. -/
theorem firstOfMonth_of_march {k y m : Int} (hk : k - 2 = 12 * y + m) (h0 : 0 ≤ m) (h1 : m ≤ 11) :
    firstOfMonth k = daysBeforeYear y + (153 * m + 2) / 5 - 719468 := by
  have hyear : (k - 2) / 12 = y := by omega
  have hmonth : (k - 2) % 12 = m := by omega
  rw [firstOfMonth, hyear, hmonth]

/-- The date of a day names a month whose first day is the last not after it. -/
theorem civilOfDays_spec (z : Int) :
    (1 ≤ (civilOfDays z).month ∧ (civilOfDays z).month ≤ 12) ∧ 1 ≤ (civilOfDays z).day ∧
      z = firstOfMonth (12 * (civilOfDays z).year + ((civilOfDays z).month - 1)) +
        ((civilOfDays z).day - 1) ∧
      z < firstOfMonth (12 * (civilOfDays z).year + (civilOfDays z).month) := by
  obtain ⟨era, doe, hz, h0, h1⟩ : ∃ era doe : Int, z + 719468 = era * 146097 + doe ∧ 0 ≤ doe ∧
      doe ≤ 146096 :=
    ⟨(z + 719468) / 146097, (z + 719468) % 146097, by omega, by omega, by omega⟩
  obtain ⟨yoe, hyoe, ⟨hy0, hy1⟩, hfrom, hto⟩ := yearOfDay_spec h0 h1
  have hdays : daysBeforeYear yoe = 365 * yoe + yoe / 4 - yoe / 100 := by
    rw [daysBeforeYear]; omega
  have hnext := (daysBeforeYear_add_one yoe).2
  -- the day of the year, and the month it falls in from March on
  obtain ⟨doy, hdoy⟩ : ∃ doy, doe = daysBeforeYear yoe + doy := ⟨doe - daysBeforeYear yoe, by omega⟩
  obtain ⟨mp, hmp⟩ : ∃ mp, (5 * doy + 2) / 153 = mp := ⟨_, rfl⟩
  have hmp0 : 0 ≤ mp := by omega
  have hmp1 : mp ≤ 11 := by omega
  have hcivil : civilOfDays z =
      { year := yoe + era * 400 + (if (if mp < 10 then mp + 3 else mp - 9) ≤ 2 then 1 else 0)
        month := if mp < 10 then mp + 3 else mp - 9, day := doy - (153 * mp + 2) / 5 + 1 } := by
    have hera : (z + 719468) / 146097 = era := by omega
    have hdoe : z + 719468 - era * 146097 = doe := by omega
    have hday : doe - (365 * yoe + yoe / 4 - yoe / 100) = doy := by omega
    simp [civilOfDays, hera, hdoe, hyoe, hday, hmp]
  clear hyoe hfrom hdays
  have hcycle := daysBeforeYear_add_cycle yoe era
  have hcycle1 := daysBeforeYear_add_cycle (yoe + 1) era
  have hmonth : 12 * (civilOfDays z).year + ((civilOfDays z).month - 1) - 2 =
      12 * (yoe + era * 400) + mp := by
    rw [hcivil]
    dsimp only
    split_ifs <;> omega
  refine ⟨?_, ?_, ?_, ?_⟩
  · rw [hcivil]
    dsimp only
    split_ifs <;> omega
  · rw [hcivil]
    dsimp only
    omega
  · rw [firstOfMonth_of_march hmonth hmp0 hmp1, hcivil]
    dsimp only
    omega
  · generalize 12 * (civilOfDays z).year = y at hmonth
    generalize (civilOfDays z).month = m at hmonth
    by_cases hlast : mp = 11
    · have hnext : y + m - 2 = 12 * (yoe + 1 + era * 400) + 0 := by omega
      rw [firstOfMonth_of_march hnext (by decide) (by decide)]
      omega
    · have hnext : y + m - 2 = 12 * (yoe + era * 400) + (mp + 1) := by omega
      rw [firstOfMonth_of_march hnext (by omega) (by omega)]
      omega

/-- The date of a day counts the days before it. -/
theorem daysOfCivil_civilOfDays (z : Int) :
    daysOfCivil (civilOfDays z).year (civilOfDays z).month (civilOfDays z).day = z := by
  obtain ⟨-, -, hz, -⟩ := civilOfDays_spec z
  rw [daysOfCivil_eq]
  exact hz.symm

/-- A day is the first of a month exactly when it is one of the first days. -/
theorem civilOfDays_day_eq_one_iff {z : Int} :
    (civilOfDays z).day = 1 ↔ ∃ k, z = firstOfMonth k := by
  obtain ⟨-, hday, hz, hlt⟩ := civilOfDays_spec z
  constructor
  · intro h
    exact ⟨_, by rw [h] at hz; simpa using hz⟩
  · rintro ⟨k, hk⟩
    generalize hm : 12 * (civilOfDays z).year + ((civilOfDays z).month - 1) = m at hz
    rw [show 12 * (civilOfDays z).year + (civilOfDays z).month = m + 1 by omega] at hlt
    -- the month of the day is the month it is the first day of
    have hkm : k < m + 1 := firstOfMonth_lt.mp (hk ▸ hlt)
    have hmk : m ≤ k := firstOfMonth_le.mp (by omega)
    obtain rfl : k = m := by omega
    omega

end Prox
