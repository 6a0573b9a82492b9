import Mathlib.Order.MinMax
import Mathlib.Order.Lattice

/-!
# Civil dates

The proleptic Gregorian date of a day counted from 1 January 1970. A year here starts on 1 March, so
the leap day ends it, and 400 years are one cycle. Distinct days have distinct dates.
-/

structure CivilDate where
  year : Int
  month : Int
  day : Int
  deriving DecidableEq, Repr

namespace CivilDate

/-- The year of a cycle, 0 to 399, and the day of that year, for a day of the cycle. -/
def yearAndDay (dayOfCycle : Int) : Int × Int :=
  let century := min (dayOfCycle / 36524) 3
  let dayOfCentury := dayOfCycle - 36524 * century
  let leap := dayOfCentury / 1461
  let dayOfLeap := dayOfCentury - 1461 * leap
  let year := min (dayOfLeap / 365) 3
  (100 * century + 4 * leap + year, dayOfLeap - 365 * year)

/-- The date of a day of year `year`, counted from its 1 March. -/
def ofYearAndDay (year dayOfYear : Int) : CivilDate :=
  let shifted := (5 * dayOfYear + 2) / 153
  let day := dayOfYear - (153 * shifted + 2) / 5 + 1
  if shifted < 10 then ⟨year, shifted + 3, day⟩ else ⟨year + 1, shifted - 9, day⟩

/-- The date of the day `n` days after 1 January 1970. -/
def ofDay (n : Int) : CivilDate :=
  let shifted := n + 719468
  let found := yearAndDay (shifted % 146097)
  ofYearAndDay (400 * (shifted / 146097) + found.1) found.2

example : ofDay 0 = ⟨1970, 1, 1⟩ := by decide

example : ofDay 19782 = ⟨2024, 2, 29⟩ := by decide

theorem yearAndDay_range {n : Int} (h : 0 ≤ n ∧ n < 146097) :
    0 ≤ (yearAndDay n).1 ∧ (yearAndDay n).1 < 400 ∧ 0 ≤ (yearAndDay n).2 ∧
      (yearAndDay n).2 ≤ 365 := by
  simp only [yearAndDay]
  omega

theorem yearAndDay_injective {m n : Int} (hm : 0 ≤ m ∧ m < 146097) (hn : 0 ≤ n ∧ n < 146097)
    (h : yearAndDay m = yearAndDay n) : m = n := by
  simp only [yearAndDay, Prod.mk.injEq] at h
  omega

section Year

variable {year dayOfYear : Int}

theorem ofYearAndDay_range (h : 0 ≤ dayOfYear ∧ dayOfYear ≤ 365) :
    (1 ≤ (ofYearAndDay year dayOfYear).month ∧ (ofYearAndDay year dayOfYear).month ≤ 12) ∧
      1 ≤ (ofYearAndDay year dayOfYear).day ∧ (ofYearAndDay year dayOfYear).day ≤ 31 := by
  simp only [ofYearAndDay]
  split <;> dsimp only <;> omega

/-- The month says in which of two years a date lies. -/
theorem ofYearAndDay_injective {year' dayOfYear' : Int} (h : 0 ≤ dayOfYear ∧ dayOfYear ≤ 365)
    (h' : 0 ≤ dayOfYear' ∧ dayOfYear' ≤ 365)
    (heq : ofYearAndDay year dayOfYear = ofYearAndDay year' dayOfYear') :
    year = year' ∧ dayOfYear = dayOfYear' := by
  simp only [ofYearAndDay] at heq
  split at heq <;> split at heq <;> simp only [CivilDate.mk.injEq] at heq <;> omega

end Year

theorem cycle_range (n : Int) : 0 ≤ n % 146097 ∧ n % 146097 < 146097 := by omega

theorem ofDay_range (n : Int) :
    (1 ≤ (ofDay n).month ∧ (ofDay n).month ≤ 12) ∧ 1 ≤ (ofDay n).day ∧ (ofDay n).day ≤ 31 := by
  have hday := yearAndDay_range (cycle_range (n + 719468))
  exact ofYearAndDay_range ⟨hday.2.2.1, hday.2.2.2⟩

/-- Distinct days have distinct dates. -/
theorem ofDay_injective {m n : Int} (h : ofDay m = ofDay n) : m = n := by
  have hm := yearAndDay_range (cycle_range (m + 719468))
  have hn := yearAndDay_range (cycle_range (n + 719468))
  obtain ⟨hyear, hday⟩ := ofYearAndDay_injective ⟨hm.2.2.1, hm.2.2.2⟩ ⟨hn.2.2.1, hn.2.2.2⟩ h
  have hcycle : (m + 719468) / 146097 = (n + 719468) / 146097 := by omega
  have hfound : yearAndDay ((m + 719468) % 146097) = yearAndDay ((n + 719468) % 146097) :=
    Prod.ext (by omega) hday
  have := yearAndDay_injective (cycle_range _) (cycle_range _) hfound
  omega

end CivilDate
