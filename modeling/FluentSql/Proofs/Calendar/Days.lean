import FluentSql.Calendar.Date
import Mathlib.Tactic.Common

namespace FluentSql.Date

/-- The year of a day in an era, as the source counts it. -/
def yearOfEra (e : Nat) : Nat := (e - e / 1460 + e / 36524 - e / 146096) / 365

/-- Within a century and its four years the estimate of the year is exact. -/
theorem yearOfEra_parts {e c q k u : Nat} (hc : c ≤ 3) (hq : q ≤ 24) (hk : k ≤ 3)
    (hu : u < 365 ∨ k = 3 ∧ u = 365) (he : e = 36524 * c + 1461 * q + 365 * k + u)
    (hlast : 1461 * q + 365 * k + u < 36524) : yearOfEra e = 100 * c + 4 * q + k := by
  have hcentury : e / 36524 = c := by omega
  have hera : e / 146096 = 0 := by omega
  unfold yearOfEra
  rw [hcentury, hera]
  omega

/-- A day of an era is so many days after the start of its year, of which only a leap year has
one more than 365. The year after the given one has the leap day. -/
theorem dayOfEra {e : Nat} (h : e < 146097) :
    ∃ u, yearOfEra e < 400 ∧
      e = 365 * yearOfEra e + yearOfEra e / 4 - yearOfEra e / 100 + u ∧
      (u < 365 ∨ u = 365 ∧ (yearOfEra e + 1) % 4 = 0 ∧
        ((yearOfEra e + 1) % 100 ≠ 0 ∨ (yearOfEra e + 1) % 400 = 0)) := by
  by_cases hlast : e = 146096
  · subst hlast
    exact ⟨365, by decide⟩
  have hc : e / 36524 ≤ 3 := by omega
  generalize hr : e % 36524 = r
  have hr' : r < 36524 := by omega
  generalize hs : r % 1461 = s
  generalize hk : min (s / 365) 3 = k
  have hk' : k ≤ 3 := by omega
  have hu : s - 365 * k < 365 ∨ k = 3 ∧ s - 365 * k = 365 := by omega
  have he : e = 36524 * (e / 36524) + 1461 * (r / 1461) + 365 * k + (s - 365 * k) := by omega
  have hy := yearOfEra_parts hc (by omega) hk' hu he (by omega)
  have hfour : yearOfEra e / 4 = 25 * (e / 36524) + r / 1461 := by omega
  have hhundred : yearOfEra e / 100 = e / 36524 := by omega
  refine ⟨s - 365 * k, by omega, by omega, ?_⟩
  obtain hu | ⟨hthree, hu⟩ := hu
  · exact .inl hu
  · refine .inr ⟨hu, by omega, .inl ?_⟩
    have hq : r / 1461 ≤ 23 := by omega
    omega

/-- A day as its era, the year of that, and the day of the year, which begins in March. -/
theorem ofDays_parts (days : Int) : ∃ era : Int, ∃ e u : Nat,
    days + epoch = era * 146097 + e ∧
    e = 365 * yearOfEra e + yearOfEra e / 4 - yearOfEra e / 100 + u ∧ yearOfEra e < 400 ∧
    (u < 365 ∨ u = 365 ∧ (yearOfEra e + 1) % 4 = 0 ∧
      ((yearOfEra e + 1) % 100 ≠ 0 ∨ (yearOfEra e + 1) % 400 = 0)) ∧
    ofDays days =
      let month := (5 * u + 2) / 153
      let day := u - (153 * month + 2) / 5 + 1
      let year := era * 400 + yearOfEra e
      if month < 10 then ⟨year, month + 3, day⟩ else ⟨year + 1, month - 9, day⟩ := by
  unfold ofDays
  dsimp only
  generalize days + epoch = z
  have hlt : (z % 146097).toNat < 146097 := by omega
  have hz : z = z / 146097 * 146097 + (z % 146097).toNat := by omega
  generalize (z % 146097).toNat = e at hlt hz ⊢
  obtain ⟨u, hy, hu, hleap⟩ := dayOfEra hlt
  have hinYear : e - (365 * yearOfEra e + yearOfEra e / 4 - yearOfEra e / 100) = u := by omega
  have hyear : (e - e / 1460 + e / 36524 - e / 146096) / 365 = yearOfEra e := rfl
  refine ⟨z / 146097, e, u, hz, hu, hy, hleap, ?_⟩
  rw [hyear, hinYear]

theorem toDays_ofDays (days : Int) : (ofDays days).toDays = days := by
  obtain ⟨era, e, u, hz, he, hy, hu, hdate⟩ := ofDays_parts days
  have hmonth : (5 * u + 2) / 153 ≤ 11 := by omega
  have hday : (153 * ((5 * u + 2) / 153) + 2) / 5 ≤ u := by omega
  have hera : (era * 400 + yearOfEra e) / 400 = era := by omega
  have hof : (era * 400 + yearOfEra e) % 400 = yearOfEra e := by omega
  rw [hdate]
  dsimp only
  split_ifs with h
  · have hlate : ¬ (5 * u + 2) / 153 + 3 ≤ 2 := by omega
    unfold toDays
    simp only [if_neg hlate, hera, hof, Nat.add_sub_cancel]
    omega
  · have hearly : (5 * u + 2) / 153 - 9 ≤ 2 := by omega
    have hback : (5 * u + 2) / 153 - 9 + 9 = (5 * u + 2) / 153 := by omega
    unfold toDays
    simp only [if_pos hearly, Int.add_sub_cancel, hera, hof, hback]
    omega

theorem isLeap_iff (year : Int) :
    isLeap year = true ↔ year % 4 = 0 ∧ (year % 100 ≠ 0 ∨ year % 400 = 0) := by
  simp [isLeap]

theorem ofDays_valid (days : Int) (h : leastYear ≤ (ofDays days).year)
    (h' : (ofDays days).year ≤ mostYear) : (ofDays days).isValid = true := by
  obtain ⟨era, e, u, -, -, hy, hu, hdate⟩ := ofDays_parts days
  have hmonth : 1 ≤ (ofDays days).month ∧ (ofDays days).month ≤ 12 := by
    rw [hdate]
    dsimp only
    split_ifs <;> dsimp only <;> omega
  have hday : 1 ≤ (ofDays days).day ∧
      (ofDays days).day ≤ monthLength (ofDays days).year (ofDays days).month := by
    rw [hdate]
    dsimp only
    split_ifs with hm
    · unfold monthLength
      dsimp only
      split_ifs <;> omega
    · -- February is the last month, and ends on the 29th in the years that have a day 365.
      have hleap : u = 365 → isLeap (era * 400 + yearOfEra e + 1) = true := by
        intro hlast
        rw [isLeap_iff]
        omega
      by_cases hlong : u = 365
      · simp only [monthLength, hleap hlong, if_true]
        split_ifs <;> omega
      · unfold monthLength
        dsimp only
        split_ifs <;> omega
  simp [isValid, h, h', hmonth, hday]

end FluentSql.Date
