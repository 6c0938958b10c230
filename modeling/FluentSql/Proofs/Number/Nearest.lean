import FluentSql.Number.Binary
import Mathlib.Algebra.Order.Field.Power
import Mathlib.Data.Int.Log
import Mathlib.Data.Rat.Floor
import Mathlib.Tactic.FieldSimp
import Mathlib.Tactic.Ring
import Mathlib.Tactic.Positivity

namespace FluentSql.Binary

variable {n d : Nat}

theorem inUnits_pos (n : Nat) (hd : 0 < d) (u : Int) : 0 < (inUnits n d u).2 := by
  cases u with
  | ofNat u => exact Nat.mul_pos hd (Nat.two_pow_pos u)
  | negSucc u => exact hd

theorem inUnits_ratio (n : Nat) (hd : 0 < d) (u : Int) :
    ((inUnits n d u).1 : ℚ) / (inUnits n d u).2 = n / d / 2 ^ u := by
  have hd' : (d : ℚ) ≠ 0 := by exact_mod_cast hd.ne'
  cases u with
  | ofNat u =>
    simp only [inUnits, Nat.pow_eq, Int.ofNat_eq_natCast, zpow_natCast, Nat.cast_mul, Nat.cast_pow,
      Nat.cast_ofNat]
    field_simp
  | negSucc u =>
    simp only [inUnits, Nat.pow_eq, zpow_negSucc, Nat.cast_mul, Nat.cast_pow, Nat.cast_ofNat]
    field_simp

theorem ratio_pos (m : Nat) (u : Int) : 0 < (ratio m u).2 := by
  cases u with
  | ofNat u => exact Nat.one_pos
  | negSucc u => exact Nat.two_pow_pos (u + 1)

theorem ratio_value (m : Nat) (u : Int) : ((ratio m u).1 : ℚ) / (ratio m u).2 = m * 2 ^ u := by
  cases u with
  | ofNat u =>
    simp only [ratio, Nat.pow_eq, Int.ofNat_eq_natCast, zpow_natCast, Nat.cast_mul, Nat.cast_pow,
      Nat.cast_ofNat, Nat.cast_one, div_one]
  | negSucc u =>
    simp only [ratio, Nat.pow_eq, zpow_negSucc, Nat.cast_pow, Nat.cast_ofNat]
    rw [div_eq_mul_inv]

theorem log2_bounds (hn : 0 < n) :
    (2 : ℚ) ^ (n.log2 : Int) ≤ n ∧ (n : ℚ) < 2 ^ (n.log2 + 1 : Int) := by
  have hpow (k : Nat) : (2 : ℚ) ^ (k : Int) = ((2 ^ k : Nat) : ℚ) := by
    rw [zpow_natCast, Nat.cast_pow, Nat.cast_ofNat]
  rw [← Nat.cast_succ, hpow, hpow]
  exact ⟨by exact_mod_cast Nat.log2_self_le hn.ne', by exact_mod_cast Nat.lt_log2_self⟩

theorem logRatio_eq (hn : 0 < n) (hd : 0 < d) : logRatio n d = Int.log 2 ((n : ℚ) / d) := by
  have hn' : (0 : ℚ) < n := by exact_mod_cast hn
  have hd' : (0 : ℚ) < d := by exact_mod_cast hd
  have hq : (0 : ℚ) < n / d := div_pos hn' hd'
  obtain ⟨hnlow, hnhigh⟩ := log2_bounds hn
  obtain ⟨hdlow, hdhigh⟩ := log2_bounds hd
  generalize hguess : (n.log2 : Int) - d.log2 = guess
  have hupper : Int.log 2 ((n : ℚ) / d) < guess + 1 := by
    rw [← Int.lt_zpow_iff_log_lt (by decide) hq, div_lt_iff₀ hd']
    have hsplit : (n.log2 + 1 : Int) = guess + 1 + d.log2 := by omega
    calc (n : ℚ) < 2 ^ (n.log2 + 1 : Int) := hnhigh
      _ = 2 ^ (guess + 1) * 2 ^ (d.log2 : Int) := by
        rw [hsplit, zpow_add₀ (by norm_num)]
      _ ≤ 2 ^ (guess + 1) * d := by gcongr
  have hlower : guess - 1 ≤ Int.log 2 ((n : ℚ) / d) := by
    rw [← Int.zpow_le_iff_le_log (by decide) hq, le_div_iff₀ hd']
    have hsplit : guess - 1 + (d.log2 + 1 : Int) = n.log2 := by omega
    calc (2 : ℚ) ^ (guess - 1) * d ≤ 2 ^ (guess - 1) * 2 ^ (d.log2 + 1 : Int) := by gcongr
      _ = 2 ^ (n.log2 : Int) := by rw [← zpow_add₀ (by norm_num), hsplit]
      _ ≤ n := hnlow
  have hcompare : (inUnits n d guess).1 < (inUnits n d guess).2 ↔
      Int.log 2 ((n : ℚ) / d) < guess := by
    have hb : (0 : ℚ) < (inUnits n d guess).2 := by exact_mod_cast inUnits_pos n hd guess
    have hone : (inUnits n d guess).1 < (inUnits n d guess).2 ↔ (n : ℚ) / d / 2 ^ guess < 1 := by
      rw [← inUnits_ratio n hd, div_lt_one hb, Nat.cast_lt]
    rw [hone, div_lt_one (by positivity)]
    exact Int.lt_zpow_iff_log_lt (by decide) hq
  unfold logRatio
  dsimp only
  rw [hguess]
  split_ifs with h
  · have := hcompare.mp h
    omega
  · have := mt hcompare.mpr h
    omega

theorem divideToEven_mul (m : Nat) {b : Nat} (hb : 0 < b) : divideToEven (m * b) b = m := by
  unfold divideToEven
  dsimp only
  rw [Nat.mul_mod_left, Nat.mul_div_cancel m hb]
  simp [hb.ne]

namespace Format

variable {f : Format} {m : Nat} {u : Int}

/-- A mantissa and a unit as a number of the format has them. -/
structure Canonical (f : Format) (m : Nat) (u : Int) : Prop where
  least : f.leastUnit ≤ u
  bound : m < 2 ^ (f.fraction + 1)
  full : u = f.leastUnit ∨ 2 ^ f.fraction ≤ m

/-- The bits of such a number, without its sign. -/
def code (f : Format) (m : Nat) (u : Int) : Nat := (u - f.leastUnit).toNat * 2 ^ f.fraction + m

theorem log_mul_zpow (hm : 0 < m) (u : Int) :
    Int.log 2 ((m : ℚ) * 2 ^ u) = m.log2 + u := by
  have hm' : (0 : ℚ) < m := by exact_mod_cast hm
  have hq : (0 : ℚ) < m * 2 ^ u := by positivity
  obtain ⟨hlow, hhigh⟩ := log2_bounds hm
  have hleast : (m.log2 + u : Int) ≤ Int.log 2 ((m : ℚ) * 2 ^ u) := by
    rw [← Int.zpow_le_iff_le_log (by decide) hq]
    calc (2 : ℚ) ^ (m.log2 + u : Int) = 2 ^ (m.log2 : Int) * 2 ^ u := zpow_add₀ (by norm_num) _ _
      _ ≤ m * 2 ^ u := by gcongr
  have hmost : Int.log 2 ((m : ℚ) * 2 ^ u) < m.log2 + 1 + u := by
    rw [← Int.lt_zpow_iff_log_lt (by decide) hq]
    calc (m : ℚ) * 2 ^ u < 2 ^ (m.log2 + 1 : Int) * 2 ^ u := by gcongr
      _ = 2 ^ (m.log2 + 1 + u : Int) := (zpow_add₀ (by norm_num) _ _).symm
  omega

/-- The unit that a number of the format is rounded to is its own. -/
theorem Canonical.unit_eq (hc : f.Canonical m u) (hm : 0 < m) :
    max ((m.log2 + u : Int) - f.fraction) f.leastUnit = u := by
  have hmost : m.log2 < f.fraction + 1 := (Nat.log2_lt hm.ne').mpr hc.bound
  have hleast := hc.least
  obtain hu | hfull := hc.full
  · omega
  · have hlog : f.fraction ≤ m.log2 := (Nat.le_log2 hm.ne').mpr hfull
    omega

/-- A number of the format is the nearest to itself. -/
theorem Canonical.nearest (hc : f.Canonical m u) (hm : 0 < m) (hd : 0 < d)
    (hvalue : (n : ℚ) / d = m * 2 ^ u) (hfinite : f.code m u ≤ f.infinity) :
    f.nearest n d = f.code m u := by
  have hpos : (0 : ℚ) < m * 2 ^ u := by
    have hm' : (0 : ℚ) < m := by exact_mod_cast hm
    positivity
  have hn : 0 < n := by
    rcases Nat.eq_zero_or_pos n with rfl | hn
    · rw [Nat.cast_zero, zero_div] at hvalue
      exact absurd hvalue hpos.ne
    · exact hn
  have hb := inUnits_pos n hd u
  have hexact : (inUnits n d u).1 = m * (inUnits n d u).2 := by
    have hb' : ((inUnits n d u).2 : ℚ) ≠ 0 := by exact_mod_cast hb.ne'
    have hratio := inUnits_ratio n hd u
    rw [hvalue, mul_div_cancel_right₀ _ (by positivity), div_eq_iff hb'] at hratio
    exact_mod_cast hratio
  unfold Format.nearest
  rw [if_neg hn.ne', logRatio_eq hn hd, hvalue, log_mul_zpow hm u, hc.unit_eq hm]
  dsimp only
  rw [hexact, divideToEven_mul m hb]
  exact min_eq_right hfinite

theorem code_zero (f : Format) : f.code 0 f.leastUnit = 0 := by simp [code]

theorem nearest_le_infinity (f : Format) (n d : Nat) : f.nearest n d ≤ f.infinity := by
  unfold Format.nearest
  split_ifs
  · exact Nat.zero_le _
  · exact min_le_left _ _

theorem nearest_zero (f : Format) (d : Nat) : f.nearest 0 d = 0 := rfl

end Format

end FluentSql.Binary
