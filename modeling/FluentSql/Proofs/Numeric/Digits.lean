import FluentSql.Numeric.ToDouble
import FluentSql.Proofs.Number.Rounding
import FluentSql.Proofs.Numeric.OfDouble

namespace FluentSql.Numeric

open Double (ofRatio divMagnitude addMagnitude mulMagnitude Near)

theorem roundMagnitude_near {r : Double} {m : Nat} (h : |r.size - m| < 1 / 2) :
    roundMagnitude r = ofRatio false m 1 := by
  have hpos := r.magnitude_pos
  have hpos' : (0 : ℚ) < r.magnitude.2 := by exact_mod_cast hpos
  have hsize : r.size * r.magnitude.2 = r.magnitude.1 := div_mul_cancel₀ _ hpos'.ne'
  obtain ⟨hleast, hmost⟩ := abs_lt.mp h
  have hlow : (2 * m * r.magnitude.2 : ℚ) < 2 * r.magnitude.1 + r.magnitude.2 := by
    rw [← hsize]
    nlinarith
  have hhigh : (2 * r.magnitude.1 + r.magnitude.2 : ℚ) < 2 * (m + 1) * r.magnitude.2 := by
    rw [← hsize]
    nlinarith
  have hlow' : 2 * m * r.magnitude.2 < 2 * r.magnitude.1 + r.magnitude.2 := by exact_mod_cast hlow
  have hhigh' : 2 * r.magnitude.1 + r.magnitude.2 < 2 * (m + 1) * r.magnitude.2 := by
    exact_mod_cast hhigh
  have hrounded : (2 * r.magnitude.1 + r.magnitude.2) / (2 * r.magnitude.2) = m := by
    refine Nat.div_eq_of_lt_le ?_ ?_
    · calc m * (2 * r.magnitude.2) = 2 * m * r.magnitude.2 := by ring
        _ ≤ 2 * r.magnitude.1 + r.magnitude.2 := hlow'.le
    · calc 2 * r.magnitude.1 + r.magnitude.2 < 2 * (m + 1) * r.magnitude.2 := hhigh'
        _ = (m + 1) * (2 * r.magnitude.2) := by ring
  change ofRatio false ((2 * r.magnitude.1 + r.magnitude.2) / (2 * r.magnitude.2)) 1 = _
  rw [hrounded]

/-- Three roundings on the way back to the digits lose less than a half. -/
theorem digits_near {whole fraction step : Double} {m s : Nat} (hm : m < 10 ^ 15) (hs : s ≤ 15)
    (hrest : m % 10 ^ s ≠ 0) (hwhole : whole.size = (m / 10 ^ s : Nat))
    (hstep : step.size = (10 ^ s : Nat))
    (hfraction : Near fraction.size ((m % 10 ^ s : Nat) / (10 ^ s : Nat))) :
    |(mulMagnitude (addMagnitude whole fraction) step).size - m| < 1 / 2 := by
  have hunit : 1 ≤ 10 ^ s := Nat.one_le_pow _ _ (by decide)
  have hunit' : 10 ^ s ≤ 10 ^ 15 := Nat.pow_le_pow_right (by decide) hs
  have hparts : 10 ^ s * (m / 10 ^ s) + m % 10 ^ s = m := Nat.div_add_mod m _
  generalize 10 ^ s = unit at *
  generalize m / unit = w at *
  generalize m % unit = rest at *
  have hu : (1 : ℚ) ≤ unit := by exact_mod_cast hunit
  have hu' : (unit : ℚ) ≤ 10 ^ 15 := by exact_mod_cast hunit'
  have hup : (0 : ℚ) < unit := by linarith
  have hr : (1 : ℚ) ≤ rest := by exact_mod_cast Nat.one_le_iff_ne_zero.mpr hrest
  have hw : (0 : ℚ) ≤ w := Nat.cast_nonneg w
  have huw : (w : ℚ) ≤ unit * w := le_mul_of_one_le_left hw hu
  have hsum : (unit * w + rest : ℚ) = m := by exact_mod_cast hparts
  have hm' : (m : ℚ) < 10 ^ 15 := by exact_mod_cast hm
  -- In units of the last digit every error is linear in the digits.
  have hf : Near (fraction.size * unit) rest := by
    have hscaled := hfraction.scaled hup.le
    rwa [div_mul_cancel₀ _ hup.ne'] at hscaled
  obtain ⟨hflow, hfhigh⟩ := hf.bounds
  have hfpos : 0 ≤ fraction.size := by
    rw [← mul_le_mul_iff_left₀ hup, zero_mul]
    linarith
  have hfunit : fraction.size ≤ fraction.size * unit := le_mul_of_one_le_right hfpos hu
  have hfleast : 1 / 2 ^ 60 ≤ fraction.size := by
    have hmost : fraction.size * unit ≤ fraction.size * 10 ^ 15 :=
      mul_le_mul_of_nonneg_left hu' hfpos
    linarith
  have hs : Near ((addMagnitude whole fraction).size * unit)
      (unit * w + fraction.size * unit) := by
    have hnear : Near (addMagnitude whole fraction).size (w + fraction.size) :=
      Double.near_add (by rw [hwhole]) (by linarith) (by linarith)
    have hscaled := hnear.scaled hup.le
    rwa [add_mul, mul_comm (w : ℚ)] at hscaled
  obtain ⟨hslow, hshigh⟩ := hs.bounds
  have hp : Near (mulMagnitude (addMagnitude whole fraction) step).size
      ((addMagnitude whole fraction).size * unit) :=
    Double.near_mul (by rw [hstep]) (by linarith) (by linarith)
  obtain ⟨hplow, hphigh⟩ := hp.bounds
  rw [abs_lt]
  constructor <;> linarith

/-- A quotient of two whole doubles is the double nearest to it. -/
theorem divMagnitude_whole {n d : Nat} (hn : n < 2 ^ 53) (hpos : 0 < d) (hd : d < 2 ^ 53) :
    divMagnitude (ofRatio false n 1) (ofRatio false d 1) = ofRatio false n d := by
  have hsize := Double.size_whole hd
  refine Double.divMagnitude_eq ?_ hpos ?_
  · rw [hsize]
    exact_mod_cast hpos.ne'
  · rw [hsize, Double.size_whole hn]

theorem fraction_near {n d : Nat} (hpos : 0 < n) (hn : n < d) (hd : d < 2 ^ 53) :
    Near (ofRatio false n d).size (n / d) := by
  have hone : (1 : ℚ) ≤ n := by exact_mod_cast hpos
  have hless : (n : ℚ) < d := by exact_mod_cast hn
  have hmost : (d : ℚ) < 2 ^ 53 := by exact_mod_cast hd
  have hd' : (0 : ℚ) < d := by linarith
  refine Double.near_ofRatio (by omega) rfl ?_ ?_
  · rw [le_div_iff₀ hd']
    linarith
  · exact ((div_lt_one hd').mpr hless).trans (by norm_num)

/-- A number with up to fifteen digits, not all of them before the point, becomes the double nearest
to it. -/
theorem toDouble_digits (negative : Bool) {m s : Nat} (hm : m < 10 ^ 15) (hs : s ≤ 15)
    (hrest : m % 10 ^ s ≠ 0) : toDouble ⟨negative, m, s⟩ = ofRatio negative m (10 ^ s) := by
  have hs0 : s ≠ 0 := by
    rintro rfl
    simp [Nat.mod_one] at hrest
  have hpow : 0 < 10 ^ s := by positivity
  have hunit : 10 ^ s < 2 ^ 53 :=
    (Nat.pow_le_pow_right (by decide) hs).trans_lt (by decide : 10 ^ 15 < 2 ^ 53)
  have hlimit {n : Nat} (h : n ≤ m) : n < 2 ^ 53 := by omega
  have hfraction : Near (ofRatio false (m % 10 ^ s) (10 ^ s)).size _ :=
    fraction_near (Nat.pos_of_ne_zero hrest) (Nat.mod_lt m hpow) hunit
  have hround := roundMagnitude_near (digits_near hm hs hrest
    (Double.size_whole (hlimit (Nat.div_le_self m _))) (Double.size_whole hunit) hfraction)
  have hsome : (ofRatio false (m % 10 ^ s) (10 ^ s)).magnitude.1 ≠ 0 := by
    intro hzero
    have hpos : (0 : ℚ) < (m % 10 ^ s : Nat) / (10 ^ s : Nat) := by
      have hrest' : (0 : ℚ) < (m % 10 ^ s : Nat) := by exact_mod_cast Nat.pos_of_ne_zero hrest
      have hpow' : (0 : ℚ) < (10 ^ s : Nat) := by exact_mod_cast hpow
      positivity
    have hleast := hfraction.bounds.1
    rw [Double.size, hzero, Nat.cast_zero, zero_div] at hleast
    linarith
  unfold toDouble
  dsimp only [Nat.pow_eq]
  rw [if_neg hs0, divMagnitude_whole (hlimit (Nat.mod_le m _)) hpow hunit, if_neg hsome, hround,
    divMagnitude_whole (hlimit le_rfl) hpow hunit, Double.negate_ofRatio]
  cases negative <;> simp [hs0]

end FluentSql.Numeric
