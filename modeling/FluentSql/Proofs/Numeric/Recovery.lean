import FluentSql.Proofs.Numeric.Digits
import Mathlib.Data.Nat.Factorization.Basic

namespace FluentSql.Numeric

open Double (ofRatio)

theorem whole_eq {m n : Nat} (h : |(m : ℚ) - n| < 1) : m = n := by
  have hwhole : |(m : Int) - n| < 1 := by exact_mod_cast h
  have hsame : (m : Int) - n = 0 := Int.abs_lt_one_iff.mp hwhole
  omega

namespace Rebase

def value (r : Rebase) : ℚ := r.mantissa * 10 ^ r.exponent

/-- The part of a number that one halving can lose. -/
def loss : ℚ := 5 / limit

theorem halve_step (n : Nat) (r : Rebase) : ∃ next, halve (n + 1) r = halve n next ∧
    r.value * 5 * (1 - loss) ≤ next.value ∧ next.value ≤ r.value * 5 ∧
      next.exponent ≤ r.exponent + 1 := by
  obtain ⟨m, e⟩ := r
  have hpow : (0 : ℚ) < 10 ^ e := by positivity
  have hloss : 0 ≤ loss := by
    unfold loss
    positivity
  have hkept {x : ℚ} (hx : 0 ≤ x) : x * (1 - loss) ≤ x := by
    have hpart : 0 ≤ x * loss := mul_nonneg hx hloss
    linarith
  have hvalue : 0 ≤ (⟨m, e⟩ : Rebase).value * 5 := by
    unfold value
    positivity
  have hten : (10 : ℚ) ^ (e + 1) = 10 ^ e * 10 := zpow_add_one₀ (by norm_num) e
  rw [halve]
  split_ifs with heven hfive
  · have hhalf : (⟨m / 2, e + 1⟩ : Rebase).value = (⟨m, e⟩ : Rebase).value * 5 := by
      have hm : (m : ℚ) = 2 * (m / 2 : Nat) := by exact_mod_cast (by omega : m = 2 * (m / 2))
      rw [value, value, hten, hm]
      ring
    exact ⟨_, rfl, (hkept hvalue).trans hhalf.ge, hhalf.le, le_rfl⟩
  · have hfifth : (⟨m * 5, e⟩ : Rebase).value = (⟨m, e⟩ : Rebase).value * 5 := by
      rw [value, value, Nat.cast_mul, Nat.cast_ofNat]
      ring
    exact ⟨_, rfl, (hkept hvalue).trans hfifth.ge, hfifth.le, by simp⟩
  · have hm : (m : ℚ) = 2 * (m / 2 : Nat) + 1 := by exact_mod_cast (by omega : m = 2 * (m / 2) + 1)
    have hbit : 1 ≤ m * loss := by
      have hlarge : (limit : ℚ) ≤ m * 5 := by exact_mod_cast Nat.not_lt.mp hfive
      have hlimit : (0 : ℚ) < limit := by norm_num [limit]
      rw [loss, mul_div_assoc', le_div_iff₀ hlimit, one_mul]
      exact hlarge
    have hhalf : (⟨m / 2, e + 1⟩ : Rebase).value = (⟨m, e⟩ : Rebase).value * 5 - 5 * 10 ^ e := by
      rw [value, value, hten, hm]
      ring
    refine ⟨_, rfl, ?_, ?_, le_rfl⟩
    · have hlost : 5 * 10 ^ e ≤ (⟨m, e⟩ : Rebase).value * 5 * loss := by
        have hscaled := mul_le_mul_of_nonneg_left hbit (by positivity : (0 : ℚ) ≤ 5 * 10 ^ e)
        calc 5 * (10 : ℚ) ^ e = 5 * 10 ^ e * 1 := (mul_one _).symm
          _ ≤ 5 * 10 ^ e * (m * loss) := hscaled
          _ = (⟨m, e⟩ : Rebase).value * 5 * loss := by
            rw [value]
            ring
      rw [hhalf]
      linarith
    · rw [hhalf]
      linarith

theorem halve_value (n : Nat) (r : Rebase) :
    r.value * 5 ^ n * (1 - loss) ^ n ≤ (halve n r).value ∧
      (halve n r).value ≤ r.value * 5 ^ n ∧ (halve n r).exponent ≤ r.exponent + n := by
  induction n generalizing r with
  | zero => simp [halve]
  | succ n ih =>
    obtain ⟨next, heq, hleast, hmost, hexponent⟩ := halve_step n r
    obtain ⟨ihleast, ihmost, ihexponent⟩ := ih next
    have hkept : 0 ≤ 1 - loss := by norm_num [loss, limit]
    rw [heq]
    refine ⟨?_, ?_, ?_⟩
    · calc r.value * 5 ^ (n + 1) * (1 - loss) ^ (n + 1)
          = r.value * 5 * (1 - loss) * (5 ^ n * (1 - loss) ^ n) := by ring
        _ ≤ next.value * (5 ^ n * (1 - loss) ^ n) :=
          mul_le_mul_of_nonneg_right hleast (by positivity)
        _ = next.value * 5 ^ n * (1 - loss) ^ n := (mul_assoc _ _ _).symm
        _ ≤ (halve n next).value := ihleast
    · calc (halve n next).value ≤ next.value * 5 ^ n := ihmost
        _ ≤ r.value * 5 * 5 ^ n := mul_le_mul_of_nonneg_right hmost (by positivity)
        _ = r.value * 5 ^ (n + 1) := by ring
    · push_cast
      omega

/-- The digits left of a number within `η` of `v`, with `j` of them after the point: all that is
dropped adds up to less than a unit of the last place. -/
structure Tracks (v η : ℚ) (j : Nat) (r : Rebase) : Prop where
  exponent : r.exponent = -j
  least : (v - η) * 10 ^ j - 4 / 9 ≤ r.mantissa
  most : r.mantissa ≤ (v + η) * 10 ^ j + 5 / 9

variable {v η : ℚ} {j : Nat} {r : Rebase}

theorem Tracks.of_near (hexponent : r.exponent = -j) (hnear : |r.value - v| ≤ η) :
    Tracks v η j r := by
  have hpow : (0 : ℚ) < 10 ^ j := by positivity
  have hdigits : (r.mantissa : ℚ) = r.value * 10 ^ j := by
    rw [value, hexponent, zpow_neg, zpow_natCast, inv_mul_cancel_right₀ hpow.ne']
  obtain ⟨hbelow, habove⟩ := abs_le.mp hnear
  have hleast : (v - η) * 10 ^ j ≤ r.value * 10 ^ j :=
    mul_le_mul_of_nonneg_right (by linarith) hpow.le
  have hmost : r.value * 10 ^ j ≤ (v + η) * 10 ^ j :=
    mul_le_mul_of_nonneg_right (by linarith) hpow.le
  exact ⟨hexponent, by linarith, by linarith⟩

theorem Tracks.dropDigit (h : Tracks v η (j + 1) r) : Tracks v η j r.dropDigit := by
  have hdigit : 10 * r.dropDigit.mantissa ≤ r.mantissa + 5 ∧
      r.mantissa ≤ 10 * r.dropDigit.mantissa + 4 := by
    unfold Rebase.dropDigit
    dsimp only
    split_ifs <;> omega
  have hup : (10 * r.dropDigit.mantissa : ℚ) ≤ r.mantissa + 5 := by exact_mod_cast hdigit.1
  have hdown : (r.mantissa : ℚ) ≤ 10 * r.dropDigit.mantissa + 4 := by exact_mod_cast hdigit.2
  obtain ⟨hexponent, hleast, hmost⟩ := h
  rw [pow_succ, ← mul_assoc] at hleast hmost
  refine ⟨?_, by linarith, by linarith⟩
  rw [dropDigit_exponent, hexponent]
  push_cast
  omega

/-- Digits beyond the largest scale are dropped one by one. -/
theorem Tracks.lower (hv : 1 / 10 ^ 20 ≤ v - η) (h : Tracks v η j r) :
    Tracks v η (min j maxScale) (lower (j - maxScale) r) := by
  induction hn : j - maxScale generalizing j r with
  | zero =>
    rwa [min_eq_left (Nat.sub_eq_zero_iff_le.mp hn)]
  | succ n ih =>
    obtain ⟨i, rfl⟩ : ∃ i, j = i + 1 := ⟨j - 1, by omega⟩
    have hmany : maxScale ≤ i := by omega
    have hlarge : ¬r.mantissa / 10 = 0 := by
      have hpow : (10 : ℚ) ^ 21 ≤ 10 ^ (i + 1) := by
        refine pow_le_pow_right₀ (by norm_num) ?_
        unfold maxScale at hmany
        omega
      have hdigits : (v - η) * 10 ^ 21 ≤ (v - η) * 10 ^ (i + 1) :=
        mul_le_mul_of_nonneg_left hpow (le_trans (by positivity) hv)
      have hleast := h.least
      have hten : (9 : ℚ) < r.mantissa := by linarith
      have hten' : 9 < r.mantissa := by exact_mod_cast hten
      omega
    have hnext := ih h.dropDigit (by omega)
    rw [min_eq_right hmany] at hnext
    rw [Rebase.lower, if_neg hlarge, min_eq_right (hmany.trans (Nat.le_succ i))]
    exact hnext

/-- Digits are dropped until a double holds them, and none that the number has. -/
theorem Tracks.shorten {s n : Nat} (hs : s ≤ n)
    (hfits : ∀ r, Tracks v η s r → r.mantissa < 4503599627370496) (h : Tracks v η n r) :
    ∃ j, s ≤ j ∧ j ≤ n ∧ Tracks v η j (shorten n r) ∧
      (shorten n r).mantissa < 4503599627370496 := by
  induction n generalizing r with
  | zero =>
    obtain rfl := Nat.le_zero.mp hs
    exact ⟨0, le_rfl, le_rfl, h, hfits r h⟩
  | succ n ih =>
    rw [Rebase.shorten]
    split_ifs with hlarge
    · have hmore : s ≠ n + 1 := by
        rintro rfl
        exact (Nat.not_le.mpr (hfits r h)) hlarge
      obtain ⟨j, hj, hj', hrest⟩ := ih (by omega) h.dropDigit
      exact ⟨j, hj, by omega, hrest⟩
    · exact ⟨n + 1, hs, le_rfl, h, Nat.not_le.mp hlarge⟩

/-- Where the error is small, a number without more digits is left as it is. -/
theorem Tracks.mantissa_eq {c : Nat} (hη : η * 10 ^ j < 4 / 9) (hc : v * 10 ^ j = c)
    (h : Tracks v η j r) : r.mantissa = c := by
  have hleast := h.least
  have hmost := h.most
  rw [sub_mul, hc] at hleast
  rw [add_mul, hc] at hmost
  exact whole_eq (abs_lt.mpr ⟨by linarith, by linarith⟩)

/-- The error of a double whose first bit stands for `2 ^ k`, with what halving loses. -/
def blur (k : Int) : ℚ := 2 ^ (k - 53) * (1 + 1 / 2 ^ 30)

/-- Below 4096 fifteen to sixteen digits are above the error of a double; `2 ^ 12` and twelve digits
after the point are the first that are not. -/
theorem blur_digits {k : Int} (hleast : -50 ≤ k) (hmost : k ≤ 11) (hj : j ≤ maxScale)
    (h : (2 : ℚ) ^ k * 10 ^ j < 2 ^ 52) : blur k * 10 ^ j < 4 / 9 := by
  have htable : ∀ a < 62, ∀ j < 29, 2 ^ a * 10 ^ j < 2 ^ 102 →
      9 * (2 ^ 30 + 1) * (2 ^ a * 10 ^ j) < 2 ^ 135 := by
    decide +kernel
  obtain ⟨a, rfl⟩ : ∃ a : Nat, k = a - 50 := ⟨(k + 50).toNat, by omega⟩
  have hscaled (i : Nat) : (2 : ℚ) ^ ((a : Int) - i) = 2 ^ a / 2 ^ i := by
    rw [zpow_sub₀ (by norm_num), zpow_natCast, zpow_natCast]
  have hshift : (a : Int) - 50 - 53 = a - (103 : Nat) := by omega
  have hpoint : (a : Int) - 50 = a - (50 : Nat) := rfl
  rw [hpoint, hscaled, div_mul_eq_mul_div, div_lt_iff₀ (by positivity)] at h
  have hsmall : 2 ^ a * 10 ^ j < 2 ^ 102 := by
    have hcast : (2 : ℚ) ^ a * 10 ^ j < 2 ^ 102 := h.trans_eq (by norm_num)
    exact_mod_cast hcast
  have hdigits := htable a (by omega) j (Nat.lt_succ_of_le hj) hsmall
  have hdigits' : (9 * (2 ^ 30 + 1) * (2 ^ a * 10 ^ j) : ℚ) < 2 ^ 135 := by exact_mod_cast hdigits
  rw [blur, hshift, hscaled]
  linarith

/-- A double in units of `2 ^ -n` is halved `n` times at little cost. -/
theorem halve_near {m n : Nat} {w : ℚ} (hn : n ≤ 102) (hv : v ≤ 2 ^ 54 * w)
    (h : |m * 2 ^ (-n : Int) - v| ≤ w) :
    |(halve n ⟨m, -n⟩).value - v| ≤ w * (1 + 1 / 2 ^ 30) ∧ (halve n ⟨m, -n⟩).exponent ≤ 0 := by
  obtain ⟨hleast, hmost, hexponent⟩ := halve_value n ⟨m, -n⟩
  have hsame : (⟨m, -n⟩ : Rebase).value * 5 ^ n = m * 2 ^ (-n : Int) := by
    have hten : (10 : ℚ) ^ n = 2 ^ n * 5 ^ n := by
      rw [← mul_pow]
      norm_num
    rw [value, zpow_neg, zpow_neg, zpow_natCast, zpow_natCast, hten]
    field_simp
  rw [hsame] at hleast hmost
  have hnonneg : (0 : ℚ) ≤ m * 2 ^ (-n : Int) := by positivity
  generalize (m : ℚ) * 2 ^ (-n : Int) = x at h hleast hmost hnonneg
  have hlost : 1 - 1 / 2 ^ 86 ≤ (1 - loss) ^ n := by
    have hbernoulli : 1 + n * -loss ≤ (1 + -loss) ^ n :=
      one_add_mul_le_pow (by norm_num [loss, limit]) n
    have hn' : (n : ℚ) ≤ 102 := by exact_mod_cast hn
    have htotal : n * loss ≤ 102 * loss :=
      mul_le_mul_of_nonneg_right hn' (by norm_num [loss, limit])
    have hunit : 102 * loss ≤ 1 / 2 ^ 86 := by norm_num [loss, limit]
    rw [← sub_eq_add_neg] at hbernoulli
    linarith
  have hkept : x * (1 - 1 / 2 ^ 86) ≤ x * (1 - loss) ^ n := mul_le_mul_of_nonneg_left hlost hnonneg
  obtain ⟨hbelow, habove⟩ := abs_le.mp h
  refine ⟨abs_le.mpr ⟨by linarith, by linarith⟩, ?_⟩
  dsimp only at hexponent
  omega

end Rebase

theorem trimScale_append {m : Nat} (h : m % 10 ≠ 0) (s n : Nat) :
    trimScale (m * 10 ^ n) (s + n) = (m, s) := by
  induction n with
  | zero =>
    rw [pow_zero, Nat.mul_one, Nat.add_zero]
    cases s with
    | zero => rfl
    | succ s => rw [trimScale, if_neg h]
  | succ n ih =>
    have hten : m * 10 ^ (n + 1) = m * 10 ^ n * 10 := by rw [pow_succ, Nat.mul_assoc]
    rw [hten, ← Nat.add_assoc, trimScale, if_pos (Nat.mul_mod_left _ _),
      Nat.mul_div_cancel _ (by decide)]
    exact ih

theorem digits_shifted (m : Nat) {s j : Nat} (hj : s ≤ j) :
    (m : ℚ) / 10 ^ s * 10 ^ j = (m * 10 ^ (j - s) : Nat) := by
  have hpow : (10 : ℚ) ^ j ≠ 0 := by positivity
  rw [← digits_value m hj, div_mul_cancel₀ _ hpow]

/-- Digits `m` without a zero at the end, `s` of them after the point, of a number whose first bit
stands for `2 ^ k`. -/
structure Few (m s : Nat) (k : Int) : Prop where
  digits : m < 10 ^ 15
  scale : s ≤ 15
  trimmed : m % 10 ≠ 0
  least : -50 ≤ k
  most : k ≤ 11
  bit : (2 : ℚ) ^ k ≤ m / 10 ^ s

namespace Few

variable {m s j e : Nat} {k : Int} {r : Rebase}

theorem blur_lt (h : Few m s k) (hj : j ≤ maxScale) (hsize : (m : ℚ) / 10 ^ s * 10 ^ j < 2 ^ 52) :
    Rebase.blur k * 10 ^ j < 4 / 9 := by
  refine Rebase.blur_digits h.least h.most hj ?_
  exact (mul_le_mul_of_nonneg_right h.bit (by positivity)).trans_lt hsize

theorem blur_scale (h : Few m s k) : Rebase.blur k * 10 ^ s < 4 / 9 := by
  refine h.blur_lt (h.scale.trans (by decide)) ?_
  have hm : (m : ℚ) < 10 ^ 15 := by exact_mod_cast h.digits
  rw [div_mul_cancel₀ _ (by positivity)]
  exact hm.trans (by norm_num)

theorem blur_le (h : Few m s k) : Rebase.blur k ≤ m / 10 ^ s * ((1 + 1 / 2 ^ 30) / 2 ^ 53) := by
  have hbit := mul_le_mul_of_nonneg_right h.bit
    (by positivity : (0 : ℚ) ≤ (1 + 1 / 2 ^ 30) / 2 ^ 53)
  rw [Rebase.blur, zpow_sub₀ (by norm_num)]
  refine (Eq.le ?_).trans hbit
  rw [zpow_ofNat]
  ring

theorem least_value (h : Few m s k) : 1 / 10 ^ 20 ≤ m / 10 ^ s - Rebase.blur k := by
  have hm : (1 : ℚ) ≤ m := by
    have hpos : 1 ≤ m := by
      have htrimmed := h.trimmed
      omega
    exact_mod_cast hpos
  have hunit : (10 : ℚ) ^ s ≤ 10 ^ 15 := pow_le_pow_right₀ (by norm_num) h.scale
  have hvalue : (1 : ℚ) / 10 ^ 15 ≤ m / 10 ^ s := div_le_div₀ (by linarith) hm (by positivity) hunit
  have hblur := h.blur_le
  linarith

/-- A number near enough to the digits has as many after the point. -/
theorem scale_le (h : Few m s k) (hexponent : r.exponent = -e)
    (hnear : |r.value - m / 10 ^ s| ≤ Rebase.blur k) : s ≤ e := by
  by_contra hless
  have hpow : (0 : ℚ) < 10 ^ s := by positivity
  have hvalue : r.value * 10 ^ s = (r.mantissa * 10 ^ (s - e) : Nat) := by
    have hdigits := digits_shifted r.mantissa (Nat.le_of_not_le hless)
    rw [Rebase.value, hexponent, zpow_neg, zpow_natCast, ← div_eq_mul_inv]
    exact hdigits
  have hunits : |((r.mantissa * 10 ^ (s - e) : Nat) : ℚ) - m| < 1 := by
    have hscaled := mul_le_mul_of_nonneg_right hnear hpow.le
    rw [← abs_of_pos hpow, ← abs_mul, abs_of_pos hpow, sub_mul, div_mul_cancel₀ _ hpow.ne',
      hvalue] at hscaled
    have hblur := h.blur_scale
    linarith
  have hsame : r.mantissa * 10 ^ (s - e) = m := whole_eq hunits
  apply h.trimmed
  rw [← hsame]
  exact Nat.mod_eq_zero_of_dvd ((dvd_pow_self 10 (by omega)).mul_left _)

/-- What fits into a double stands for less than `2 ^ 52` units. -/
theorem units_lt (h : Few m s k) (htracks : Rebase.Tracks (m / 10 ^ s) (Rebase.blur k) j r)
    (hfits : r.mantissa < 4503599627370496) : (m : ℚ) / 10 ^ s * 10 ^ j < 2 ^ 52 := by
  have hmantissa : (r.mantissa : ℚ) ≤ 2 ^ 52 - 1 := by
    have hcast : (r.mantissa : ℚ) + 1 ≤ 4503599627370496 := by exact_mod_cast hfits
    linarith
  have hblur := mul_le_mul_of_nonneg_right h.blur_le (by positivity : (0 : ℚ) ≤ 10 ^ j)
  have hleast := htracks.least
  rw [mul_right_comm] at hblur
  rw [sub_mul] at hleast
  by_contra hmany
  linarith

/-- Of a number that is nearly the digits, the digits are what is left. -/
theorem shorten (h : Few m s k) (hexponent : r.exponent ≤ 0)
    (hnear : |r.value - m / 10 ^ s| ≤ Rebase.blur k) :
    let lowered := Rebase.lower (-r.exponent - maxScale).toNat r
    let short := Rebase.shorten (-lowered.exponent).toNat lowered
    trimScale short.mantissa (-short.exponent).toNat = (m, s) := by
  intro lowered short
  obtain ⟨e, he⟩ : ∃ e : Nat, r.exponent = -e := ⟨(-r.exponent).toNat, by omega⟩
  have hscale : s ≤ e := h.scale_le he hnear
  have hlowered : Rebase.Tracks (m / 10 ^ s) (Rebase.blur k) (min e maxScale) lowered := by
    have hdropped := (Rebase.Tracks.of_near he hnear).lower h.least_value
    have hcount : (-r.exponent - maxScale).toNat = e - maxScale := by omega
    rwa [← hcount] at hdropped
  have hown (r : Rebase) (htracks : Rebase.Tracks (m / 10 ^ s) (Rebase.blur k) s r) :
      r.mantissa < 4503599627370496 := by
    have hm : r.mantissa = m := htracks.mantissa_eq h.blur_scale (div_mul_cancel₀ _ (by positivity))
    rw [hm]
    exact h.digits.trans (by decide)
  obtain ⟨j, hj, hj', hshort, hfits⟩ :=
    hlowered.shorten (le_min hscale (h.scale.trans (by decide))) hown
  have hcount : (-lowered.exponent).toNat = min e maxScale := by
    rw [hlowered.exponent, neg_neg, Int.toNat_natCast]
  rw [← hcount] at hshort hfits
  have hsmall := h.blur_lt (hj'.trans (min_le_right _ _)) (h.units_lt hshort hfits)
  have hm : short.mantissa = m * 10 ^ (j - s) := hshort.mantissa_eq hsmall (digits_shifted m hj)
  rw [hm, hshort.exponent, neg_neg, Int.toNat_natCast]
  obtain ⟨n, rfl⟩ := Nat.exists_eq_add_of_le hj
  rw [Nat.add_sub_cancel_left]
  exact trimScale_append h.trimmed s n

theorem of_lt (hm : m < 10 ^ 15) (hs : s ≤ 15) (hvalue : m < 4096 * 10 ^ s)
    (htrimmed : m % 10 ≠ 0) : Few m s (Int.log 2 ((m : ℚ) / 10 ^ s)) := by
  have hpos : (1 : ℚ) ≤ m := by exact_mod_cast (by omega : 1 ≤ m)
  have hpow : (0 : ℚ) < 10 ^ s := by positivity
  have hratio : (0 : ℚ) < m / 10 ^ s := by positivity
  refine ⟨hm, hs, htrimmed, ?_, ?_, (Int.zpow_le_iff_le_log (by decide) hratio).mpr le_rfl⟩
  · refine (Int.zpow_le_iff_le_log (by decide) hratio).mp ?_
    have hunit : (10 : ℚ) ^ s ≤ 10 ^ 15 := pow_le_pow_right₀ (by norm_num) hs
    have hleast : (1 : ℚ) / 10 ^ 15 ≤ m / 10 ^ s := div_le_div₀ (by linarith) hpos hpow hunit
    refine le_trans ?_ hleast
    norm_num
  · refine Int.lt_add_one_iff.mp ((Int.lt_zpow_iff_log_lt (by decide) hratio).mp ?_)
    have hvalue' : (m : ℚ) < 4096 * 10 ^ s := by exact_mod_cast hvalue
    rw [div_lt_iff₀ hpow]
    norm_num
    exact hvalue'

end Few

/-- A decimal number of fifteen digits below 4096 becomes itself again after it was a double. -/
theorem ofDouble?_ofRatio (negative : Bool) {m s : Nat} (hm : m < 10 ^ 15) (hs : s ≤ 15)
    (hvalue : m < 4096 * 10 ^ s) (htrimmed : m % 10 ≠ 0) :
    ofDouble? (ofRatio negative m (10 ^ s)) = some ⟨negative, m, s⟩ := by
  have hfew := Few.of_lt hm hs hvalue htrimmed
  obtain ⟨k, hk⟩ : ∃ k, Int.log 2 ((m : ℚ) / (10 ^ s : Nat)) = k := ⟨_, rfl⟩
  have hk' : Int.log 2 ((m : ℚ) / 10 ^ s) = k := by rwa [Nat.cast_pow, Nat.cast_ofNat] at hk
  rw [hk'] at hfew
  have hleast := hfew.least
  have hmost := hfew.most
  obtain ⟨x, u, hc, hx, hfinite, hnearest, hu, hu', herror⟩ :=
    Binary.nearest_double (by omega) (by positivity) hk (by omega) (by omega)
  have hshape : (ofRatio negative m (10 ^ s)).shape = .finite negative x u :=
    Double.shape_ofRatio hc hfinite hnearest
  obtain ⟨n, rfl⟩ : ∃ n, u = .negSucc n := ⟨(-u - 1).toNat, by omega⟩
  rw [Nat.cast_pow, Nat.cast_ofNat] at herror
  have hvalue' : (m : ℚ) / 10 ^ s ≤ 2 ^ 54 * 2 ^ (k - 53) := by
    have hless := Int.lt_zpow_succ_log_self (b := 2) (by decide) ((m : ℚ) / 10 ^ s)
    have hsplit : ((2 : Nat) : ℚ) ^ (k + 1) = 2 ^ 54 * 2 ^ (k - 53) := by
      rw [Nat.cast_ofNat, ← zpow_natCast, ← zpow_add₀ (by norm_num)]
      congr 1
      omega
    rw [hk', hsplit] at hless
    exact hless.le
  obtain ⟨hnear, hexponent⟩ := Rebase.halve_near (n := n + 1) (by omega) hvalue' herror
  have hdigits := hfew.shorten hexponent hnear
  obtain ⟨x, rfl⟩ : ∃ i, x = i + 1 := ⟨x - 1, by omega⟩
  unfold ofDouble?
  rw [hshape]
  exact congrArg (fun d : Nat × Nat => some (⟨negative, d.1, d.2⟩ : Numeric)) hdigits

/-- From 4096 on, a double can differ from the number in a digit that is kept. -/
example : ofDouble? (ofRatio false 4096029 (10 ^ 3)) = some ⟨false, 4096029000000001, 12⟩ := by
  decide +kernel

/-- A number below 4096 with digits after the point, and fifteen at most in all. -/
structure Short (a : Numeric) : Prop where
  digits : a.mantissa < 10 ^ 15
  scale : a.scale ≤ 15
  small : a.mantissa < 4096 * 10 ^ a.scale
  fraction : a.mantissa % 10 ^ a.scale ≠ 0

variable {a : Numeric}

/-- Without the zeros at its end there still are digits after the point. -/
theorem Short.trimmed (h : a.Short) : ∃ m n, m % 10 ≠ 0 ∧ n < a.scale ∧
    a.mantissa = m * 10 ^ n := by
  have hpos : a.mantissa ≠ 0 := by
    intro hzero
    have hfraction := h.fraction
    rw [hzero, Nat.zero_mod] at hfraction
    exact hfraction rfl
  obtain ⟨n, m, hm, heq⟩ := Nat.exists_eq_pow_mul_and_not_dvd hpos 10 (by decide)
  refine ⟨m, n, fun hten => hm (Nat.dvd_of_mod_eq_zero hten), ?_, by rw [heq, Nat.mul_comm]⟩
  by_contra hmany
  apply h.fraction
  rw [heq]
  exact Nat.mod_eq_zero_of_dvd ((pow_dvd_pow 10 (Nat.not_lt.mp hmany)).mul_right m)

/-- The double of such a number is the number's again. -/
theorem Short.recovered (h : a.Short) : ∃ b, ofDouble? a.toDouble = some b ∧ b.scale ≠ 0 ∧
    b.toDouble = a.toDouble := by
  obtain ⟨m, n, hm, hn, heq⟩ := h.trimmed
  obtain ⟨negative, mantissa, scale⟩ := a
  obtain ⟨hdigits, hscale, hsmall, hfraction⟩ := h
  dsimp only at *
  subst heq
  obtain ⟨s, rfl⟩ : ∃ s, scale = s + n := ⟨scale - n, by omega⟩
  have hzeros : 0 < 10 ^ n := by positivity
  have hdouble : toDouble ⟨negative, m * 10 ^ n, s + n⟩ = ofRatio negative m (10 ^ s) := by
    rw [toDouble_digits negative hdigits hscale hfraction]
    refine Double.ofRatio_congr negative (by positivity) (by positivity) ?_
    rw [pow_add]
    push_cast
    field_simp
  have hless : m < 10 ^ 15 := (Nat.le_mul_of_pos_right m hzeros).trans_lt hdigits
  have hsmall' : m < 4096 * 10 ^ s := by
    rw [pow_add, ← Nat.mul_assoc] at hsmall
    exact Nat.lt_of_mul_lt_mul_right hsmall
  have hfraction' : m % 10 ^ s ≠ 0 := by
    intro hzero
    have hten : 10 ∣ m := (dvd_pow_self 10 (by omega)).trans (Nat.dvd_of_mod_eq_zero hzero)
    exact hm (Nat.mod_eq_zero_of_dvd hten)
  refine ⟨⟨negative, m, s⟩, ?_, by dsimp only; omega, ?_⟩
  · rw [hdouble, ofDouble?_ofRatio negative hless (by omega) hsmall' hm]
  · rw [hdouble, toDouble_digits negative hless (by omega) hfraction']

end FluentSql.Numeric
