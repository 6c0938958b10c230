import FluentSql.Numeric.Basic
import FluentSql.Proofs.Number.Nearest

namespace FluentSql.Numeric

/-- The magnitude that a number stands for. -/
def value (a : Numeric) : ℚ := a.mantissa / 10 ^ a.scale

theorem value_nonneg (a : Numeric) : 0 ≤ a.value := by
  unfold value
  positivity

/-- Digits with zeros after them stand for the same at the larger scale. -/
theorem digits_value (m : Nat) {s scale : Nat} (h : s ≤ scale) :
    ((m * 10 ^ (scale - s) : Nat) : ℚ) / 10 ^ scale = m / 10 ^ s := by
  have hsplit : (10 : ℚ) ^ scale = 10 ^ (scale - s) * 10 ^ s := by
    rw [← pow_add, Nat.sub_add_cancel h]
  rw [hsplit, Nat.cast_mul, Nat.cast_pow, Nat.cast_ofNat, mul_comm (m : ℚ),
    mul_div_mul_left _ _ (by positivity)]

theorem mantissa_eq {a : Numeric} {m scale : Nat} (hvalue : a.value = m / 10 ^ scale)
    (hscale : a.scale ≤ scale) : a.mantissa * 10 ^ (scale - a.scale) = m := by
  have hdigits := digits_value a.mantissa hscale
  have hpow : (10 : ℚ) ^ scale ≠ 0 := by positivity
  rw [← value, hvalue, div_left_inj' hpow] at hdigits
  exact_mod_cast hdigits

theorem trimScale_value (m scale : Nat) :
    ((trimScale m scale).1 : ℚ) / 10 ^ (trimScale m scale).2 = m / 10 ^ scale := by
  induction scale generalizing m with
  | zero => rfl
  | succ s ih =>
    rw [trimScale]
    split_ifs with hm
    · have hdigits := digits_value (m / 10) (Nat.le_succ s)
      have hten : m / 10 * 10 ^ (s + 1 - s) = m := by
        rw [Nat.add_sub_cancel_left]
        omega
      rw [ih, ← hdigits, hten]
    · rfl

theorem trimScale_zeros (scale : Nat) : trimScale 0 scale = (0, 0) := by
  induction scale with
  | zero => rfl
  | succ scale ih =>
    rw [trimScale, if_pos (Nat.zero_mod 10), Nat.zero_div]
    exact ih

theorem trimScale_scale (m scale : Nat) : (trimScale m scale).2 ≤ scale := by
  induction scale generalizing m with
  | zero => exact le_rfl
  | succ s ih =>
    rw [trimScale]
    split_ifs
    · exact (ih _).trans (Nat.le_succ s)
    · exact le_rfl

/-- Zeros are taken off down to any scale that the number has. -/
theorem trimScale_scale_le {m scale least : Nat} (h : 10 ^ (scale - least) ∣ m) :
    (trimScale m scale).2 ≤ least := by
  induction scale generalizing m with
  | zero => exact Nat.zero_le _
  | succ s ih =>
    by_cases hs : s + 1 ≤ least
    · exact (trimScale_scale m (s + 1)).trans hs
    · have hpow : 10 ^ (s + 1 - least) = 10 * 10 ^ (s - least) := by
        rw [← pow_succ', Nat.sub_add_comm (by omega)]
      rw [hpow] at h
      have hten : m % 10 = 0 := Nat.mod_eq_zero_of_dvd (dvd_of_mul_right_dvd h)
      rw [trimScale, if_pos hten]
      exact ih (Nat.dvd_div_of_mul_dvd h)

theorem fit?_of_lt {n : Nat} (h : n < limit) (scale : Nat) : fit? n scale = some (n, scale) := by
  have hdrop : dropDigits n 0 = n := by
    have hone := Binary.divideToEven_mul n Nat.one_pos
    rwa [Nat.mul_one] at hone
  unfold fit?
  rw [List.range_succ_eq_map, List.find?_cons_of_pos (by simpa [hdrop] using h)]
  simp [hdrop]

/-- Numbers whose sum has a mantissa that fits are added exactly. -/
theorem addMagnitude?_value {a b : Numeric} (ha : a.negative = false) (hb : b.negative = false)
    (h : (a.value + b.value) * 10 ^ max a.scale b.scale < limit) :
    ∃ c, addMagnitude? a b = some c ∧ c.negative = false ∧ c.scale ≤ max a.scale b.scale ∧
      c.value = a.value + b.value := by
  unfold addMagnitude?
  split_ifs with hazero hbzero
  · have hvalue : a.value = 0 := by simp [value, hazero]
    exact ⟨b, rfl, hb, le_max_right _ _, by rw [hvalue, zero_add]⟩
  · have hvalue : b.value = 0 := by simp [value, hbzero]
    exact ⟨a, rfl, ha, le_max_left _ _, by rw [hvalue, add_zero]⟩
  · dsimp only [Nat.pow_eq]
    generalize hscale : max a.scale b.scale = scale at h ⊢
    have hpow : (0 : ℚ) < 10 ^ scale := by positivity
    have hsum : ((a.mantissa * 10 ^ (scale - a.scale) + b.mantissa * 10 ^ (scale - b.scale) : Nat) :
        ℚ) / 10 ^ scale = a.value + b.value := by
      rw [Nat.cast_add, add_div, digits_value _ (hscale ▸ le_max_left _ _),
        digits_value _ (hscale ▸ le_max_right _ _)]
      rfl
    have hlt : a.mantissa * 10 ^ (scale - a.scale) + b.mantissa * 10 ^ (scale - b.scale) < limit := by
      rw [← hsum, div_mul_cancel₀ _ hpow.ne'] at h
      exact_mod_cast h
    rw [fit?_of_lt hlt]
    exact ⟨_, rfl, rfl, le_rfl, hsum⟩

theorem addMagnitude?_zero (n : Nat) :
    addMagnitude? ⟨false, n, 0⟩ ⟨false, 0, 0⟩ = some ⟨false, n, 0⟩ := by
  by_cases hn : n = 0 <;> simp [addMagnitude?, hn]

theorem extend_of_lt {n m : Nat} (h : m * 10 ^ n < limit) (scale : Nat) :
    extend n m scale = (m * 10 ^ n, scale + n) := by
  induction n generalizing m scale with
  | zero => simp [extend]
  | succ n ih =>
    have hpow : m * 10 * 10 ^ n = m * 10 ^ (n + 1) := by rw [pow_succ', Nat.mul_assoc]
    have hnext : m * 10 * 10 ^ n < limit := by rwa [hpow]
    have hone : m * 10 ≤ m * 10 * 10 ^ n := Nat.le_mul_of_pos_right _ (by positivity)
    rw [extend, if_pos (hone.trans_lt hnext), ih hnext, hpow]
    congr 1
    omega

/-- Zeros are appended while there is room, and one at least if there is. -/
theorem extend_zeros (k m scale : Nat) : ∃ j, extend k m scale = (m * 10 ^ j, scale + j) ∧
    (j = 0 ↔ k = 0 ∨ limit ≤ m * 10) := by
  induction k generalizing m scale with
  | zero => exact ⟨0, by simp [extend], by simp⟩
  | succ k ih =>
    rw [extend]
    split_ifs with hroom
    · obtain ⟨j, hj, -⟩ := ih (m * 10) (scale + 1)
      refine ⟨j + 1, ?_, iff_of_false (by simp) (by rintro (h | h) <;> omega)⟩
      rw [hj, pow_succ', Nat.mul_assoc]
      congr 1
      omega
    · exact ⟨0, by simp, by simp; omega⟩

/-- A number is given the scale that it was written with. -/
theorem rescale_value {a : Numeric} {m scale : Nat} (hvalue : a.value = m / 10 ^ scale)
    (hscale : a.scale ≤ scale) (hmost : scale ≤ maxScale) (hm : m ≠ 0) (hlimit : m < limit) :
    a.rescale scale = ⟨a.negative, m, scale⟩ := by
  have hmantissa := mantissa_eq hvalue hscale
  have hzero : a.mantissa ≠ 0 := by
    intro h
    rw [h, Nat.zero_mul] at hmantissa
    exact hm hmantissa.symm
  unfold rescale
  dsimp only
  rw [min_eq_left hmost, if_neg hzero]
  split_ifs with hsame
  · have heq : scale = a.scale := le_antisymm hsame hscale
    have hunit : (2 * m + 1) / 2 = m := by omega
    rw [heq, Nat.sub_self, pow_zero, Nat.mul_one] at hmantissa
    simp [hmantissa, heq, hunit]
  · rw [extend_of_lt (hmantissa ▸ hlimit), hmantissa, Nat.add_sub_cancel' hscale]

/-- A whole number keeps its value whatever scale it is given; it is left without one only if it was
sent without, or is too large. -/
theorem rescale_whole (negative : Bool) (n scale : Nat) : ∃ k,
    rescale ⟨negative, n, 0⟩ scale = ⟨negative, n * 10 ^ k, k⟩ ∧
      (k = 0 ↔ scale = 0 ∨ limit ≤ n * 10) := by
  have hmax : min scale maxScale = 0 ↔ scale = 0 := by
    unfold maxScale
    omega
  unfold rescale
  dsimp only
  split_ifs with hn hscale
  · refine ⟨min scale maxScale, by simp [hn], ?_⟩
    rw [hmax, hn]
    simp [limit]
  · have hzero := Nat.le_zero.mp hscale
    refine ⟨0, ?_, by simp [hmax.mp hzero]⟩
    rw [hzero]
    simp
    omega
  · obtain ⟨k, hk, hiff⟩ := extend_zeros (min scale maxScale - 0) n 0
    rw [hk]
    refine ⟨k, by simp, ?_⟩
    rw [hiff, Nat.sub_zero, hmax]

end FluentSql.Numeric
