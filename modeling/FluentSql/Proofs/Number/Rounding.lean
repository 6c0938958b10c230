import FluentSql.Proofs.Number.Whole
import Mathlib.Tactic.Linarith

namespace FluentSql.Binary

theorem divideToEven_scaled (a b : Nat) {c : Nat} (hc : 0 < c) :
    divideToEven (a * c) (b * c) = divideToEven a b := by
  have hover : b * c < 2 * (a % b * c) ↔ b < 2 * (a % b) := by
    rw [← Nat.mul_assoc]
    exact Nat.mul_lt_mul_right hc
  have htie : 2 * (a % b * c) = b * c ↔ 2 * (a % b) = b := by
    rw [← Nat.mul_assoc]
    exact Nat.mul_left_inj hc.ne'
  unfold divideToEven
  simp only [Nat.mul_div_mul_right _ _ hc, Nat.mul_mod_mul_right, hover, htie, beq_iff_eq,
    Bool.or_eq_true, Bool.and_eq_true, decide_eq_true_eq]

/-- The quotient is rounded by its value alone. -/
theorem divideToEven_congr {a b a' b' : Nat} (hb : 0 < b) (hb' : 0 < b')
    (h : a * b' = a' * b) : divideToEven a b = divideToEven a' b' := by
  rw [← divideToEven_scaled a b hb', ← divideToEven_scaled a' b' hb, h, Nat.mul_comm b b']

theorem divideToEven_near (a : Nat) {b : Nat} (hb : 0 < b) :
    |(divideToEven a b : ℚ) - a / b| ≤ 1 / 2 := by
  have hb' : (0 : ℚ) < b := by exact_mod_cast hb
  have hparts : b * (a / b) + a % b = a := Nat.div_add_mod a b
  have hrest : a % b < b := Nat.mod_lt a hb
  have hwithin : 2 * a ≤ 2 * (b * divideToEven a b) + b ∧
      2 * (b * divideToEven a b) ≤ 2 * a + b := by
    unfold divideToEven
    dsimp only
    split_ifs with hup
    · rw [Nat.mul_succ]
      simp only [Bool.or_eq_true, Bool.and_eq_true, decide_eq_true_eq, beq_iff_eq] at hup
      omega
    · simp only [Bool.or_eq_true, Bool.and_eq_true, decide_eq_true_eq, beq_iff_eq] at hup
      omega
  have hleast : (2 * a : ℚ) ≤ 2 * (b * divideToEven a b) + b := by exact_mod_cast hwithin.1
  have hmost : (2 * (b * divideToEven a b) : ℚ) ≤ 2 * a + b := by exact_mod_cast hwithin.2
  have hdiff : (divideToEven a b : ℚ) - a / b = (b * divideToEven a b - a) / b := by
    field_simp
  rw [hdiff, abs_le, le_div_iff₀ hb', div_le_iff₀ hb']
  constructor <;> linarith

/-- Between whole numbers the rounded quotient stays between them. -/
theorem divideToEven_bounds {a b least most : Nat} (hb : 0 < b) (hleast : (least : ℚ) ≤ a / b)
    (hmost : (a : ℚ) / b < most) : least ≤ divideToEven a b ∧ divideToEven a b ≤ most := by
  obtain ⟨habove, hbelow⟩ := abs_le.mp (divideToEven_near a hb)
  have hlow : (least : ℚ) < divideToEven a b + 1 := by linarith
  have hhigh : (divideToEven a b : ℚ) < most + 1 := by linarith
  have hlow' : least < divideToEven a b + 1 := by exact_mod_cast hlow
  have hhigh' : divideToEven a b < most + 1 := by exact_mod_cast hhigh
  omega

variable {f : Format} {n d n' d' : Nat}

/-- So is a number of a format. -/
theorem Format.nearest_congr (hd : 0 < d) (hd' : 0 < d') (h : (n : ℚ) / d = n' / d') :
    f.nearest n d = f.nearest n' d' := by
  have hdq : (d : ℚ) ≠ 0 := by exact_mod_cast hd.ne'
  have hdq' : (d' : ℚ) ≠ 0 := by exact_mod_cast hd'.ne'
  have hcross : n * d' = n' * d := by
    rw [div_eq_div_iff hdq hdq'] at h
    exact_mod_cast h
  rcases Nat.eq_zero_or_pos n with rfl | hn
  · rw [Nat.zero_mul, eq_comm, Nat.mul_eq_zero, or_iff_left hd.ne'] at hcross
    rw [hcross]
    rfl
  have hn' : 0 < n' := by
    rcases Nat.eq_zero_or_pos n' with rfl | hn'
    · rw [Nat.zero_mul, Nat.mul_eq_zero] at hcross
      omega
    · exact hn'
  have hdivide (unit : Int) : divideToEven (inUnits n d unit).1 (inUnits n d unit).2 =
      divideToEven (inUnits n' d' unit).1 (inUnits n' d' unit).2 := by
    have hb := inUnits_pos n hd unit
    have hb' := inUnits_pos n' hd' unit
    have hbq : ((inUnits n d unit).2 : ℚ) ≠ 0 := by exact_mod_cast hb.ne'
    have hbq' : ((inUnits n' d' unit).2 : ℚ) ≠ 0 := by exact_mod_cast hb'.ne'
    refine divideToEven_congr hb hb' ?_
    have hratio := (inUnits_ratio n hd unit).trans ((congrArg (· / (2 : ℚ) ^ unit) h).trans
      (inUnits_ratio n' hd' unit).symm)
    rw [div_eq_div_iff hbq hbq'] at hratio
    exact_mod_cast hratio
  unfold Format.nearest
  rw [if_neg hn.ne', if_neg hn'.ne', logRatio_eq hn hd, logRatio_eq hn' hd', h]
  dsimp only
  rw [hdivide]

/-- A quotient in units of the last place of the double that it is rounded to. -/
theorem inUnits_double (hn : 0 < n) (hd : 0 < d) {k : Int} (hk : Int.log 2 ((n : ℚ) / d) = k) :
    let parts := inUnits n d (k - 52)
    ((2 ^ 52 : Nat) : ℚ) ≤ parts.1 / parts.2 ∧ (parts.1 : ℚ) / parts.2 < (2 ^ 53 : Nat) := by
  intro parts
  have hq : (0 : ℚ) < n / d := by
    have hn' : (0 : ℚ) < n := by exact_mod_cast hn
    have hd' : (0 : ℚ) < d := by exact_mod_cast hd
    positivity
  have hpow : (0 : ℚ) < 2 ^ (k - 52) := by positivity
  have hratio : (parts.1 : ℚ) / parts.2 = n / d / 2 ^ (k - 52) := inUnits_ratio n hd (k - 52)
  have hsplit (i : Nat) : (2 : ℚ) ^ (k - 52 + i) = 2 ^ i * 2 ^ (k - 52) := by
    rw [zpow_add₀ (by norm_num), zpow_natCast, mul_comm]
  have hfirst : k = k - 52 + (52 : Nat) := by omega
  have hnext : k + 1 = k - 52 + (53 : Nat) := by omega
  have hlow : (2 : ℚ) ^ k ≤ n / d := (Int.zpow_le_iff_le_log (by decide) hq).mpr hk.ge
  have hhigh : (n : ℚ) / d < 2 ^ (k + 1) := by
    have hlog : Int.log 2 ((n : ℚ) / d) < k + 1 := hk ▸ Int.lt_succ _
    exact (Int.lt_zpow_iff_log_lt (by decide) hq).mpr hlog
  rw [hfirst, hsplit] at hlow
  rw [hnext, hsplit] at hhigh
  rw [hratio, le_div_iff₀ hpow, div_lt_iff₀ hpow]
  push_cast
  exact ⟨hlow, hhigh⟩

/-- Above the subnormal numbers the last place is 52 places below the first. -/
theorem nearest_eq (hn : 0 < n) (hd : 0 < d) {k : Int} (hk : Int.log 2 ((n : ℚ) / d) = k)
    (hleast : -1022 ≤ k) : double.nearest n d = min double.infinity
      ((k - 52 - -1074).toNat * 2 ^ 52 +
        divideToEven (inUnits n d (k - 52)).1 (inUnits n d (k - 52)).2) := by
  have hunit : max (k - 52) (-1074) = k - 52 := by omega
  unfold Format.nearest
  rw [if_neg hn.ne', logRatio_eq hn hd, hk]
  change min double.infinity ((max (k - 52) (-1074) - -1074).toNat * 2 ^ 52 +
    divideToEven (inUnits n d (max (k - 52) (-1074))).1
      (inUnits n d (max (k - 52) (-1074))).2) = _
  rw [hunit]

/-- Far from both ends, a quotient is rounded to a number within half a unit of its last place. -/
theorem nearest_double (hn : 0 < n) (hd : 0 < d) {k : Int} (hk : Int.log 2 ((n : ℚ) / d) = k)
    (hleast : -1000 ≤ k) (hmost : k ≤ 900) :
    ∃ m u, double.Canonical m u ∧ 2 ^ 52 ≤ m ∧ double.code m u < double.infinity ∧
      double.nearest n d = double.code m u ∧ k - 52 ≤ u ∧ u ≤ k - 51 ∧
      |(m : ℚ) * 2 ^ u - n / d| ≤ 2 ^ (k - 53) := by
  have hpow : (0 : ℚ) < 2 ^ (k - 52) := by positivity
  have hb : 0 < (inUnits n d (k - 52)).2 := inUnits_pos n hd (k - 52)
  have hnear := divideToEven_near (inUnits n d (k - 52)).1 hb
  rw [inUnits_ratio n hd (k - 52)] at hnear
  have hcode := nearest_eq hn hd hk (by omega)
  obtain ⟨hlow, hhigh⟩ := inUnits_double hn hd hk
  obtain ⟨hm, hm'⟩ := divideToEven_bounds hb hlow hhigh
  generalize divideToEven (inUnits n d (k - 52)).1 (inUnits n d (k - 52)).2 = m at *
  have hplace {u next : Int} (hnext : next = u + 1) : (2 : ℚ) ^ next = 2 ^ u * 2 := by
    rw [hnext, zpow_add_one₀ (by norm_num)]
  have herror : |(m : ℚ) * 2 ^ (k - 52) - n / d| ≤ 2 ^ (k - 53) := by
    have hscaled : (m : ℚ) * 2 ^ (k - 52) - n / d = (m - n / d / 2 ^ (k - 52)) * 2 ^ (k - 52) := by
      rw [sub_mul, div_mul_cancel₀ _ hpow.ne']
    have hhalf : (2 : ℚ) ^ (k - 53) = 1 / 2 * 2 ^ (k - 52) := by
      rw [hplace (by omega : k - 52 = k - 53 + 1)]
      ring
    rw [hscaled, abs_mul, abs_of_pos hpow, hhalf]
    exact mul_le_mul_of_nonneg_right hnear hpow.le
  have hfinite : double.infinity = 2047 * 2 ^ 52 := rfl
  rcases Nat.lt_or_eq_of_le hm' with hlt | rfl
  · have hbits : double.code m (k - 52) = (k - 52 - -1074).toNat * 2 ^ 52 + m := rfl
    refine ⟨m, k - 52, ⟨?_, hlt, .inr hm⟩, hm, ?_, ?_, le_rfl, by omega, herror⟩
    · change -1074 ≤ k - 52
      omega
    · omega
    · rw [hcode, hbits]
      omega
  -- The mantissa is carried into the next place.
  · have hbits : double.code (2 ^ 52) (k - 51) = (k - 51 - -1074).toNat * 2 ^ 52 + 2 ^ 52 := rfl
    refine ⟨2 ^ 52, k - 51, ⟨?_, by decide, .inr le_rfl⟩, le_rfl, ?_, ?_, by omega, le_rfl, ?_⟩
    · change -1074 ≤ k - 51
      omega
    · omega
    · rw [hcode, hbits]
      omega
    · have hcarry : ((2 ^ 52 : Nat) : ℚ) * 2 ^ (k - 51) =
          ((2 ^ 53 : Nat) : ℚ) * 2 ^ (k - 52) := by
        rw [hplace (by omega : k - 51 = k - 52 + 1)]
        push_cast
        ring
      rw [hcarry]
      exact herror

end FluentSql.Binary

namespace FluentSql.Double

open Binary (double)

/-- The magnitude of a double as one number. -/
def size (r : Double) : ℚ := r.magnitude.1 / r.magnitude.2

theorem magnitude_pos (r : Double) : 0 < r.magnitude.2 := by
  unfold magnitude
  split
  · exact Binary.ratio_pos _ _
  · exact Nat.one_pos

theorem size_finite {r : Double} {negative : Bool} {m : Nat} {u : Int}
    (h : r.shape = .finite negative m u) : r.size = m * 2 ^ u := by
  unfold size magnitude
  rw [h]
  exact Binary.ratio_value m u

theorem size_value? {r : Double} {x : ℚ} (h : r.value? = some x) : r.size = |x| := by
  unfold value? at h
  split at h
  · next negative m u hshape =>
    have hnonneg : (0 : ℚ) ≤ m * 2 ^ u := by positivity
    rw [size_finite hshape, ← Option.some.inj h]
    split_ifs
    · rw [abs_neg, abs_of_nonneg hnonneg]
    · rw [abs_of_nonneg hnonneg]
  · cases h

theorem size_whole {n : Nat} (h : n < 2 ^ 53) : (ofRatio false n 1).size = n := by
  have hvalue := value?_ofRatio (holds_of_lt h) (h.trans (by decide)) false
  rw [size_value? hvalue]
  simp

/-- Equal up to the error of one rounding. -/
def Near (x q : ℚ) : Prop := |x - q| ≤ q / 2 ^ 53

theorem Near.bounds {x q : ℚ} (h : Near x q) : q - q / 2 ^ 53 ≤ x ∧ x ≤ q + q / 2 ^ 53 := by
  obtain ⟨hleast, hmost⟩ := abs_le.mp h
  constructor <;> linarith

theorem Near.scaled {x q c : ℚ} (h : Near x q) (hc : 0 ≤ c) : Near (x * c) (q * c) := by
  rw [Near, ← sub_mul, abs_mul, abs_of_nonneg hc, mul_div_right_comm]
  exact mul_le_mul_of_nonneg_right h hc

variable {n d : Nat} {a b : Double} {q : ℚ}

theorem ofRatio_congr {n' d' : Nat} (negative : Bool) (hd : 0 < d) (hd' : 0 < d')
    (h : (n : ℚ) / d = n' / d') : ofRatio negative n d = ofRatio negative n' d' := by
  rw [ofRatio, double.nearest_congr hd hd' h, ofRatio]

/-- A quotient that is neither huge nor tiny is rounded once. -/
theorem near_ofRatio (hd : 0 < d) (hq : (n : ℚ) / d = q) (hleast : 1 / 2 ^ 60 ≤ q)
    (hmost : q < 2 ^ 60) : Near (ofRatio false n d).size q := by
  have hpos : (0 : ℚ) < n / d := by
    rw [hq]
    exact lt_of_lt_of_le (by positivity) hleast
  have hn : 0 < n := by
    rcases Nat.eq_zero_or_pos n with rfl | hn
    · simp at hpos
    · exact hn
  have hlow : -60 ≤ Int.log 2 ((n : ℚ) / d) := by
    refine (Int.zpow_le_iff_le_log (by decide) hpos).mp ?_
    rw [hq]
    norm_num at hleast ⊢
    exact hleast
  have hhigh : Int.log 2 ((n : ℚ) / d) < 60 := by
    refine (Int.lt_zpow_iff_log_lt (by decide) hpos).mp ?_
    rw [hq]
    exact_mod_cast hmost
  obtain ⟨m, u, hc, -, hfinite, hnearest, -, -, herror⟩ :=
    Binary.nearest_double hn hd rfl (by omega) (by omega)
  have hunit : (2 : ℚ) ^ (Int.log 2 ((n : ℚ) / d) - 53) ≤ q / 2 ^ 53 := by
    have hself := (Int.zpow_le_iff_le_log (b := 2) (by decide) hpos).mpr le_rfl
    rw [zpow_sub₀ (by norm_num)]
    rw [hq] at hself ⊢
    exact div_le_div_of_nonneg_right hself (by positivity)
  rw [Near, size_finite (shape_ofRatio hc hfinite hnearest), ← hq]
  rw [← hq] at hunit
  exact herror.trans hunit

theorem near_add (h : a.size + b.size = q) (hleast : 1 / 2 ^ 60 ≤ q) (hmost : q < 2 ^ 60) :
    Near (addMagnitude a b).size q := by
  have ha := a.magnitude_pos
  have hb := b.magnitude_pos
  refine near_ofRatio (Nat.mul_pos ha hb) ?_ hleast hmost
  have ha' : (a.magnitude.2 : ℚ) ≠ 0 := by exact_mod_cast ha.ne'
  have hb' : (b.magnitude.2 : ℚ) ≠ 0 := by exact_mod_cast hb.ne'
  change ((a.magnitude.1 * b.magnitude.2 + b.magnitude.1 * a.magnitude.2 : Nat) : ℚ) /
    (a.magnitude.2 * b.magnitude.2 : Nat) = q
  rw [← h, size, size, div_add_div _ _ ha' hb']
  push_cast
  ring

theorem near_mul (h : a.size * b.size = q) (hleast : 1 / 2 ^ 60 ≤ q) (hmost : q < 2 ^ 60) :
    Near (mulMagnitude a b).size q := by
  refine near_ofRatio (Nat.mul_pos a.magnitude_pos b.magnitude_pos) ?_ hleast hmost
  rw [← h, size, size, div_mul_div_comm]
  push_cast
  rfl

/-- A quotient of doubles is rounded as the quotient of what they stand for. -/
theorem divMagnitude_eq (hb : b.size ≠ 0) (hd : 0 < d) (h : a.size / b.size = n / d) :
    divMagnitude a b = ofRatio false n d := by
  have hzero : b.magnitude.1 ≠ 0 := by
    intro hzero
    rw [size, hzero, Nat.cast_zero, zero_div] at hb
    exact hb rfl
  refine ofRatio_congr false (Nat.mul_pos a.magnitude_pos (Nat.pos_of_ne_zero hzero)) hd ?_
  rw [← h, size, size, div_div_div_eq]
  push_cast
  rfl

end FluentSql.Double
