import FluentSql.Proofs.Number.Conversion

namespace FluentSql.Double

open Binary (double)

/-- The number that a double is, unless it is infinite or no number. -/
def value? (r : Double) : Option ℚ :=
  match r.shape with
  | .finite negative m u => some (if negative then -(m * 2 ^ u) else m * 2 ^ u)
  | _ => none

theorem quotient_eq_iff {n d : Nat} (hd : 0 < d) (i : Int) :
    (n : ℚ) / d = i ↔ n % d = 0 ∧ ((n / d : Nat) : Int) = i := by
  have hd' : (d : ℚ) ≠ 0 := by exact_mod_cast hd.ne'
  rw [div_eq_iff hd']
  constructor
  · intro h
    have hmul : (n : Int) = i * d := by exact_mod_cast h
    have hmod : (n : Int) % d = 0 := by rw [hmul, Int.mul_emod_left]
    have hdiv : (n : Int) / d = i := by
      rw [hmul, Int.mul_ediv_cancel i (by exact_mod_cast hd.ne')]
    exact ⟨by exact_mod_cast hmod, by exact_mod_cast hdiv⟩
  · rintro ⟨hmod, rfl⟩
    have hmul : n = n / d * d := (Nat.div_mul_cancel (Nat.dvd_of_mod_eq_zero hmod)).symm
    exact_mod_cast hmul

/-- A double is whole if its exact value is. -/
theorem whole?_eq_some_iff {r : Double} {i : Int} :
    r.whole? = some i ↔ r.value? = some (i : ℚ) := by
  unfold whole? value?
  cases r.shape with
  | nan => simp
  | infinite => simp
  | finite negative m u =>
    have hd := Binary.ratio_pos m u
    dsimp only
    rw [← Binary.ratio_value m u]
    generalize (Binary.ratio m u).1 = n, (Binary.ratio m u).2 = d at hd ⊢
    cases negative with
    | false => simp [quotient_eq_iff hd]
    | true =>
      have hneg : -((n : ℚ) / d) = i ↔ n % d = 0 ∧ -((n / d : Nat) : Int) = i := by
        rw [neg_eq_iff_eq_neg, neg_eq_iff_eq_neg, ← Int.cast_neg, quotient_eq_iff hd]
      simpa using hneg.symm

/-- Whether a double can be this whole number: 53 bits are enough for it, and zeros after them. -/
def Holds (n : Nat) : Prop := ∃ m k, m < 2 ^ 53 ∧ n = m * 2 ^ k

theorem holds_of_lt {n : Nat} (h : n < 2 ^ 53) : Holds n := ⟨n, 0, h, (Nat.mul_one n).symm⟩

variable {n d m : Nat} {u : Int} {negative : Bool}

theorem toNat_ofRatio (negative : Bool) (n d : Nat) :
    (ofRatio negative n d).bits.toNat = double.withSign negative (double.nearest n d) :=
  toNat_ofNatBits
    (withSign_lt ((double.nearest_le_infinity n d).trans_lt double.infinity_lt_signBit))

/-- A quotient that is a number of the format is not rounded. -/
theorem shape_ofRatio (hc : double.Canonical m u) (hfinite : double.code m u < double.infinity)
    (hnearest : double.nearest n d = double.code m u) :
    (ofRatio negative n d).shape = .finite negative m u := by
  rw [shape, toNat_ofRatio, hnearest]
  exact hc.shape_code hfinite

/-- A whole number that a double can be is not rounded. -/
theorem value?_ofRatio (h : Holds n) (hn : n < 2 ^ 96) (negative : Bool) :
    (ofRatio negative n 1).value? = some ((if negative then -(n : Int) else n : Int) : ℚ) := by
  obtain ⟨m, k, hm, rfl⟩ := h
  rcases Nat.eq_zero_or_pos m with rfl | hpos
  · have hzero : double.Canonical 0 double.leastUnit := ⟨le_rfl, Nat.two_pow_pos _, .inl rfl⟩
    have hnearest : double.nearest (0 * 2 ^ k) 1 = double.code 0 double.leastUnit := by
      rw [Nat.zero_mul]
      rfl
    rw [value?, shape_ofRatio hzero (by decide) hnearest]
    simp
  · have hk : k < 96 := by
      refine (Nat.pow_lt_pow_iff_right (by decide : 1 < 2)).mp ?_
      exact (Nat.le_mul_of_pos_left _ hpos).trans_lt hn
    obtain ⟨m', u', hc, hm', hfinite, hvalue⟩ :=
      Binary.in_double (u := k) hpos hm (by omega) (by omega)
    have hwhole : ((m * 2 ^ k : Nat) : ℚ) / (1 : Nat) = m' * 2 ^ u' := by
      rw [hvalue, zpow_natCast, Nat.cast_one, div_one, Nat.cast_mul, Nat.cast_pow, Nat.cast_ofNat]
    have hnearest := hc.nearest hm' Nat.one_pos hwhole hfinite.le
    rw [value?, shape_ofRatio hc hfinite hnearest]
    dsimp only
    rw [← hwhole, Nat.cast_one, div_one]
    cases negative <;> simp

/-- A double that is whole is such a number. -/
theorem holds_of_value? {r : Double} {i : Int} (h : r.value? = some (i : ℚ)) : Holds i.natAbs := by
  unfold value? at h
  split at h
  · next negative m u hshape =>
    have hm : m < 2 ^ 53 := (Binary.Format.shape_eq_finite hshape).1.bound
    have habs : (i.natAbs : ℚ) = m * 2 ^ u := by
      have hi := Option.some.inj h
      have hnonneg : (0 : ℚ) ≤ m * 2 ^ u := by positivity
      rw [Nat.cast_natAbs, Int.cast_abs, ← hi]
      split_ifs
      · rw [abs_neg, abs_of_nonneg hnonneg]
      · exact abs_of_nonneg hnonneg
    cases u with
    | ofNat k =>
      refine ⟨m, k, hm, ?_⟩
      rw [Int.ofNat_eq_natCast, zpow_natCast] at habs
      exact_mod_cast habs
    | negSucc k =>
      refine holds_of_lt (lt_of_le_of_lt ?_ hm)
      rw [zpow_negSucc, ← div_eq_mul_inv, eq_div_iff (by positivity)] at habs
      have hmul : i.natAbs * 2 ^ (k + 1) = m := by exact_mod_cast habs
      exact hmul ▸ Nat.le_mul_of_pos_right _ (Nat.two_pow_pos _)
  · cases h

theorem xor_signBit {x : Nat} (h : x < 2 ^ 63) : x ^^^ 2 ^ 63 = 2 ^ 63 + x := by
  refine Nat.eq_of_testBit_eq fun i => ?_
  rw [Nat.testBit_xor, Nat.testBit_two_pow]
  rcases Nat.lt_trichotomy i 63 with hi | rfl | hi
  · rw [Nat.testBit_two_pow_add_gt hi, decide_eq_false (by omega), Bool.xor_false]
  · rw [Nat.testBit_two_pow_add_eq, decide_eq_true rfl, Bool.xor_true]
  · have hpow : 2 ^ 64 ≤ 2 ^ i := Nat.pow_le_pow_right (by decide) hi
    rw [Nat.testBit_lt_two_pow (by omega), Nat.testBit_lt_two_pow (by omega),
      decide_eq_false (by omega), Bool.xor_false]

theorem negate_ofRatio (n d : Nat) : (ofRatio false n d).negate = ofRatio true n d := by
  have hpositive (x : Nat) : double.withSign false x = x := rfl
  have hnegative (x : Nat) : double.withSign true x = 2 ^ 63 + x := rfl
  have hmask : (0x8000000000000000 : UInt64).toNat = 2 ^ 63 := by decide
  have hx : double.nearest n d < 2 ^ 63 :=
    (double.nearest_le_infinity n d).trans_lt double.infinity_lt_signBit
  have hbits : (ofRatio false n d).bits ^^^ 0x8000000000000000 = (ofRatio true n d).bits := by
    apply UInt64.toNat_inj.mp
    rw [UInt64.toNat_xor, toNat_ofRatio, toNat_ofRatio, hpositive, hnegative, hmask, xor_signBit hx]
  rw [negate, hbits]

/-- Nothing divided by anything is nothing. -/
theorem divMagnitude_zero (d : Nat) (r : Double) :
    (divMagnitude (ofRatio false 0 d) r).magnitude.1 = 0 := by
  have hzero : (ofRatio false 0 d).magnitude.1 = 0 := by
    change (ofNatBits 0).magnitude.1 = 0
    decide
  have hdiv : divMagnitude (ofRatio false 0 d) r = ofNatBits 0 := by
    unfold divMagnitude
    dsimp only
    rw [hzero, Nat.zero_mul]
    rfl
  rw [hdiv]
  decide

end FluentSql.Double
