import FluentSql.Number.Double
import FluentSql.Proofs.Number.Nearest

namespace FluentSql.Binary

namespace Format

variable {f : Format} {m x bits : Nat} {u : Int} {negative : Bool}

theorem infinity_lt_signBit (f : Format) : f.infinity < f.signBit := by
  have hpos : 0 < 2 ^ f.fraction := Nat.two_pow_pos _
  have hone : 1 ≤ 2 ^ f.exponent := Nat.one_le_two_pow
  unfold infinity signBit
  simp only [Nat.pow_eq]
  rw [Nat.pow_add, Nat.mul_comm (2 ^ f.fraction)]
  exact Nat.mul_lt_mul_of_pos_right (by omega) hpos

theorem withSign_mod (hx : x < f.signBit) : f.withSign negative x % f.signBit = x := by
  cases negative with
  | false => exact Nat.mod_eq_of_lt hx
  | true =>
    change (f.signBit + x) % f.signBit = x
    rw [Nat.add_mod_left, Nat.mod_eq_of_lt hx]

theorem isNegative_withSign (hx : x < f.signBit) : f.isNegative (f.withSign negative x) = negative := by
  cases negative with
  | false => simpa [isNegative, withSign] using hx
  | true => simp [isNegative, withSign]

theorem withSign_parts (h : bits < 2 * f.signBit) :
    f.withSign (f.isNegative bits) (bits % f.signBit) = bits := by
  by_cases hsign : f.signBit ≤ bits
  · have hmod : bits % f.signBit = bits - f.signBit := by
      rw [Nat.mod_eq_sub_mod hsign, Nat.mod_eq_of_lt (by omega)]
    simp only [withSign, isNegative, hsign, decide_true, if_true, hmod]
    omega
  · have hmod : bits % f.signBit = bits := Nat.mod_eq_of_lt (by omega)
    simp [withSign, isNegative, hsign, hmod]

theorem Canonical.shape_code (hc : f.Canonical m u) (hfinite : f.code m u < f.infinity) :
    f.shape (f.withSign negative (f.code m u)) = .finite negative m u := by
  have hx := hfinite.trans f.infinity_lt_signBit
  have hpos : 0 < 2 ^ f.fraction := Nat.two_pow_pos _
  have hbound := hc.bound
  rw [pow_succ] at hbound
  have hleast := hc.least
  unfold shape
  dsimp only
  rw [withSign_mod hx, isNegative_withSign hx, if_neg (by omega), if_neg (by omega)]
  simp only [Nat.pow_eq]
  by_cases hsmall : m < 2 ^ f.fraction
  · obtain hu | hfull := hc.full
    · have hcode : f.code m u = m := by simp [code, hu]
      rw [hcode, Nat.div_eq_of_lt hsmall, if_pos rfl, Nat.mod_eq_of_lt hsmall, hu]
    · omega
  · have hcode : f.code m u = m - 2 ^ f.fraction + 2 ^ f.fraction * ((u - f.leastUnit).toNat + 1) := by
      unfold code
      rw [Nat.mul_add, Nat.mul_comm]
      omega
    have hrest : m - 2 ^ f.fraction < 2 ^ f.fraction := by omega
    have hunit : f.leastUnit + (((u - f.leastUnit).toNat + 1 - 1 : Nat) : Int) = u := by omega
    rw [hcode, Nat.add_mul_div_left _ _ hpos, Nat.div_eq_of_lt hrest, Nat.add_mul_mod_self_left,
      Nat.mod_eq_of_lt hrest, Nat.zero_add, if_neg (by omega), hunit]
    congr 1
    omega

theorem shape_infinity : f.shape (f.withSign negative f.infinity) = .infinite negative := by
  have hx := f.infinity_lt_signBit
  unfold shape
  dsimp only
  rw [withSign_mod hx, isNegative_withSign hx, if_neg (by omega), if_pos rfl]

theorem shape_nan (hx : x < f.signBit) (h : f.infinity < x) :
    f.shape (f.withSign negative x) = .nan := by
  unfold shape
  dsimp only
  rw [withSign_mod hx, if_pos h]

/-- The bits of a finite number are the code of a mantissa and a unit. -/
theorem shape_eq_finite (h : f.shape bits = .finite negative m u) :
    f.Canonical m u ∧ bits % f.signBit = f.code m u ∧ f.code m u < f.infinity ∧
      f.isNegative bits = negative := by
  have hpos : 0 < 2 ^ f.fraction := Nat.two_pow_pos _
  have hparts := Nat.div_add_mod (bits % f.signBit) (2 ^ f.fraction)
  have hrest := Nat.mod_lt (bits % f.signBit) hpos
  unfold shape at h
  simp only [Nat.pow_eq] at h
  generalize hx : bits % f.signBit = x at h hparts hrest
  split_ifs at h with hnan hinfinite hfield
  · obtain ⟨rfl, rfl, rfl⟩ := Shape.finite.inj h
    have hx : x % 2 ^ f.fraction = x := by
      rw [hfield] at hparts
      omega
    have hcode : f.code (x % 2 ^ f.fraction) f.leastUnit = x := by simp [code, hx]
    exact ⟨⟨le_rfl, by rw [pow_succ]; omega, .inl rfl⟩, hcode.symm, by omega, rfl⟩
  · obtain ⟨rfl, rfl, rfl⟩ := Shape.finite.inj h
    obtain ⟨field, hf⟩ : ∃ field, x / 2 ^ f.fraction = field + 1 :=
      Nat.exists_eq_succ_of_ne_zero hfield
    rw [hf] at hparts ⊢
    have hcode : f.code (2 ^ f.fraction + x % 2 ^ f.fraction)
        (f.leastUnit + ((field + 1 - 1 : Nat) : Int)) = x := by
      have hunit : (f.leastUnit + ((field + 1 - 1 : Nat) : Int) - f.leastUnit).toNat = field := by
        omega
      have hmul : 2 ^ f.fraction * (field + 1) = field * 2 ^ f.fraction + 2 ^ f.fraction := by ring
      rw [code, hunit]
      omega
    refine ⟨⟨by omega, by rw [pow_succ]; omega, .inr (by omega)⟩, hcode.symm, by omega, rfl⟩

theorem shape_eq_infinite (h : f.shape bits = .infinite negative) :
    bits % f.signBit = f.infinity ∧ f.isNegative bits = negative := by
  unfold shape at h
  dsimp only at h
  split_ifs at h with hnan hinfinite
  exact ⟨hinfinite, Shape.infinite.inj h⟩

end Format

/-- A number whose mantissa fits has a full one in double precision, far from both ends. -/
theorem in_double {m : Nat} {u : Int} (hm : 0 < m) (hbound : m < 2 ^ 53) (hleast : -1022 ≤ u)
    (hmost : u ≤ 969) :
    ∃ m' u', double.Canonical m' u' ∧ 0 < m' ∧ double.code m' u' < double.infinity ∧
      (m' : ℚ) * 2 ^ u' = m * 2 ^ u := by
  have hlog : m.log2 < 53 := (Nat.log2_lt hm.ne').mpr hbound
  have hself : 2 ^ m.log2 ≤ m := Nat.log2_self_le hm.ne'
  have hlt : m < 2 ^ (m.log2 + 1) := Nat.lt_log2_self
  have hsum : m.log2 + (52 - m.log2) = 52 := by omega
  have hpow : 0 < 2 ^ (52 - m.log2) := Nat.two_pow_pos _
  have hfull : 2 ^ 52 ≤ m * 2 ^ (52 - m.log2) := by
    calc 2 ^ 52 = 2 ^ m.log2 * 2 ^ (52 - m.log2) := by rw [← pow_add, hsum]
      _ ≤ m * 2 ^ (52 - m.log2) := Nat.mul_le_mul_right _ hself
  have hless : m * 2 ^ (52 - m.log2) < 2 ^ 53 := by
    calc m * 2 ^ (52 - m.log2) < 2 ^ (m.log2 + 1) * 2 ^ (52 - m.log2) :=
        Nat.mul_lt_mul_of_pos_right hlt hpow
      _ = 2 ^ 53 := by
        rw [← pow_add]
        congr 1
        omega
  refine ⟨m * 2 ^ (52 - m.log2), u - (52 - m.log2 : Nat), ⟨?_, hless, .inr hfull⟩, by omega, ?_, ?_⟩
  · change -1074 ≤ u - (52 - m.log2 : Nat)
    omega
  · change (u - (52 - m.log2 : Nat) - -1074).toNat * 2 ^ 52 + m * 2 ^ (52 - m.log2) < 2047 * 2 ^ 52
    omega
  · rw [zpow_sub₀ (by norm_num), zpow_natCast, Nat.cast_mul, Nat.cast_pow, Nat.cast_ofNat]
    field_simp

/-- A number of single precision is one of double precision. -/
theorem single_in_double {m : Nat} {u : Int} (hc : single.Canonical m u) (hm : 0 < m)
    (hfinite : single.code m u < single.infinity) :
    ∃ m' u', double.Canonical m' u' ∧ 0 < m' ∧ double.code m' u' < double.infinity ∧
      (m' : ℚ) * 2 ^ u' = m * 2 ^ u := by
  have hbound : m < 2 ^ 24 := hc.bound
  have hleast : -149 ≤ u := hc.least
  have hmost : u ≤ 104 := by
    have hcode : (u + 149).toNat * 2 ^ 23 + m < 255 * 2 ^ 23 := hfinite
    have hmantissa : u = -149 ∨ 2 ^ 23 ≤ m := hc.full
    omega
  exact in_double hm (by omega) (by omega) (by omega)

/-- The bits of a number of single precision come back from double precision. -/
theorem convert_convert {bits : Nat} (hbits : bits < 2 ^ 32) (h : single.shape bits ≠ .nan) :
    convert double single (convert single double bits) = bits := by
  have hparts : single.withSign (single.isNegative bits) (bits % single.signBit) = bits :=
    Format.withSign_parts hbits
  cases hshape : single.shape bits with
  | nan => exact absurd hshape h
  | infinite negative =>
    obtain ⟨hmagnitude, hsign⟩ := Format.shape_eq_infinite hshape
    have hdouble : convert single double bits = double.withSign negative double.infinity := by
      simp only [convert, hshape]
    rw [hmagnitude, hsign] at hparts
    rw [hdouble]
    simp only [convert, Format.shape_infinity, hparts]
  | finite negative m u =>
    obtain ⟨hc, hmagnitude, hfinite, hsign⟩ := Format.shape_eq_finite hshape
    rw [hmagnitude, hsign] at hparts
    rcases Nat.eq_zero_or_pos m with rfl | hm
    · have hu : u = single.leastUnit := hc.full.resolve_right (by simp)
      have hzero : double.Canonical 0 double.leastUnit := ⟨le_rfl, Nat.two_pow_pos _, .inl rfl⟩
      have hdouble : convert single double bits =
          double.withSign negative (double.code 0 double.leastUnit) := by
        have hnumerator : (ratio 0 u).1 = 0 := by cases u <;> simp [ratio]
        simp only [convert, hshape, hnumerator, Format.nearest_zero, Format.code_zero]
      rw [hu, Format.code_zero] at hparts
      rw [hdouble]
      simp only [convert, hzero.shape_code (by decide)]
      exact hparts
    obtain ⟨m', u', hc', hm', hfinite', hvalue⟩ := single_in_double hc hm hfinite
    have hratio (k : Nat) (v : Int) : ((ratio k v).1 : ℚ) / (ratio k v).2 = k * 2 ^ v :=
      ratio_value k v
    have hdouble : convert single double bits = double.withSign negative (double.code m' u') := by
      simp only [convert, hshape]
      rw [hc'.nearest hm' (ratio_pos m u) ((hratio m u).trans hvalue.symm) hfinite'.le]
    rw [hdouble]
    simp only [convert, hc'.shape_code hfinite']
    rw [hc.nearest hm (ratio_pos m' u') ((hratio m' u').trans hvalue) hfinite.le, hparts]

/-- What a number of single precision becomes, which is only a NaN if it was one. -/
theorem convert_magnitude (bits : Nat) : ∃ negative x,
    convert single double bits = double.withSign negative x ∧ x < double.signBit ∧
      (single.shape bits = .nan → double.infinity < x) := by
  have hinfinity := double.infinity_lt_signBit
  cases hshape : single.shape bits with
  | nan =>
    have hrest : bits % 2 ^ 23 * 2 ^ 52 / 2 ^ 23 < 2 ^ 52 := by omega
    have hquiet (rest : Nat) (h : rest < 2 ^ 52) :
        0 < (if rest < 2 ^ 51 then rest + 2 ^ 51 else rest) ∧
          (if rest < 2 ^ 51 then rest + 2 ^ 51 else rest) < 2 ^ 52 := by
      split_ifs <;> omega
    have hinfinity' : double.infinity = 2047 * 2 ^ 52 := rfl
    have hsign : double.signBit = 2 ^ 63 := rfl
    obtain ⟨hpos, hlt⟩ := hquiet _ hrest
    refine ⟨_, _, by simp only [convert, hshape]; rfl, ?_, fun _ => ?_⟩
    · exact (Nat.add_lt_add_left hlt double.infinity).trans_le (by omega)
    · exact Nat.lt_add_of_pos_right hpos
  | infinite negative =>
    exact ⟨negative, double.infinity, by simp only [convert, hshape], hinfinity, by simp⟩
  | finite negative m u =>
    refine ⟨negative, double.nearest (ratio m u).1 (ratio m u).2, by simp only [convert, hshape],
      ?_, by simp⟩
    exact (double.nearest_le_infinity _ _).trans_lt hinfinity

end FluentSql.Binary

namespace FluentSql.Double

theorem toNat_ofNatBits {n : Nat} (h : n < 2 ^ 64) : (ofNatBits n).bits.toNat = n := by
  rw [ofNatBits, UInt64.toNat_ofNat', Nat.mod_eq_of_lt h]

theorem withSign_lt {negative : Bool} {x : Nat} (h : x < Binary.double.signBit) :
    Binary.double.withSign negative x < 2 ^ 64 := by
  have hsign : Binary.double.signBit = 2 ^ 63 := rfl
  cases negative with
  | false => exact h.trans (by rw [hsign]; decide)
  | true =>
    change Binary.double.signBit + x < 2 ^ 64
    omega

/-- A number of single precision is read as a double and written as it was. -/
theorem toSingle_ofSingle {bits : UInt32} (h : (ofSingle bits).isNaN = false) :
    (ofSingle bits).toSingle = bits := by
  obtain ⟨negative, x, hconvert, hx, hnan⟩ := Binary.convert_magnitude bits.toNat
  have hbits : (ofSingle bits).bits.toNat = Binary.convert Binary.single Binary.double bits.toNat :=
    toNat_ofNatBits (hconvert ▸ withSign_lt hx)
  have hshape : Binary.single.shape bits.toNat ≠ .nan := by
    intro hs
    have hnan' : (ofSingle bits).shape = .nan := by
      rw [shape, hbits, hconvert]
      exact Binary.Format.shape_nan hx (hnan hs)
    simp [isNaN, hnan'] at h
  rw [toSingle, hbits, Binary.convert_convert bits.toNat_lt hshape, UInt32.ofNat_toNat]

end FluentSql.Double
