import FluentSql.Numeric.OfDouble
import FluentSql.Proofs.Number.Conversion
import FluentSql.Proofs.Numeric.Value

namespace FluentSql.Numeric

namespace Rebase

theorem halve_mantissa {r : Rebase} (h : r.mantissa < limit) (n : Nat) :
    (halve n r).mantissa < limit := by
  induction n generalizing r with
  | zero => exact h
  | succ n ih =>
    obtain ⟨m, e⟩ := r
    have hhalf : m / 2 < limit := (Nat.div_le_self m 2).trans_lt h
    rw [halve]
    split_ifs with heven hfive
    · exact ih hhalf
    · exact ih hfive
    · exact ih hhalf

theorem dropDigit_mantissa {r : Rebase} (h : r.mantissa < limit) :
    r.dropDigit.mantissa < limit := by
  have hlimit : limit = 79228162514264337593543950336 := rfl
  change r.mantissa / 10 + (if 5 ≤ r.mantissa % 10 then 1 else 0) < limit
  split_ifs <;> omega

theorem dropDigit_exponent (r : Rebase) : r.dropDigit.exponent = r.exponent + 1 := rfl

/-- Enough digits are dropped for an exponent, or all of them. -/
theorem lower_bounds {r : Rebase} {least : Int} (h : r.mantissa < limit) (n : Nat)
    (hexponent : least ≤ r.exponent + n) (hleast : least ≤ 0) :
    (lower n r).mantissa < limit ∧ least ≤ (lower n r).exponent := by
  induction n generalizing r with
  | zero =>
    refine ⟨h, ?_⟩
    change least ≤ r.exponent
    omega
  | succ n ih =>
    rw [lower]
    split_ifs
    · exact ⟨by decide, hleast⟩
    · refine ih (dropDigit_mantissa h) ?_
      rw [dropDigit_exponent]
      omega

theorem shorten_bounds {r : Rebase} {least : Int} (h : r.mantissa < limit)
    (hexponent : least ≤ r.exponent) (n : Nat) :
    (shorten n r).mantissa < limit ∧ least ≤ (shorten n r).exponent := by
  induction n generalizing r with
  | zero => exact ⟨h, hexponent⟩
  | succ n ih =>
    rw [shorten]
    split_ifs
    · refine ih (dropDigit_mantissa h) ?_
      rw [dropDigit_exponent]
      omega
    · exact ⟨h, hexponent⟩

end Rebase

theorem trimScale_mantissa (m scale : Nat) : (trimScale m scale).1 ≤ m := by
  induction scale generalizing m with
  | zero => exact le_rfl
  | succ s ih =>
    rw [trimScale]
    split_ifs
    · exact (ih _).trans (Nat.div_le_self m 10)
    · exact le_rfl

/-- Zero is left without a scale. -/
theorem trimScale_zero {m scale : Nat} (h : (trimScale m scale).1 = 0) :
    (trimScale m scale).2 = 0 := by
  have hvalue := trimScale_value m scale
  have hpow : (10 : ℚ) ^ scale ≠ 0 := by positivity
  rw [h, Nat.cast_zero, zero_div, eq_comm, div_eq_zero_iff, or_iff_left hpow] at hvalue
  obtain rfl : m = 0 := by exact_mod_cast hvalue
  exact Nat.le_zero.mp (trimScale_scale_le (dvd_zero _))

/-- The number that a double becomes can be written, and if it is zero it has no scale. -/
structure Writable (a : Numeric) : Prop where
  mantissa : a.mantissa < limit
  scale : a.scale ≤ maxScale
  zero : a.mantissa = 0 → a.scale = 0

theorem ofDouble?_writable {r : Double} {a : Numeric} (h : ofDouble? r = some a) :
    a.Writable := by
  have hfits {negative : Bool} {m : Nat} {u : Int} (hs : r.shape = .finite negative m u) :
      m < limit := by
    have hbound : m < 2 ^ 53 := (Binary.Format.shape_eq_finite hs).1.bound
    exact hbound.trans (by decide)
  unfold ofDouble? at h
  split at h
  · cases h
  · cases h
  · have hpos : 0 < limit := by decide
    rw [← Option.some.inj h]
    exact ⟨hpos, Nat.zero_le _, fun _ => rfl⟩
  · obtain ⟨hlimit, h⟩ := Option.ite_none_right_eq_some.mp h
    rw [← Option.some.inj h]
    exact ⟨hlimit, Nat.zero_le _, fun _ => rfl⟩
  · next negative m n _ hshape =>
    dsimp only at h
    have hhalved := Rebase.halve_mantissa (r := ⟨m, .negSucc n⟩) (hfits hshape) (n + 1)
    generalize Rebase.halve (n + 1) ⟨m, .negSucc n⟩ = halved at h hhalved
    have henough : -28 ≤ halved.exponent + (-halved.exponent - maxScale).toNat := by
      unfold maxScale
      omega
    have hlowered := Rebase.lower_bounds hhalved _ henough (by decide)
    generalize Rebase.lower _ halved = lowered at h hlowered
    have hshort := Rebase.shorten_bounds hlowered.1 hlowered.2 (-lowered.exponent).toNat
    generalize Rebase.shorten _ lowered = short at h hshort
    rw [← Option.some.inj h]
    have hscale : (-short.exponent).toNat ≤ 28 := by
      have hleast := hshort.2
      omega
    exact ⟨(trimScale_mantissa _ _).trans_lt hshort.1, (trimScale_scale _ _).trans hscale,
      trimScale_zero⟩

end FluentSql.Numeric
