import FluentSql.Proofs.Numeric.Layout
import FluentSql.Proofs.Wire.Integers

namespace FluentSql

namespace Numeric

/-- A whole number becomes the double nearest to it, whatever its scale. -/
theorem toDouble_whole (negative : Bool) (n k : Nat) : ∃ sign,
    toDouble ⟨negative, n * 10 ^ k, k⟩ = Double.ofRatio sign n 1 ∧ (n ≠ 0 → sign = negative) := by
  let signed := negative && (k != 0 || n * 10 ^ k != 0)
  have hdouble : toDouble ⟨negative, n * 10 ^ k, k⟩ =
      if signed then (Double.ofRatio false n 1).negate else Double.ofRatio false n 1 := by
    by_cases hk : k = 0
    · simp [toDouble, signed, hk]
    · have hwhole : n * 10 ^ k / 10 ^ k = n := Nat.mul_div_cancel n (by positivity)
      have hrest : n * 10 ^ k % 10 ^ k = 0 := Nat.mul_mod_left n _
      unfold toDouble
      dsimp only [Nat.pow_eq]
      rw [if_neg hk, hwhole, hrest, if_pos (Double.divMagnitude_zero 1 _)]
  refine ⟨signed, ?_, fun hn => ?_⟩
  · rw [hdouble, Double.negate_ofRatio]
    cases signed <;> rfl
  · have hdigits : n * 10 ^ k ≠ 0 := Nat.mul_ne_zero hn (by positivity)
    simp [signed, hdigits]

end Numeric

namespace Wire

open Numeric (Layout)

variable {i : Int}

/-- A number of 64 bits has room for a zero more. -/
theorem fits64_room (h : Integer.fits64 i = true) : i.natAbs * 10 < Numeric.limit := by
  unfold Integer.fits64 at h
  unfold Numeric.limit
  simp only [Bool.and_eq_true, decide_eq_true_eq] at h
  omega

/-- How a whole number is read that was sent with a scale. -/
structure WholeValue (i : Int) (scale : Nat) (v : Value) : Prop where
  /-- Without a scale it stays a whole number, if it has 64 bits. -/
  kept : scale = 0 → Integer.fits64 i = true → v = .int (Int64.ofInt i)
  /-- Any other becomes the double nearest to it. -/
  rounded : ¬(scale = 0 ∧ Integer.fits64 i = true) → ∃ sign,
    i = (if sign then -(i.natAbs : Int) else i.natAbs) ∧
      v = .real (Double.ofRatio sign i.natAbs 1)

theorem numericValue_whole {negative : Bool}
    (hi : i = if negative then -(i.natAbs : Int) else i.natAbs) (scale : Nat) :
    WholeValue i scale (numericValue (Numeric.rescale ⟨negative, i.natAbs, 0⟩ scale)) := by
  obtain ⟨k, hk, hiff⟩ := Numeric.rescale_whole negative i.natAbs scale
  rw [hk]
  have hscale (hfits : Integer.fits64 i = true) : k = 0 ↔ scale = 0 := by
    have hroom := fits64_room hfits
    rw [hiff, or_iff_left (by omega)]
  constructor
  · intro hzero hfits
    obtain rfl := (hscale hfits).mpr hzero
    have hint : Numeric.toInt? ⟨negative, i.natAbs * 10 ^ 0, 0⟩ = some i := by
      unfold Numeric.toInt?
      dsimp only
      rw [pow_zero, Nat.mul_one, ← hi, if_pos ⟨rfl, hfits⟩]
    rw [numericValue, hint]
  · intro hlossy
    have hint : Numeric.toInt? ⟨negative, i.natAbs * 10 ^ k, k⟩ = none := by
      unfold Numeric.toInt?
      dsimp only
      refine if_neg ?_
      rintro ⟨hzero, hfits⟩
      rw [hzero, pow_zero, Nat.mul_one, ← hi] at hfits
      exact hlossy ⟨(hscale hfits).mp hzero, hfits⟩
    obtain ⟨sign, hdouble, hsign⟩ := Numeric.toDouble_whole negative i.natAbs k
    rw [numericValue, hint]
    refine ⟨sign, ?_, by rw [hdouble]⟩
    by_cases hzero : i.natAbs = 0
    · rw [hzero, Int.natAbs_eq_zero.mp hzero]
      cases sign <;> rfl
    · rwa [hsign hzero]

/-- A whole number is read as itself if it stays one, or if a double can be it. -/
theorem WholeValue.denotes_iff {scale : Nat} {v : Value} (h : WholeValue i scale v)
    (hlimit : i.natAbs < Numeric.limit) :
    Denotes v i ↔ scale = 0 ∧ Integer.fits64 i = true ∨ Double.Holds i.natAbs := by
  by_cases hexact : scale = 0 ∧ Integer.fits64 i = true
  · rw [h.kept hexact.1 hexact.2]
    refine iff_of_true ?_ (.inl hexact)
    have hround : (Int64.ofInt i).toInt = i := by
      have hfits := hexact.2
      unfold Integer.fits64 at hfits
      simp only [Bool.and_eq_true, decide_eq_true_eq] at hfits
      exact Int64.toInt_ofInt_of_le hfits.1 (by omega)
    have hdenotes := Denotes.int (Int64.ofInt i)
    rwa [hround] at hdenotes
  · obtain ⟨sign, hsign, rfl⟩ := h.rounded hexact
    rw [or_iff_right hexact]
    constructor
    · intro hdenotes
      cases hdenotes with
      | real hr => exact Double.holds_of_value? hr
    · intro hholds
      have hvalue := Double.value?_ofRatio hholds hlimit sign
      rw [← hsign] at hvalue
      exact .real hvalue

/-- A whole number that a server sends is always read if it has 96 bits, and as itself exactly if
it is sent without a scale and has 64 bits, or if a double can be it. -/
theorem whole_read (l : Layout) (hi : l.value = i) (hlimit : i.natAbs < Numeric.limit)
    (index : Nat) (name : Text) :
    ∃ v, decodeColumn index ⟨name, .numeric⟩ (some l.bytes) = .ok v ∧ WholeValue i l.scale v ∧
      (Denotes v i ↔ l.scale = 0 ∧ Integer.fits64 i = true ∨ Double.Holds i.natAbs) := by
  obtain ⟨hmagnitude, hsigned⟩ := l.magnitude_natAbs hi
  have hvalue := numericValue_whole hsigned l.scale
  have hread := congrArg (Option.map numericValue) (l.ofWire?_whole hmagnitude hlimit)
  exact ⟨_, decodeColumn_read decoder?_numeric hread index name, hvalue,
    hvalue.denotes_iff hlimit⟩

theorem whole_read_total :
    let l : Layout := {
      negative := true, groups := [123, 4500], weight := 1, scale := 2
      digits := by decide, count := by decide, leading := by decide, nothing := by decide
      fits := by unfold FitsIn; decide, scale_lt := by decide }
    l.value = (-1234500 : Int) ∧ Int.natAbs (-1234500) < Numeric.limit ∧
      ∃ v, decodeColumn 0 ⟨"total".toList, .numeric⟩ (some l.bytes) = .ok v ∧
        Denotes v (-1234500) := by
  intro l
  have hvalue : l.value = (-1234500 : Int) := by
    norm_num [Layout.value, Layout.magnitude, Numeric.worth, l]
  have hlimit : Int.natAbs (-1234500) < Numeric.limit := by decide
  obtain ⟨v, hread, -, hdenotes⟩ := whole_read l hvalue hlimit 0 "total".toList
  exact ⟨hvalue, hlimit, v, hread, hdenotes.mpr (.inr (Double.holds_of_lt (by decide)))⟩

/-- The whole number 9007199254740993, sent with two zeros after the point, is read as the double
before it. -/
theorem whole_rounded :
    ¬∀ (l : Layout) (i : Int), l.value = i → i.natAbs < Numeric.limit → ∀ index name, ∃ v,
      decodeColumn index ⟨name, .numeric⟩ (some l.bytes) = .ok v ∧ Denotes v i := by
  intro h
  let l : Layout := {
    negative := false, groups := [9007, 1992, 5474, 993], weight := 3, scale := 2
    digits := by decide, count := by decide, leading := by decide, nothing := by decide
    fits := by unfold FitsIn; decide, scale_lt := by decide }
  have hvalue : l.value = (9007199254740993 : Int) := by
    norm_num [Layout.value, Layout.magnitude, Numeric.worth, l]
  obtain ⟨v, hread, hdenotes⟩ := h l _ hvalue (by decide) 0 []
  have hrounded : decodeColumn 0 ⟨[], .numeric⟩ (some l.bytes) =
      .ok (.real ⟨0x4340000000000000⟩) := by
    decide +kernel
  obtain rfl := Except.ok.inj (hrounded.symm.trans hread)
  have hbefore : Denotes (.real ⟨0x4340000000000000⟩) 9007199254740992 :=
    .real (Double.whole?_eq_some_iff.mp (by decide +kernel))
  exact absurd (hdenotes.unique hbefore) (by decide)

end Wire

end FluentSql
