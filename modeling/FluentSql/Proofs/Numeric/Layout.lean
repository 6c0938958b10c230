import FluentSql.Proofs.Number.Whole
import FluentSql.Proofs.Numeric.Wire

namespace FluentSql.Numeric

open FluentSql.Wire

/-- What groups of four digits stand for, the first of them in the place of this weight. -/
def worth : Int → List Nat → ℚ
  | _, [] => 0
  | weight, g :: gs => g * 10000 ^ weight + worth (weight - 1) gs

/-- A number as a server lays it out: with no zeros before its first digit, and at the weight zero
if it has no digits. -/
structure Layout where
  negative : Bool
  groups : List Nat
  weight : Int
  scale : Nat
  digits : ∀ g ∈ groups, g < 10000
  count : groups.length < 65536
  leading : groups.head? ≠ some 0
  nothing : groups = [] → weight = 0
  fits : FitsIn 2 weight
  scale_lt : scale < 65536

namespace Layout

def magnitude (l : Layout) : ℚ := worth l.weight l.groups

/-- The number that a layout is of. -/
def value (l : Layout) : ℚ := if l.negative then -l.magnitude else l.magnitude

/-- The bytes that a server sends. -/
def bytes (l : Layout) : Bytes :=
  bigEndian 2 l.groups.length ++ signedBytes 2 l.weight ++
    bigEndian 2 (if l.negative then negativeSign else 0) ++ bigEndian 2 l.scale ++
    l.groups.flatMap (bigEndian 2)

end Layout

theorem worth_nonneg (weight : Int) (gs : List Nat) : 0 ≤ worth weight gs := by
  induction gs generalizing weight with
  | nil => exact le_rfl
  | cons g gs ih => exact add_nonneg (by positivity) (ih _)

theorem worth_append (weight : Int) (gs hs : List Nat) :
    worth weight (gs ++ hs) = worth weight gs + worth (weight - gs.length) hs := by
  induction gs generalizing weight with
  | nil => simp [worth]
  | cons g gs ih =>
    have hweight : weight - (g :: gs).length = weight - 1 - gs.length := by
      rw [List.length_cons]
      push_cast
      ring
    rw [List.cons_append, worth, worth, ih, hweight, add_assoc]

/-- Groups before the point, with `k` groups of zeros after them that are not written. -/
theorem grouped_worth (n k : Nat) (gs : List Nat) :
    (grouped n gs : ℚ) * 10000 ^ k =
      n * 10000 ^ (gs.length + k) + worth ((gs.length + k : Nat) - 1) gs := by
  induction gs generalizing n with
  | nil => simp [grouped, worth]
  | cons g gs ih =>
    have hlength : (g :: gs).length + k = gs.length + k + 1 := by
      rw [List.length_cons]
      omega
    have hweight : ((gs.length + k + 1 : Nat) : Int) - 1 = (gs.length + k : Nat) := by omega
    change (grouped (n * 10000 + g) gs : ℚ) * 10000 ^ k = _
    rw [ih, hlength, worth, hweight, zpow_natCast, pow_succ]
    push_cast
    ring

theorem worth_fraction (k : Nat) (gs : List Nat) :
    worth (-(k + 1 : Nat)) gs = fractionValue (4 * (k + 1)) gs := by
  induction gs generalizing k with
  | nil => rfl
  | cons g gs ih =>
    have hpower : (10000 : ℚ) ^ (-(k + 1 : Nat) : Int) = (10 ^ (4 * (k + 1)))⁻¹ := by
      rw [zpow_neg, zpow_natCast, pow_mul]
      norm_num
    have hweight : (-(k + 1 : Nat) : Int) - 1 = -(k + 1 + 1 : Nat) := by omega
    rw [worth, fractionValue, hpower, hweight, ih, div_eq_mul_inv]
    rfl

/-- Digits after a place are less than one in it. -/
theorem fractionValue_lt {gs : List Nat} (h : ∀ g ∈ gs, g < 10000) (place : Nat) :
    fractionValue (place + 4) gs < 1 / 10 ^ place := by
  induction gs generalizing place with
  | nil =>
    change (0 : ℚ) < _
    positivity
  | cons g gs ih =>
    obtain ⟨hg, hrest⟩ := List.forall_mem_cons.mp h
    have hnext := ih hrest (place + 4)
    have hsum : (g : ℚ) / 10 ^ (place + 4) + 1 / 10 ^ (place + 4) ≤ 1 / 10 ^ place := by
      have hg' : (g : ℚ) + 1 ≤ 10000 := by exact_mod_cast hg
      rw [← add_div, pow_add, div_le_div_iff₀ (by positivity) (by positivity)]
      nlinarith [pow_pos (by norm_num : (0 : ℚ) < 10) place]
    rw [fractionValue]
    linarith

theorem fractionValue_eq_zero {place : Nat} {gs : List Nat} (h : fractionValue place gs = 0) :
    ∀ g ∈ gs, g = 0 := by
  induction gs generalizing place with
  | nil => simp
  | cons g gs ih =>
    have hfirst : (0 : ℚ) ≤ g / 10 ^ place := by positivity
    have hrest := fractionValue_nonneg (place + 4) gs
    rw [fractionValue] at h
    have hzero : (g : ℚ) / 10 ^ place = 0 := by linarith
    rw [div_eq_zero_iff, or_iff_left (by positivity)] at hzero
    exact List.forall_mem_cons.mpr ⟨by exact_mod_cast hzero, ih (by linarith)⟩

/-- Groups of zeros after the point add nothing. -/
theorem addFraction?_zeros (place n : Nat) {gs : List Nat} (h : ∀ g ∈ gs, g = 0) :
    addFraction? place ⟨false, n, 0⟩ gs = some ⟨false, n, 0⟩ := by
  induction gs generalizing place with
  | nil => rfl
  | cons g gs ih =>
    obtain ⟨rfl, hrest⟩ := List.forall_mem_cons.mp h
    have hround : ¬(place = maxScale + 4 ∧ 5000 ≤ 0) := by simp
    rw [addFraction?, trimScale_zeros]
    dsimp only
    rw [addMagnitude?_zero, if_neg hround, ite_self]
    exact ih (place + 4) hrest

namespace Layout

variable {l : Layout} {n : Nat}

/-- A first digit before the point counts at least its weight. -/
theorem weight_le (l : Layout) (hgroups : l.groups ≠ []) :
    (10000 : ℚ) ^ l.weight ≤ l.magnitude := by
  obtain ⟨g, gs, hg⟩ := List.exists_cons_of_ne_nil hgroups
  have hfirst : g ≠ 0 := by
    rintro rfl
    exact l.leading (by rw [hg]; rfl)
  have hone : (1 : ℚ) ≤ g := by exact_mod_cast Nat.one_le_iff_ne_zero.mpr hfirst
  have hpower : (0 : ℚ) < 10000 ^ l.weight := by positivity
  rw [magnitude, hg, worth]
  nlinarith [worth_nonneg (l.weight - 1) gs]

/-- A whole number has its first digit before the point. -/
theorem weight_nonneg (h : l.magnitude = n) : 0 ≤ l.weight := by
  by_contra hneg
  have hgroups : l.groups ≠ [] := fun hnil => hneg (l.nothing hnil).ge
  obtain ⟨k, hk⟩ : ∃ k : Nat, l.weight = -(k + 1 : Nat) := ⟨(-l.weight - 1).toNat, by omega⟩
  have hvalue : l.magnitude = fractionValue (4 * k + 4) l.groups := by
    rw [magnitude, hk, worth_fraction]
    rfl
  have hless : l.magnitude < 1 := by
    rw [hvalue]
    refine (fractionValue_lt l.digits (4 * k)).trans_le ?_
    rw [div_le_one (by positivity)]
    exact one_le_pow₀ (by norm_num)
  have hmore := l.weight_le hgroups
  have hpower : (0 : ℚ) < 10000 ^ l.weight := by positivity
  rw [h] at hless hmore
  have hone : n < 1 := by exact_mod_cast hless
  have hzero : n = 0 := by omega
  rw [hzero] at hmore
  exact absurd hmore (not_le.mpr hpower)

theorem weight_lt (h : l.magnitude = n) (hn : n < limit) : l.weight < 8 := by
  by_cases hgroups : l.groups = []
  · rw [l.nothing hgroups]
    decide
  · have hmore := l.weight_le hgroups
    have hlimit : (limit : ℚ) < 10000 ^ (8 : Int) := by
      norm_num [limit]
    have hn' : (n : ℚ) < limit := by exact_mod_cast hn
    rw [h] at hmore
    exact (zpow_lt_zpow_iff_right₀ (by norm_num : (1 : ℚ) < 10000)).mp
      ((hmore.trans_lt hn').trans hlimit)

/-- The groups before the point stand for a whole number, and those after it are zeros. -/
theorem whole_groups (h : l.magnitude = n) :
    let places := (l.weight + 1).toNat
    grouped 0 (l.groups.take places) * 10 ^ (4 * (places - l.groups.length)) = n ∧
      ∀ g ∈ l.groups.drop places, g = 0 := by
  intro places
  have hplaces : (places : Int) = l.weight + 1 := Int.toNat_of_nonneg (by
    have := weight_nonneg h
    omega)
  generalize hwhole : l.groups.take places = whole
  generalize htail : l.groups.drop places = tail
  have hgroups : l.groups = whole ++ tail := by rw [← hwhole, ← htail, List.take_append_drop]
  have hlength : whole.length + (places - l.groups.length) = places := by
    rw [← hwhole, List.length_take]
    omega
  have hbefore : worth l.weight whole = grouped 0 whole * 10000 ^ (places - l.groups.length) := by
    have hvalue := grouped_worth 0 (places - l.groups.length) whole
    have hweight : ((places : Nat) : Int) - 1 = l.weight := by omega
    rw [hlength, hweight, Nat.cast_zero, zero_mul, zero_add] at hvalue
    exact hvalue.symm
  have hafter : worth (l.weight - whole.length) tail = fractionValue 4 tail := by
    by_cases hfew : l.groups.length ≤ places
    · obtain rfl : tail = [] := by rw [← htail, List.drop_eq_nil_of_le hfew]
      rfl
    · have hweight : l.weight - whole.length = -(0 + 1 : Nat) := by omega
      rw [hweight, worth_fraction]
  have hdigits : ∀ g ∈ tail, g < 10000 := fun g hg =>
    l.digits g (hgroups ▸ List.mem_append_right _ hg)
  have hless : fractionValue 4 tail < 1 := by simpa using fractionValue_lt hdigits 0
  have hnonneg := fractionValue_nonneg 4 tail
  have hsum : ((grouped 0 whole * 10 ^ (4 * (places - l.groups.length)) : Nat) : ℚ) +
      fractionValue 4 tail = n := by
    rw [← h, magnitude, hgroups, worth_append, hbefore, hafter, ← hgroups, pow_mul]
    push_cast
    norm_num
  generalize grouped 0 whole * 10 ^ (4 * (places - l.groups.length)) = m at hsum ⊢
  have hleast : m ≤ n := by exact_mod_cast (by linarith : (m : ℚ) ≤ n)
  have hmost : n < m + 1 := by exact_mod_cast (by linarith : (n : ℚ) < m + 1)
  obtain rfl : m = n := by omega
  rw [add_eq_left] at hsum
  exact ⟨rfl, fractionValue_eq_zero hsum⟩

theorem ofGroups?_whole (h : l.magnitude = n) (hn : n < limit) :
    ofGroups? l.groups l.weight = some ⟨false, n, 0⟩ := by
  obtain ⟨hvalue, hzeros⟩ := whole_groups h
  have hleast := weight_nonneg h
  have hmost := weight_lt h hn
  generalize hplaces : (l.weight + 1).toNat = places at hvalue hzeros
  have hmissing : places - l.groups.length ≤ 7 := by
    by_cases hgroups : l.groups = []
    · have hzero := l.nothing hgroups
      omega
    · have hpos := List.length_pos_of_ne_nil hgroups
      omega
  have hwhole : grouped 0 (l.groups.take places) < limit := by
    refine lt_of_le_of_lt ?_ hn
    rw [← hvalue]
    exact Nat.le_mul_of_pos_right _ (by positivity)
  have hplace : 4 * max 1 (-l.weight).toNat = 4 := by omega
  unfold ofGroups?
  dsimp only [Nat.pow_eq]
  rw [hplaces, zero, addWhole?_grouped hwhole, hplace, Option.bind_some]
  dsimp only
  rw [hvalue, if_pos ⟨hmissing, hn⟩, Option.bind_some]
  exact addFraction?_zeros 4 n hzeros

/-- A whole number is read off its layout, and then given the scale that it was sent with. -/
theorem ofWire?_whole (h : l.magnitude = n) (hn : n < limit) :
    ofWire? l.bytes = some (rescale ⟨l.negative, n, 0⟩ l.scale) := by
  have hsign : (if l.negative then negativeSign else 0) < 65536 ∧
      specialSigns.contains (if l.negative then negativeSign else 0) = false ∧
      ((if l.negative then negativeSign else 0) == negativeSign) = l.negative := by
    cases l.negative <;> decide
  have hgroups : ∀ g ∈ l.groups, g < 65536 := fun g hg => (l.digits g hg).trans (by decide)
  rw [bytes, ofWire?_parts l.count hgroups l.fits hsign.1 hsign.2.1 l.scale_lt,
    ofGroups?_whole h hn, hsign.2.2]
  rfl

theorem magnitude_natAbs {i : Int} (h : l.value = i) : l.magnitude = i.natAbs ∧
    i = if l.negative then -(i.natAbs : Int) else i.natAbs := by
  have hnonneg : 0 ≤ l.magnitude := worth_nonneg _ _
  unfold value at h
  cases hsign : l.negative with
  | false =>
    rw [hsign, if_neg (by simp)] at h
    have hi : 0 ≤ i := by exact_mod_cast h ▸ hnonneg
    have habs : (i.natAbs : Int) = i := Int.natAbs_of_nonneg hi
    refine ⟨?_, habs.symm⟩
    rw [h, ← Int.cast_natCast, habs]
  | true =>
    rw [hsign, if_pos rfl] at h
    have hmagnitude : l.magnitude = (-i : Int) := by
      rw [Int.cast_neg, ← h, neg_neg]
    have hi : 0 ≤ -i := by exact_mod_cast hmagnitude ▸ hnonneg
    have habs : (i.natAbs : Int) = -i := by omega
    refine ⟨?_, by simp [habs]⟩
    rw [hmagnitude, ← Int.cast_natCast, habs]

end Layout

end FluentSql.Numeric
