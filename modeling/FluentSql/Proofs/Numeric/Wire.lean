import FluentSql.Numeric.ToDouble
import FluentSql.Numeric.Wire
import FluentSql.Proofs.Numeric.Value
import FluentSql.Proofs.Wire.Bytes
import Mathlib.Data.List.TakeWhile
import Mathlib.Tactic.Linarith

namespace FluentSql.Numeric

open FluentSql.Wire

/-- What groups of four digits stand for after the digits of a number. -/
def grouped (n : Nat) (groups : List Nat) : Nat := groups.foldl (fun m g => m * 10000 + g) n

theorem grouped_concat (n : Nat) (groups : List Nat) (g : Nat) :
    grouped n (groups ++ [g]) = grouped n groups * 10000 + g :=
  List.foldl_append

theorem le_grouped (n : Nat) (groups : List Nat) : n ≤ grouped n groups := by
  induction groups generalizing n with
  | nil => exact le_rfl
  | cons g groups ih =>
    have h : n * 10000 + g ≤ grouped n (g :: groups) := ih _
    omega

theorem grouped_groupsWithin {fuel n : Nat} (h : n < 10000 ^ fuel) :
    grouped 0 (groupsWithin fuel n) = n := by
  induction fuel generalizing n with
  | zero =>
    have hn : n = 0 := by simpa using h
    subst hn
    rfl
  | succ fuel ih =>
    rw [pow_succ] at h
    rw [groupsWithin]
    split_ifs with hn
    · exact hn.symm
    · rw [grouped_concat, ih (by omega)]
      omega

theorem length_groupsWithin_le (fuel n : Nat) : (groupsWithin fuel n).length ≤ fuel := by
  induction fuel generalizing n with
  | zero => exact le_rfl
  | succ fuel ih =>
    have h := ih (n / 10000)
    rw [groupsWithin]
    split_ifs
    · exact Nat.zero_le _
    · rw [List.length_append, List.length_singleton]
      omega

theorem mem_groupsWithin {fuel n g : Nat} (h : g ∈ groupsWithin fuel n) : g < 10000 := by
  induction fuel generalizing n with
  | zero => simp [groupsWithin] at h
  | succ fuel ih =>
    rw [groupsWithin] at h
    split_ifs at h
    · simp at h
    · obtain h | h := List.mem_append.mp h
      · exact ih h
      · rw [List.mem_singleton.mp h]
        omega

theorem addWhole?_grouped {m : Nat} {groups : List Nat} (h : grouped m groups < limit) :
    addWhole? ⟨false, m, 0⟩ groups = some ⟨false, grouped m groups, 0⟩ := by
  induction groups generalizing m with
  | nil => rfl
  | cons g groups ih =>
    have hm : m * 10000 + g ≤ grouped m (g :: groups) := le_grouped _ groups
    rw [addWhole?]
    dsimp only
    rw [if_pos (by omega)]
    exact ih h

theorem ofGroups?_append {whole : List Nat} {weight : Int} (tail : List Nat)
    (hlength : whole.length = (weight + 1).toNat) (h : grouped 0 whole < limit) :
    ofGroups? (whole ++ tail) weight =
      addFraction? (4 * max 1 (-weight).toNat) ⟨false, grouped 0 whole, 0⟩ tail := by
  have hmissing : whole.length - (whole ++ tail).length = 0 := by
    rw [List.length_append]
    omega
  unfold ofGroups?
  dsimp only
  rw [← hlength, List.take_left, List.drop_left, hmissing, zero, addWhole?_grouped h]
  dsimp only [Option.bind]
  rw [if_pos ⟨by decide, by simpa using h⟩]
  simp

/-- What groups stand for of which the first has its last digit at a place after the point. -/
def fractionValue : Nat → List Nat → ℚ
  | _, [] => 0
  | place, g :: gs => g / 10 ^ place + fractionValue (place + 4) gs

theorem fractionValue_nonneg (place : Nat) (gs : List Nat) : 0 ≤ fractionValue place gs := by
  induction gs generalizing place with
  | nil => exact le_rfl
  | cons g gs ih => exact add_nonneg (by positivity) (ih _)

theorem fractionValue_replicate (place k : Nat) : fractionValue place (List.replicate k 0) = 0 := by
  induction k generalizing place with
  | zero => rfl
  | succ k ih => rw [List.replicate_succ, fractionValue, ih, Nat.cast_zero, zero_div, zero_add]

theorem fractionValue_zeros (place : Nat) (gs : List Nat) (k : Nat) :
    fractionValue place (gs ++ List.replicate k 0) = fractionValue place gs := by
  induction gs generalizing place with
  | nil => exact fractionValue_replicate place k
  | cons g gs ih => rw [List.cons_append, fractionValue, ih, fractionValue]

theorem grouped_value (n place : Nat) (gs : List Nat) :
    (grouped n gs : ℚ) / 10 ^ (place + 4 * gs.length) =
      n / 10 ^ place + fractionValue (place + 4) gs := by
  induction gs generalizing n place with
  | nil => exact (add_zero _).symm
  | cons g gs ih =>
    have hplace : place + 4 * (g :: gs).length = place + 4 + 4 * gs.length := by
      rw [List.length_cons]
      omega
    have hsplit : ((n * 10000 + g : Nat) : ℚ) / 10 ^ (place + 4) =
        n / 10 ^ place + g / 10 ^ (place + 4) := by
      have hfour : n * 10000 = n * 10 ^ (place + 4 - place) := by
        rw [Nat.add_sub_cancel_left]
        rfl
      rw [Nat.cast_add, add_div, hfour, digits_value n (Nat.le_add_right place 4)]
    rw [hplace, fractionValue, ← add_assoc, ← hsplit]
    exact ih _ _

/-- Groups whose digits all have their place within a scale. -/
def Within (scale : Nat) : Nat → List Nat → Prop
  | _, [] => True
  | place, g :: gs =>
    place ≤ maxScale ∧ 10 ^ (place - scale) ∣ g ∧ Within scale (place + 4) gs

theorem Within.left {scale place : Nat} {gs more : List Nat} (h : Within scale place (gs ++ more)) :
    Within scale place gs := by
  induction gs generalizing place with
  | nil => trivial
  | cons g gs ih => exact ⟨h.1, h.2.1, ih h.2.2⟩

/-- Only the last group can have digits beyond the scale. -/
theorem within_concat {scale place last g : Nat} {gs : List Nat}
    (hlast : place + 4 * gs.length = last) (hmost : last ≤ maxScale) (hscale : last ≤ scale + 3)
    (hg : 10 ^ (last - scale) ∣ g) : Within scale place (gs ++ [g]) := by
  induction gs generalizing place with
  | nil =>
    obtain rfl : place = last := by simpa using hlast
    exact ⟨hmost, hg, trivial⟩
  | cons g' gs ih =>
    rw [List.length_cons] at hlast
    have hplace : place - scale = 0 := by omega
    refine ⟨by omega, ?_, ih (by omega)⟩
    rw [hplace]
    exact one_dvd g'

/-- Groups after the point are added exactly where the sum fits. -/
theorem addFraction?_value {scale place : Nat} {a : Numeric} {gs : List Nat}
    (ha : a.negative = false) (hscale : a.scale ≤ scale) (hwithin : Within scale place gs)
    (hlimit : (a.value + fractionValue place gs) * 10 ^ scale < limit) :
    ∃ c, addFraction? place a gs = some c ∧ c.negative = false ∧ c.scale ≤ scale ∧
      c.value = a.value + fractionValue place gs := by
  induction gs generalizing place a with
  | nil => exact ⟨a, rfl, ha, hscale, (add_zero _).symm⟩
  | cons g gs ih =>
    obtain ⟨hplace, hdvd, hrest⟩ := hwithin
    rw [fractionValue, ← add_assoc] at hlimit ⊢
    let b : Numeric := ⟨false, (trimScale g place).1, (trimScale g place).2⟩
    have hb : b.value = g / 10 ^ place := trimScale_value g place
    have hmax : max a.scale b.scale ≤ scale := max_le hscale (trimScale_scale_le hdvd)
    have hsum : (a.value + b.value) * 10 ^ max a.scale b.scale < limit := by
      have hrest' := fractionValue_nonneg (place + 4) gs
      have hnonneg : 0 ≤ a.value + b.value := add_nonneg a.value_nonneg b.value_nonneg
      have hpow : (10 : ℚ) ^ max a.scale b.scale ≤ 10 ^ scale :=
        pow_le_pow_right₀ (by norm_num) hmax
      calc (a.value + b.value) * 10 ^ max a.scale b.scale
          ≤ (a.value + b.value + fractionValue (place + 4) gs) * 10 ^ scale :=
            mul_le_mul (by linarith) hpow (by positivity) (by linarith)
        _ < limit := by rwa [hb]
    obtain ⟨c, hadd, hc, hcscale, hcvalue⟩ := addMagnitude?_value ha rfl hsum
    rw [addFraction?, if_pos hplace]
    change ∃ d, ((addMagnitude? a b).bind fun c => addFraction? (place + 4) c gs) = some d ∧ _
    rw [hadd, Option.bind_some, ← hb, ← hcvalue]
    exact ih hc (hcscale.trans hmax) hrest (by rwa [hcvalue, hb])

theorem trimmed_zeros (gs : List Nat) :
    ∃ k, gs = (gs.reverse.dropWhile (· == 0)).reverse ++ List.replicate k 0 := by
  have hzeros : gs.reverse.takeWhile (· == 0) =
      List.replicate (gs.reverse.takeWhile (· == 0)).length 0 := by
    refine List.eq_replicate_of_mem fun g hg => ?_
    simpa using List.mem_takeWhile_imp hg
  refine ⟨(gs.reverse.takeWhile (· == 0)).length, ?_⟩
  have hsplit := congrArg List.reverse
    (List.takeWhile_append_dropWhile (p := (· == 0)) (l := gs.reverse))
  rw [List.reverse_append, List.reverse_reverse, hzeros, List.reverse_replicate] at hsplit
  exact hsplit.symm

theorem readGroups?_flatMap {groups : List Nat} (h : ∀ g ∈ groups, g < 65536) :
    readGroups? groups.length (groups.flatMap (bigEndian 2)) = some groups := by
  induction groups with
  | nil => rfl
  | cons g groups ih =>
    have hg : ofBigEndian (bigEndian 2 g) = g :=
      ofBigEndian_bigEndian_of_lt (by simpa using h g (by simp))
    have hrest := ih fun g' hg' => h g' (by simp [hg'])
    rw [List.flatMap_cons, List.length_cons, readGroups?,
      take?_append _ (length_bigEndian 2 g)]
    simp only [Option.bind_some, hrest, hg, Option.map_some]

/-- A number on the wire is read by the parts that it is written in. -/
theorem ofWire?_parts {groups : List Nat} {weight : Int} {sign scale : Nat}
    (hlength : groups.length < 65536) (hgroups : ∀ g ∈ groups, g < 65536)
    (hweight : FitsIn 2 weight) (hsign : sign < 65536) (hspecial : specialSigns.contains sign = false)
    (hscale : scale < 65536) :
    ofWire? (bigEndian 2 groups.length ++ signedBytes 2 weight ++ bigEndian 2 sign ++
        bigEndian 2 scale ++ groups.flatMap (bigEndian 2)) =
      (ofGroups? groups weight).map fun a =>
        { a with negative := sign == negativeSign }.rescale scale := by
  have hcount : ofBigEndian (bigEndian 2 groups.length) = groups.length :=
    ofBigEndian_bigEndian_of_lt (by simpa using hlength)
  have hsign' : ofBigEndian (bigEndian 2 sign) = sign :=
    ofBigEndian_bigEndian_of_lt (by simpa using hsign)
  have hscale' : ofBigEndian (bigEndian 2 scale) = scale :=
    ofBigEndian_bigEndian_of_lt (by simpa using hscale)
  simp only [List.append_assoc]
  unfold ofWire?
  rw [take?_append _ (length_bigEndian 2 _)]
  dsimp only [Option.bind_eq_bind, Option.bind_some]
  rw [take?_append _ (length_signedBytes 2 _)]
  dsimp only [Option.bind_some]
  rw [take?_append _ (length_bigEndian 2 _)]
  dsimp only [Option.bind_some]
  rw [take?_append _ (length_bigEndian 2 _)]
  dsimp only [Option.bind_some]
  rw [hcount, readGroups?_flatMap hgroups, hsign', hscale', ofSignedBytes_signedBytes hweight]
  dsimp only [Option.bind_some]
  rw [hspecial]
  cases ofGroups? groups weight <;> rfl

section Cut

variable {n scale places : Nat} {groups : List Nat}

/-- What comes after the point has no digits beyond the scale. -/
theorem within_drop (hn : n ≠ 0) (hplaces : places = (scale + 3) / 4) (hscale : scale ≤ maxScale)
    (hdvd : 10 ^ (4 * places - scale) ∣ n) (hgroups : groups = groupsWithin 32 n) :
    Within scale (4 * (places - (groups.drop (groups.length - places)).length) + 4)
      (groups.drop (groups.length - places)) := by
  have hmost : scale ≤ 28 := hscale
  rcases Nat.eq_zero_or_pos places with hzero | hpos
  · rw [hzero, Nat.sub_zero, List.drop_length]
    trivial
  have hlast : groups = groupsWithin 31 (n / 10000) ++ [n % 10000] := by
    rw [hgroups, groupsWithin, if_neg hn]
  have hlength : groups.length = (groupsWithin 31 (n / 10000)).length + 1 := by
    rw [hlast, List.length_append, List.length_singleton]
  have hcut : groups.length - places ≤ (groupsWithin 31 (n / 10000)).length := by omega
  have hdrop : ∀ k ≤ (groupsWithin 31 (n / 10000)).length,
      groups.drop k = (groupsWithin 31 (n / 10000)).drop k ++ [n % 10000] := by
    intro k hk
    rw [hlast, List.drop_append_of_le_length hk]
  have hten : (10 : Nat) ^ (4 * places - scale) ∣ 10000 := pow_dvd_pow 10 (by omega : _ ≤ 4)
  have hmod : 10 ^ (4 * places - scale) ∣ n % 10000 := (Nat.dvd_mod_iff hten).mpr hdvd
  rw [hdrop _ hcut, List.length_append, List.length_singleton, List.length_drop]
  have hlast : 4 * (places - ((groupsWithin 31 (n / 10000)).length - (groups.length - places) + 1)) +
      4 + 4 * ((groupsWithin 31 (n / 10000)).drop (groups.length - places)).length = 4 * places := by
    rw [List.length_drop]
    omega
  have hwidest : 4 * places ≤ 28 := by omega
  exact within_concat hlast hwidest (by omega) hmod

/-- The groups before the point and those after it stand for the number together. -/
theorem take_drop_value (places : Nat) (groups : List Nat) :
    (grouped 0 (groups.take (groups.length - places)) : ℚ) +
        fractionValue (4 * (places - (groups.drop (groups.length - places)).length) + 4)
          (groups.drop (groups.length - places)) =
      grouped 0 groups / 10 ^ (4 * places) := by
  generalize hwhole : groups.take (groups.length - places) = whole
  generalize htail : groups.drop (groups.length - places) = tail
  have happend : grouped (grouped 0 whole) tail = grouped 0 groups := by
    have hsplit : whole ++ tail = groups := by rw [← hwhole, ← htail, List.take_append_drop]
    rw [← hsplit]
    exact List.foldl_append.symm
  have hlength : tail.length = groups.length - (groups.length - places) := by
    rw [← htail, List.length_drop]
  have hplace : 4 * (places - tail.length) + 4 * tail.length = 4 * places := by omega
  have hpoint : (grouped 0 whole : ℚ) / 10 ^ (4 * (places - tail.length)) = grouped 0 whole := by
    by_cases hfew : groups.length ≤ places
    · have hnil : whole = [] := by rw [← hwhole, Nat.sub_eq_zero_of_le hfew, List.take_zero]
      rw [hnil]
      exact zero_div _
    · have hzero : 4 * (places - tail.length) = 0 := by omega
      rw [hzero, pow_zero, div_one]
  have hvalue := grouped_value (grouped 0 whole) (4 * (places - tail.length)) tail
  rw [hplace, happend, hpoint] at hvalue
  exact hvalue.symm

end Cut

/-- The groups that are written: those before the point, and those after it without zeros at the
end where there are some before it. -/
theorem written_groups (places : Nat) (groups : List Nat) :
    let weight : Int := groups.length - places - 1
    ∃ tail k, groups.drop (groups.length - places) = tail ++ List.replicate k 0 ∧
      (if 0 ≤ weight then trimGroups (weight + 1).toNat groups else groups) =
        groups.take (groups.length - places) ++ tail := by
  intro weight
  split_ifs with hweight
  · have hkept : (weight + 1).toNat = groups.length - places := by omega
    obtain ⟨k, hk⟩ := trimmed_zeros (groups.drop (groups.length - places))
    refine ⟨_, k, hk, ?_⟩
    rw [hkept, trimGroups]
  · have hcut : groups.length - places = 0 := by omega
    exact ⟨groups, 0, by simp [hcut], by simp [hcut]⟩

/-- A number as groups that are cut at its point. -/
structure Cut (m scale : Nat) (whole tail : List Nat) (weight : Int) : Prop where
  members : ∀ g ∈ whole ++ tail, g < 65536
  count : (whole ++ tail).length ≤ 32
  fits : FitsIn 2 weight
  whole_length : whole.length = (weight + 1).toNat
  within : Within scale (4 * max 1 (-weight).toNat) tail
  value : (grouped 0 whole : ℚ) + fractionValue (4 * max 1 (-weight).toNat) tail = m / 10 ^ scale

theorem Cut.ofGroups? {m scale : Nat} {whole tail : List Nat} {weight : Int}
    (h : Cut m scale whole tail weight) (hlimit : m < limit) :
    ∃ c, Numeric.ofGroups? (whole ++ tail) weight = some c ∧ c.negative = false ∧
      c.scale ≤ scale ∧ c.value = m / 10 ^ scale := by
  have htail := fractionValue_nonneg (4 * max 1 (-weight).toNat) tail
  have hpow : (0 : ℚ) < 10 ^ scale := by positivity
  have hm : (m : ℚ) < limit := by exact_mod_cast hlimit
  have hwhole : grouped 0 whole < limit := by
    have hone : (1 : ℚ) ≤ 10 ^ scale := one_le_pow₀ (by norm_num)
    have hle : (grouped 0 whole : ℚ) ≤ m := by
      calc (grouped 0 whole : ℚ) ≤ m / 10 ^ scale := by rw [← h.value]; linarith
        _ ≤ m := div_le_self (by positivity) hone
    exact_mod_cast hle.trans_lt hm
  have hstart : (⟨false, grouped 0 whole, 0⟩ : Numeric).value = grouped 0 whole := by
    simp [Numeric.value]
  have hsum : ((⟨false, grouped 0 whole, 0⟩ : Numeric).value +
      fractionValue (4 * max 1 (-weight).toNat) tail) * 10 ^ scale < limit := by
    rwa [hstart, h.value, div_mul_cancel₀ _ hpow.ne']
  obtain ⟨c, hadd, hc, hscale, hvalue⟩ :=
    addFraction?_value rfl (Nat.zero_le scale) h.within hsum
  rw [hstart, h.value] at hvalue
  exact ⟨c, by rw [ofGroups?_append tail h.whole_length hwhole, hadd], hc, hscale, hvalue⟩

/-- What is written for a number are such groups. -/
theorem toWire_cut (negative : Bool) {m scale : Nat} (hm : m ≠ 0) (hlimit : m < limit)
    (hscale : scale ≤ maxScale) :
    ∃ whole tail weight, Cut m scale whole tail weight ∧
      toWire ⟨negative, m, scale⟩ = bigEndian 2 (whole ++ tail).length ++ signedBytes 2 weight ++
        bigEndian 2 (if negative then negativeSign else 0) ++ bigEndian 2 scale ++
        (whole ++ tail).flatMap (bigEndian 2) := by
  have hmost : scale ≤ 28 := hscale
  generalize hplaces : (scale + 3) / 4 = places
  generalize hn : m * 10 ^ (4 * places - scale) = n
  have hnzero : n ≠ 0 := by
    rw [← hn]
    exact Nat.mul_ne_zero hm (by positivity)
  have hnlimit : n < 10000 ^ 32 := by
    calc n = m * 10 ^ (4 * places - scale) := hn.symm
      _ ≤ m * 10 ^ 3 := Nat.mul_le_mul_left m (Nat.pow_le_pow_right (by decide) (by omega))
      _ < limit * 10 ^ 3 := Nat.mul_lt_mul_of_pos_right hlimit (by decide)
      _ < 10000 ^ 32 := by decide
  generalize hgroups : groupsWithin 32 n = groups
  have hlength : groups.length ≤ 32 := hgroups ▸ length_groupsWithin_le 32 n
  have hwithin := within_drop hnzero hplaces.symm hscale (hn ▸ Dvd.intro_left m rfl) hgroups.symm
  have hvalue := take_drop_value places groups
  have hdigits : (grouped 0 groups : ℚ) / 10 ^ (4 * places) = m / 10 ^ scale := by
    rw [← hgroups, grouped_groupsWithin hnlimit, ← hn, digits_value m (by omega)]
  have hplace : 4 * (places - (groups.drop (groups.length - places)).length) + 4 =
      4 * max 1 (-(groups.length - places - 1 : Int)).toNat := by
    rw [List.length_drop]
    omega
  obtain ⟨tail, k, htail, hwritten⟩ := written_groups places groups
  rw [hdigits, hplace, htail, fractionValue_zeros] at hvalue
  rw [hplace, htail] at hwithin
  have hprefix : ∀ g ∈ groups.take (groups.length - places) ++ tail, g ∈ groups := by
    intro g hg
    rw [← List.take_append_drop (groups.length - places) groups, htail]
    exact List.mem_append.mpr ((List.mem_append.mp hg).imp_right (List.mem_append_left _))
  refine ⟨groups.take (groups.length - places), tail, groups.length - places - 1,
    ⟨?_, ?_, ⟨by omega, by omega⟩, ?_, hwithin.left, hvalue⟩, ?_⟩
  · intro g hg
    have hsmall : g < 10000 := mem_groupsWithin (hgroups ▸ hprefix g hg)
    omega
  · have hparts := congrArg List.length htail
    rw [List.length_drop, List.length_append] at hparts
    rw [List.length_append, List.length_take]
    omega
  · rw [List.length_take]
    omega
  · unfold toWire
    rw [if_neg hm]
    dsimp only [Nat.pow_eq]
    rw [hplaces, hn, hgroups, hwritten]

/-- A number is read from its own groups, with the scale that it has. -/
theorem ofWire?_toWire {a : Numeric} (hm : a.mantissa ≠ 0) (hlimit : a.mantissa < limit)
    (hscale : a.scale ≤ maxScale) : ofWire? a.toWire = some a := by
  obtain ⟨negative, m, scale⟩ := a
  obtain ⟨whole, tail, weight, hcut, hwire⟩ := toWire_cut negative hm hlimit hscale
  obtain ⟨c, hgroups, -, hcscale, hvalue⟩ := hcut.ofGroups? hlimit
  have hsign : (if negative then negativeSign else 0) < 65536 ∧
      specialSigns.contains (if negative then negativeSign else 0) = false ∧
      ((if negative then negativeSign else 0) == negativeSign) = negative := by
    cases negative <;> decide
  have hlength := hcut.count
  have hmost : scale ≤ 28 := hscale
  have hwidth : scale < 65536 := by omega
  rw [hwire, ofWire?_parts (by omega) hcut.members hcut.fits hsign.1 hsign.2.1 hwidth,
    hgroups, hsign.2.2]
  have hrescale : ({ c with negative := negative } : Numeric).rescale scale = _ :=
    rescale_value hvalue hcscale hscale hm hlimit
  exact congrArg some hrescale

theorem ofWire?_toWire_ofInt {i : Int} (h : i.natAbs < limit) :
    ofWire? (ofInt i).toWire = some (ofInt i) := by
  by_cases hi : i = 0
  · subst hi
    decide
  · exact ofWire?_toWire (by simpa [ofInt] using hi) h (Nat.zero_le _)

theorem toInt?_ofInt {i : Int} (h : Integer.fits64 i = true) : (ofInt i).toInt? = some i := by
  have hsigned : (if decide (i < 0) = true then -(i.natAbs : Int) else i.natAbs) = i := by
    by_cases hi : i < 0
    · rw [if_pos (decide_eq_true hi)]
      omega
    · rw [if_neg (by simpa using hi)]
      omega
  unfold toInt? ofInt
  dsimp only
  rw [hsigned, if_pos ⟨rfl, h⟩]

end FluentSql.Numeric
