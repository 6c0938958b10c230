import FluentSql.Number.Integer
import FluentSql.Proofs.Result
import FluentSql.Proofs.Text.Word

namespace FluentSql.Integer

/-- A decimal numeral with an optional sign, and the number that it stands for. -/
inductive Numeral : Text → Int → Prop
  | bare {t : Text} : t ≠ [] → (∀ c ∈ t, c.isDigit = true) → Numeral t (Text.ofDecimal t)
  | plus {t : Text} : t ≠ [] → (∀ c ∈ t, c.isDigit = true) → Numeral ('+' :: t) (Text.ofDecimal t)
  | minus {t : Text} : t ≠ [] → (∀ c ∈ t, c.isDigit = true) →
      Numeral ('-' :: t) (-(Text.ofDecimal t : Int))

variable {below most n : Nat} {past : Fault} {t : Text}

theorem le_ofDigitChars (n : Nat) (t : Text) : n ≤ Nat.ofDigitChars 10 t n := by
  induction t generalizing n with
  | nil => exact Nat.le_refl n
  | cons c t ih =>
    rw [Nat.ofDigitChars_cons]
    exact Nat.le_trans (by omega) (ih _)

/-- Digits are read as their number if that is within the bound. -/
theorem readUpTo_digits (ht : ∀ c ∈ t, c.isDigit = true) (hn : n ≤ most) :
    readUpTo most past n t = if Nat.ofDigitChars 10 t n ≤ most then
      .ok (Nat.ofDigitChars 10 t n) else .error past := by
  induction t generalizing n with
  | nil => exact (if_pos hn).symm
  | cons c t ih =>
    have hnext : n * 10 + digitValue c = 10 * n + (c.toNat - '0'.toNat) := by
      rw [digitValue, Nat.mul_comm]
    have hleast := le_ofDigitChars (10 * n + (c.toNat - '0'.toNat)) t
    rw [readUpTo, Nat.ofDigitChars_cons, hnext, if_neg (by simp [ht c (by simp)])]
    by_cases hmost : most < 10 * n + (c.toNat - '0'.toNat)
    · rw [if_pos hmost, if_neg (by omega)]
    · rw [if_neg hmost, ih (fun d hd => ht d (by simp [hd])) (by omega)]

theorem readUpTo_ok {m : Nat} (h : readUpTo most past n t = .ok m) :
    ∀ c ∈ t, c.isDigit = true := by
  induction t generalizing n with
  | nil => simp
  | cons c t ih =>
    rw [readUpTo] at h
    split_ifs at h with hc hmost
    intro d hd
    rcases List.mem_cons.mp hd with rfl | hd
    · simpa using hc
    · exact ih h d hd

theorem read_minus (ht : t ≠ []) : read below most ('-' :: t) =
    (readUpTo below .tooSmall 0 t).map fun n => -Int.ofNat n := by
  cases t with
  | nil => exact absurd rfl ht
  | cons c t => rfl

theorem read_plus (ht : t ≠ []) : read below most ('+' :: t) =
    (readUpTo most .tooLarge 0 t).map Int.ofNat := by
  cases t with
  | nil => exact absurd rfl ht
  | cons c t => rfl

theorem read_bare (ht : t ≠ []) (hhead : ∀ c ∈ t.head?, c ≠ '+' ∧ c ≠ '-') :
    read below most t = (readUpTo most .tooLarge 0 t).map Int.ofNat := by
  unfold read
  split <;> simp_all

/-- A numeral is read as its number if that is within the bounds, and refused if not. -/
theorem read_numeral {i : Int} (h : Numeral t i) (below most : Nat) :
    read below most t = if i < -below then .error .tooSmall
      else if most < i then .error .tooLarge else .ok i := by
  have hplain {t : Text} (ht : ∀ c ∈ t, c.isDigit = true) :
      (readUpTo most .tooLarge 0 t).map Int.ofNat =
        if (Text.ofDecimal t : Int) < -below then .error .tooSmall
          else if (most : Int) < Text.ofDecimal t then .error .tooLarge
          else .ok (Text.ofDecimal t : Int) := by
    rw [readUpTo_digits ht (Nat.zero_le _), ← Text.ofDecimal]
    by_cases hle : Text.ofDecimal t ≤ most
    · rw [if_pos hle, if_neg (by omega), if_neg (by omega)]
      rfl
    · rw [if_neg hle, if_neg (by omega), if_pos (by omega)]
      rfl
  cases h with
  | bare hne ht =>
    rw [read_bare hne, hplain ht]
    intro c hc
    have hdigit := ht c (List.mem_of_mem_head? hc)
    constructor <;> rintro rfl <;> cases hdigit
  | plus hne ht => rw [read_plus hne, hplain ht]
  | @minus t hne ht =>
    rw [read_minus hne, readUpTo_digits ht (Nat.zero_le _), ← Text.ofDecimal]
    by_cases hle : Text.ofDecimal t ≤ below
    · rw [if_pos hle, if_neg (by omega), if_neg (by omega)]
      rfl
    · rw [if_neg hle, if_pos (by omega)]
      rfl

/-- Only numerals are read. -/
theorem read_ok {i : Int} (h : read below most t = .ok i) : ∃ j, Numeral t j := by
  unfold read at h
  split at h
  · cases h
  · cases h
  · cases h
  · next t hne =>
    obtain ⟨m, hm, rfl⟩ := map_ok h
    exact ⟨_, .plus (by simpa using hne) (readUpTo_ok hm)⟩
  · next t _ hne =>
    obtain ⟨m, hm, rfl⟩ := map_ok h
    exact ⟨_, .minus (by simpa using hne) (readUpTo_ok hm)⟩
  · next hne _ _ _ _ =>
    obtain ⟨m, hm, rfl⟩ := map_ok h
    exact ⟨_, .bare (by simpa using hne) (readUpTo_ok hm)⟩

theorem Numeral.unique {i j : Int} (hi : Numeral t i) (hj : Numeral t j) : i = j := by
  have hread := (read_numeral hi (i.natAbs + j.natAbs) (i.natAbs + j.natAbs)).symm.trans
    (read_numeral hj (i.natAbs + j.natAbs) (i.natAbs + j.natAbs))
  rw [if_neg (by omega), if_neg (by omega), if_neg (by omega), if_neg (by omega)] at hread
  exact Except.ok.inj hread

end FluentSql.Integer
