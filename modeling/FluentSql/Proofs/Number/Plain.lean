import FluentSql.Number.DoubleText
import FluentSql.Numeric.Reader
import FluentSql.Proofs.Number.Integer
import FluentSql.Proofs.Text.Plain

namespace FluentSql

open Text (IsPlain marks)

variable {t : Text} {c : Char}

theorem Integer.Numeral.plain {i : Int} (h : Integer.Numeral t i) : IsPlain t := by
  have hdigits {t : Text} (ht : ∀ c ∈ t, c.isDigit = true) : IsPlain t :=
    (Text.isPlain_iff t).mpr fun c hc => Text.unmarked rfl (ht c hc)
  cases h with
  | bare _ ht => exact hdigits ht
  | plus _ ht => exact .cons (by decide) (hdigits ht)
  | minus _ ht => exact .cons (by decide) (hdigits ht)

namespace Double

theorem readExponent?_plain {e : Int} (h : readExponent? t = some e) : IsPlain t := by
  have hdigits {t : Text} {f : Nat → Int} (h : Option.map f
      (if !t.isEmpty && t.all Char.isDigit then some (Text.ofDecimal t) else none) = some e) :
      IsPlain t := by
    obtain ⟨n, hn, -⟩ := Option.map_eq_some_iff.mp h
    split_ifs at hn with ht
    rw [Bool.and_eq_true] at ht
    exact Text.isPlain_all rfl ht.2
  unfold readExponent? at h
  dsimp only at h
  split at h
  · exact .cons (by decide) (hdigits h)
  · exact .cons (by decide) (hdigits h)
  · exact hdigits h

theorem readParts?_plain {r : Text × Text × Int} (h : readParts? t = some r) : IsPlain t := by
  have hexponent {whole fraction rest : Text} (h : (match rest with
      | [] => some (whole, fraction, 0)
      | 'e' :: t => (readExponent? t).map fun e => (whole, fraction, e)
      | 'E' :: t => (readExponent? t).map fun e => (whole, fraction, e)
      | _ => none) = some r) : IsPlain rest := by
    split at h
    · trivial
    · obtain ⟨e, he, -⟩ := Option.map_eq_some_iff.mp h
      exact .cons (by decide) (readExponent?_plain he)
    · obtain ⟨e, he, -⟩ := Option.map_eq_some_iff.mp h
      exact .cons (by decide) (readExponent?_plain he)
    · cases h
  refine .of_dropWhile (p := Char.isDigit) rfl ?_
  unfold readParts? at h
  dsimp only at h
  split at h
  · next rest hrest =>
    rw [hrest]
    split_ifs at h
    exact .cons (by decide) (.of_dropWhile rfl (hexponent h))
  · split_ifs at h
    exact hexponent h

theorem readMagnitude?_plain {f : Binary.Format} {n : Nat} (h : readMagnitude? f t = some n) :
    IsPlain t := by
  have hword (w : Text) (hw : w.all Char.isAlpha = true) (ht : Text.lower t = w) : IsPlain t := by
    refine .of_lower (ht ▸ Text.isPlain_all rfl hw)
  unfold readMagnitude? at h
  dsimp only at h
  split_ifs at h with hinf hnan
  · rw [Bool.or_eq_true, decide_eq_true_eq, decide_eq_true_eq] at hinf
    obtain hinf | hinf := hinf
    · exact hword _ (by decide) hinf
    · exact hword _ (by decide) hinf
  · exact hword _ (by decide) hnan
  · obtain ⟨r, hr, -⟩ := Option.map_eq_some_iff.mp h
    exact readParts?_plain hr

theorem read_plain {f : Binary.Format} {n : Nat} (h : read f t = .ok n) : IsPlain t := by
  unfold read at h
  dsimp only at h
  split at h
  · trivial
  · split at h
    · next bits hbits => exact .cons (by decide) (readMagnitude?_plain hbits)
    · cases h
  · split at h
    · next bits hbits => exact .cons (by decide) (readMagnitude?_plain hbits)
    · cases h
  · split at h
    · next bits hbits => exact readMagnitude?_plain hbits
    · cases h

end Double

namespace Numeric

/-- The characters that digits may be mixed with. -/
def isFigure (c : Char) : Bool := c.isDigit || c == '_' || c == '.'

theorem Scan.round?_figures {s : Scan} {r : Nat × Nat} (h : s.round? c t = some r) :
    isFigure c = true ∧ t.all isFigure = true := by
  unfold Scan.round? at h
  by_cases hall : (t.all fun c => c.isDigit || c == '_') = true
  · rw [if_neg (by rw [hall]; decide)] at h
    constructor
    · by_cases hdigit : c.isDigit = true
      · simp [isFigure, hdigit]
      · rw [if_neg hdigit] at h
        split_ifs at h with hmark
        obtain rfl | ⟨rfl, -⟩ : c = '_' ∨ c = '.' ∧ s.point = true := by simpa using hmark
        · rfl
        · rfl
    · rw [List.all_eq_true] at hall ⊢
      intro d hd
      rw [isFigure, hall d hd, Bool.true_or]
  · rw [if_pos (by rw [Bool.not_eq_true] at hall; rw [hall]; rfl)] at h
    cases h

theorem scan?_figures {s : Scan} {r : Nat × Nat} (h : scan? s t = some r) :
    t.all isFigure = true := by
  induction t generalizing s with
  | nil => rfl
  | cons c t ih =>
    rw [scan?] at h
    rw [List.all_cons, Bool.and_eq_true]
    by_cases hfull : (s.point && decide (28 ≤ s.scale)) = true
    · rw [if_pos hfull] at h
      exact Scan.round?_figures h
    rw [if_neg hfull] at h
    by_cases hdigit : c.isDigit = true
    · rw [if_pos hdigit] at h
      by_cases hfits : s.mantissa * 10 + (c.toNat - '0'.toNat) < limit
      · rw [if_pos hfits] at h
        exact ⟨by simp [isFigure, hdigit], ih h⟩
      · rw [if_neg hfits] at h
        split_ifs at h
        exact Scan.round?_figures h
    · rw [if_neg hdigit] at h
      split_ifs at h with hpoint hmark
      · obtain ⟨rfl, -⟩ : c = '.' ∧ s.point = false := by simpa using hpoint
        exact ⟨rfl, ih h⟩
      · obtain ⟨rfl, -⟩ : c = '_' ∧ s.digits = true := by simpa using hmark
        exact ⟨rfl, ih h⟩

theorem readPlain?_plain {a : Numeric} (h : readPlain? t = some a) : IsPlain t := by
  have hsigned {t : Text} {negative : Bool} (h : (scan? ⟨false, false, 0, 0⟩ t).map
      (fun r => (⟨negative, r.1, r.2⟩ : Numeric)) = some a) : IsPlain t := by
    obtain ⟨r, hr, -⟩ := Option.map_eq_some_iff.mp h
    exact Text.isPlain_all rfl (scan?_figures hr)
  unfold readPlain? at h
  dsimp only at h
  split at h
  · trivial
  · exact .cons (by decide) (hsigned h)
  · exact .cons (by decide) (hsigned h)
  · exact hsigned h

theorem readDigits?_plain {n : Nat} (h : readDigits? t = some n) : IsPlain t := by
  unfold readDigits? at h
  dsimp only at h
  split at h
  · split_ifs at h with ht
    rw [Bool.and_eq_true] at ht
    exact .cons (by decide) (Text.isPlain_all rfl ht.2)
  · split_ifs at h with ht
    rw [Bool.and_eq_true] at ht
    exact Text.isPlain_all rfl ht.2

theorem shift?_plain {a b : Numeric} (h : shift? a t = some b) : IsPlain t := by
  unfold shift? at h
  split at h
  · obtain ⟨n, hn, -⟩ := Option.bind_eq_some_iff.mp h
    exact .cons (by decide) (readDigits?_plain hn)
  · obtain ⟨n, hn, -⟩ := Option.bind_eq_some_iff.mp h
    exact readDigits?_plain hn

theorem read?_plain {a : Numeric} (h : read? t = some a) : IsPlain t := by
  unfold read? at h
  dsimp only at h
  split at h
  · exact readPlain?_plain h
  · next c exponent hdrop =>
    obtain ⟨b, hb, hshift⟩ := Option.bind_eq_some_iff.mp h
    have hmark := Text.head_dropWhile (fun c => !(c == 'e' || c == 'E')) t c (by rw [hdrop]; rfl)
    rw [Bool.not_eq_false'] at hmark
    have hc : c ∉ marks := Text.unmarked (p := fun c => c == 'e' || c == 'E') rfl hmark
    have happend : t.takeWhile (fun c => !(c == 'e' || c == 'E')) ++ c :: exponent = t := by
      rw [← hdrop, List.takeWhile_append_dropWhile]
    rw [← happend]
    exact (readPlain?_plain hb).append (.cons hc (shift?_plain hshift))

end Numeric

end FluentSql
