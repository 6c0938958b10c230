import FluentSql.Proofs.Text.Blank
import FluentSql.Proofs.Text.Word
import Mathlib.Algebra.Order.Ring.Nat

namespace FluentSql.Text

/-- A number with zeros before it up to a width. -/
def padded (width n : Nat) : Text := padLeft width (decimal n)

theorem padded_digits (width n : Nat) : ∀ c ∈ padded width n, c.isDigit = true := by
  intro c hc
  obtain hc | hc := List.mem_append.mp hc
  · rw [List.eq_of_mem_replicate hc]
    rfl
  · exact decimal_chars n c hc

theorem length_padded {width n : Nat} (hwidth : 0 < width) (h : n < 10 ^ width) :
    (padded width n).length = width := by
  have hlength : (decimal n).length ≤ width :=
    (Nat.length_toDigits_le_iff (by decide) hwidth).mpr h
  rw [padded, padLeft, List.length_append, List.length_replicate]
  omega

theorem ofDecimal_padLeft (width : Nat) (t : Text) : ofDecimal (padLeft width t) = ofDecimal t := by
  unfold padLeft ofDecimal
  rw [Nat.ofDigitChars_append]
  congr 1
  induction width - t.length with
  | zero => rfl
  | succ n ih => rwa [List.replicate_succ, Nat.ofDigitChars_cons]

theorem ofDecimal_padded (width n : Nat) : ofDecimal (padded width n) = n := by
  rw [padded, ofDecimal_padLeft, ofDecimal_decimal]

theorem isBlank_alphanum {c : Char} (h : c.isAlphanum = true) : isBlank c = false := by
  rw [isAlphanum_iff] at h
  simp only [isBlank, Bool.or_eq_false_iff, Bool.and_eq_false_iff, beq_eq_false_iff_ne,
    decide_eq_false_iff_not]
  omega

theorem isBlank_digit {c : Char} (h : c.isDigit = true) : isBlank c = false :=
  isBlank_alphanum (by simp [Char.isAlphanum, h])

theorem trimStart_eq_self {t : Text} (h : ∀ c ∈ t.head?, isBlank c = false) : trimStart t = t := by
  simpa using trimStart_space (s := []) (t := t) (by simp [IsSpace]) h

theorem trim_eq_self {t : Text} (hhead : ∀ c ∈ t.head?, isBlank c = false)
    (hlast : ∀ c ∈ t.getLast?, isBlank c = false) : trim t = t := by
  rw [trim, trimStart_eq_self hhead]
  simpa using trimEnd_space (s := []) (t := t) (by simp [IsSpace]) hlast

theorem trim_solid {t : Text} (h : ∀ c ∈ t, isBlank c = false) : trim t = t :=
  trim_eq_self (fun c hc => h c (List.mem_of_head? hc)) fun c hc => h c (List.mem_of_getLast? hc)

theorem padded_cons (width n : Nat) : ∃ c t, padded width n = c :: t ∧ c.isDigit = true := by
  have hdigits := padded_digits width n
  cases h : padded width n with
  | nil =>
    have hne : decimal n ≠ [] := Nat.toDigits_ne_nil
    simp [padded, padLeft, hne] at h
  | cons c t =>
    rw [h] at hdigits
    exact ⟨c, t, rfl, hdigits c (by simp)⟩

end FluentSql.Text
