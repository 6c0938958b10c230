import FluentSql.Proofs.Json.Number
import FluentSql.Proofs.Number.Text

namespace FluentSql.Json

/-- A double that is read from its own text. -/
def Restored (r : Double) : Prop := read? (real r).write = some (real r)

theorem isBlank_numeral {c : Char} (h : Double.isNumeral c = true) : isBlank c = false := by
  obtain hdigit | rfl | rfl | rfl | rfl := Double.numeral_cases h
  · exact isBlank_digit hdigit
  all_goals rfl

theorem write_restored {r : Double} (h : Restored r) :
    ∀ c ∈ (real r).write, Double.isNumeral c = true := by
  change ∀ c ∈ realText r, _
  unfold realText
  cases hshape : r.shape with
  | finite negative m u => exact Double.write_chars Double.json hshape
  | _ =>
    have hnull : read? (real r).write = some null := by
      change read? (realText r) = _
      unfold realText
      rw [hshape]
      rfl
    rw [Restored, hnull] at h
    cases h

/-- What is left of a number and is blank is nothing. -/
theorem skipBlank_numerals {t : Text} (ht : ∀ c ∈ t, Double.isNumeral c = true)
    (h : (skipBlank t).isEmpty = true) : t = [] := by
  cases t with
  | nil => rfl
  | cons c t =>
    rw [skipBlank_cons (isBlank_numeral (ht c (by simp)))] at h
    cases h

/-- A text of such characters that is a document is a number. -/
theorem readNumber?_of_read {t : Text} {v : Json} (ht : ∀ c ∈ t, Double.isNumeral c = true)
    (h : read? t = some v) :
    (∃ u, t = '-' :: u ∧ readNumber? true u = some (v, [])) ∨
      ∃ c u, t = c :: u ∧ c.isDigit = true ∧ readNumber? false t = some (v, []) := by
  unfold read? at h
  split at h
  · next w rest hread =>
    obtain ⟨hblank, h⟩ := Option.ite_none_right_eq_some.mp h
    obtain rfl := Option.some.inj h
    have hnothing (hsuffix : rest <:+ t) : rest = [] :=
      skipBlank_numerals (fun c hc => ht c (hsuffix.subset hc)) hblank
    cases t with
    | nil => cases hread
    | cons c u =>
      -- No value begins with a point, a letter of an exponent or a plus sign.
      obtain hdigit | rfl | rfl | rfl | rfl := Double.numeral_cases (ht c (by simp))
      · rw [readValue?_digit hdigit] at hread
        obtain rfl := hnothing (readNumber?_suffix hread)
        exact .inr ⟨c, u, rfl, hdigit, hread⟩
      · cases hread
      · cases hread
      · cases hread
      · rw [readValue?_minus] at hread
        obtain rfl := hnothing ((readNumber?_suffix hread).trans (List.suffix_cons _ _))
        exact .inl ⟨u, rfl, hread⟩
  · cases h

theorem readValue?_real {r : Double} (h : Restored r) (fuel depth : Nat) {rest : Text}
    (hrest : Stops rest) :
    readValue? (fuel + 1) depth ((real r).write ++ rest) = some (real r, rest) := by
  obtain ⟨u, ht, hnumber⟩ | ⟨c, u, ht, hdigit, hnumber⟩ := readNumber?_of_read (write_restored h) h
  · rw [ht, List.cons_append, readValue?_minus, readNumber?_append hrest hnumber, List.nil_append]
  · have happend := readNumber?_append hrest hnumber
    rw [ht, List.cons_append] at happend ⊢
    rw [readValue?_digit hdigit, happend, List.nil_append]

theorem trim_restored {r : Double} (h : Restored r) :
    Text.trim (real r).write = (real r).write :=
  Text.trim_solid fun c hc => Double.isBlank_numeral (write_restored h c hc)

end FluentSql.Json
