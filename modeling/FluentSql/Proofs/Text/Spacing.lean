import FluentSql.Proofs.Text.Word
import Mathlib.Data.List.Infix

namespace FluentSql.Text

/-- Text with no space at either end and no two spaces in a row. -/
structure WellSpaced (t : Text) : Prop where
  leading : t.head? ≠ some ' '
  trailing : t.getLast? ≠ some ' '
  doubled : ¬[' ', ' '] <:+: t

/-- Whether a text goes on well spaced, behind a space or behind another character; a text starts as
if behind a space, and may not end behind one. -/
def spacedFrom : Bool → Text → Bool
  | space, [] => !space
  | space, c :: t => if c = ' ' then !space && spacedFrom true t else spacedFrom false t

/-- Text without spaces that is not empty. -/
def IsSolid (t : Text) : Prop := t ≠ [] ∧ ' ' ∉ t

variable {s t : Text} {b : Bool}

theorem spacedFrom_append (h : spacedFrom b s = true) (t : Text) :
    spacedFrom b (s ++ t) = spacedFrom false t := by
  induction s generalizing b with
  | nil =>
    cases b with
    | true => simp [spacedFrom] at h
    | false => rfl
  | cons c s ih =>
    rw [List.cons_append, spacedFrom]
    rw [spacedFrom] at h
    split_ifs at h ⊢
    · rw [Bool.and_eq_true] at h
      rw [ih h.2, h.1, Bool.true_and]
    · exact ih h

theorem spaced_append (hs : spacedFrom b s = true) (ht : spacedFrom false t = true) :
    spacedFrom b (s ++ t) = true := (spacedFrom_append hs t).trans ht

theorem spacedFrom_solid (h : IsSolid t) (b : Bool) : spacedFrom b t = true := by
  obtain ⟨hne, hspace⟩ := h
  induction t generalizing b with
  | nil => exact absurd rfl hne
  | cons c t ih =>
    have hc : c ≠ ' ' := fun he => hspace (by simp [he])
    rw [spacedFrom, if_neg hc]
    cases t with
    | nil => rfl
    | cons d t => exact ih false (by simp) fun hm => hspace (List.mem_cons_of_mem c hm)

/-- What may follow a space may follow anything. -/
theorem spacedFrom_false (h : spacedFrom true t = true) : spacedFrom false t = true := by
  cases t with
  | nil => rfl
  | cons c t =>
    rw [spacedFrom] at h ⊢
    split_ifs at h ⊢
    · simp at h
    · exact h

theorem spacedFrom_joinWith {separator : Text}
    (hs : ∀ t, spacedFrom true t = true → spacedFrom false (separator ++ t) = true)
    {items : List Text} (hne : items ≠ []) (h : ∀ i ∈ items, spacedFrom true i = true) :
    spacedFrom true (joinWith separator items) = true := by
  induction items with
  | nil => exact absurd rfl hne
  | cons i items ih =>
    have hi := h i (by simp)
    cases items with
    | nil => exact hi
    | cons j items =>
      have hrest := hs _ (ih (by simp) fun k hk => h k (by simp [hk]))
      rw [joinWith, List.append_assoc, spacedFrom_append hi, hrest]

theorem spacedFrom_concat_space (b : Bool) (t : Text) : spacedFrom b (t ++ [' ']) = false := by
  induction t generalizing b with
  | nil => simp [spacedFrom]
  | cons c t ih => simp [spacedFrom, ih]

theorem spacedFrom_doubled (b : Bool) (s t : Text) :
    spacedFrom b (s ++ ' ' :: ' ' :: t) = false := by
  induction s generalizing b with
  | nil => simp [spacedFrom]
  | cons c s ih => simp [spacedFrom, ih]

theorem wellSpaced_of_spacedFrom (h : spacedFrom true t = true) : WellSpaced t := by
  refine ⟨fun hhead => ?_, fun hlast => ?_, fun hinfix => ?_⟩
  · cases t with
    | nil => simp at hhead
    | cons c t =>
      obtain rfl : c = ' ' := by simpa using hhead
      simp [spacedFrom] at h
  · obtain ⟨s, rfl⟩ := List.getLast?_eq_some_iff.mp hlast
    rw [spacedFrom_concat_space] at h
    cases h
  · obtain ⟨s, u, rfl⟩ := hinfix
    have happend : s ++ [' ', ' '] ++ u = s ++ ' ' :: ' ' :: u := by simp
    rw [happend, spacedFrom_doubled] at h
    cases h

end FluentSql.Text
