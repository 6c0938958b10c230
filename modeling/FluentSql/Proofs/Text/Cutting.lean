import FluentSql.Text.Basic
import Mathlib.Data.List.Basic

namespace FluentSql.Text

theorem cutAt?_eq_some_iff {c : Char} {t a b : Text} :
    cutAt? c t = some (a, b) ↔ t = a ++ c :: b ∧ c ∉ a := by
  induction t generalizing a with
  | nil => simp [cutAt?]
  | cons x t ih =>
    cases a with
    | nil =>
      by_cases hx : x = c
      · simp [cutAt?, hx]
      · simp [cutAt?, hx]
    | cons y a =>
      by_cases hx : x = c
      · simp only [cutAt?, hx, if_true]
        constructor
        · intro h
          simp at h
        · rintro ⟨h, hy⟩
          obtain ⟨rfl, _⟩ := List.cons.inj h
          simp at hy
      · have hrest := ih (a := a)
        simp only [cutAt?, hx, if_false, Option.map_eq_some_iff, Prod.exists, Prod.mk.injEq,
          List.cons.injEq, List.cons_append, List.mem_cons, not_or]
        constructor
        · rintro ⟨u, v, hu, ⟨rfl, rfl⟩, rfl⟩
          obtain ⟨rfl, hc⟩ := hrest.mp hu
          exact ⟨⟨rfl, rfl⟩, fun he => hx he.symm, hc⟩
        · rintro ⟨⟨rfl, ht⟩, _, hc⟩
          exact ⟨a, b, hrest.mpr ⟨ht, hc⟩, ⟨rfl, rfl⟩, rfl⟩

/-- A text is cut at the first occurrence of a character in one way. -/
theorem append_cut_inj {c : Char} {a b x y : Text} (ha : c ∉ a) (hb : c ∉ b)
    (h : a ++ c :: x = b ++ c :: y) : a = b := by
  have hcut := cutAt?_eq_some_iff.mpr ⟨h, hb⟩
  rw [cutAt?_eq_some_iff.mpr ⟨rfl, ha⟩] at hcut
  exact (Prod.mk.inj (Option.some.inj hcut)).1

/-- What follows the last occurrence of a character has none. -/
theorem cutAtLast?_append {c : Char} {b : Text} (a : Text) (hb : c ∉ b) :
    cutAtLast? c (a ++ c :: b) = some (a, b) := by
  have hcut : cutAt? c (b.reverse ++ c :: a.reverse) = some (b.reverse, a.reverse) :=
    cutAt?_eq_some_iff.mpr ⟨rfl, by simpa using hb⟩
  have hreverse : (a ++ c :: b).reverse = b.reverse ++ c :: a.reverse := by simp
  rw [cutAtLast?, hreverse, hcut]
  simp

theorem splitAt_of_notMem {c : Char} {s : Text} (h : c ∉ s) : splitAt c s = [s] := by
  induction s with
  | nil => rfl
  | cons x s ih =>
    have hx : x ≠ c := by
      rintro rfl
      simp at h
    rw [splitAt, if_neg hx, ih fun hm => h (List.mem_cons_of_mem x hm)]

theorem splitAt_append {c : Char} {s : Text} (h : c ∉ s) (t : Text) :
    splitAt c (s ++ c :: t) = s :: splitAt c t := by
  induction s with
  | nil => simp [splitAt]
  | cons x s ih =>
    have hx : x ≠ c := by
      rintro rfl
      simp at h
    rw [List.cons_append, splitAt, if_neg hx, ih fun hm => h (List.mem_cons_of_mem x hm)]

theorem mem_joinWith {separator : Text} {parts : List Text} {c : Char}
    (h : c ∈ joinWith separator parts) : c ∈ separator ∨ ∃ p ∈ parts, c ∈ p := by
  induction parts with
  | nil => simp [joinWith] at h
  | cons p parts ih =>
    cases parts with
    | nil => exact .inr ⟨p, by simp, h⟩
    | cons q parts =>
      rw [joinWith, List.append_assoc, List.mem_append, List.mem_append] at h
      obtain h | h | h := h
      · exact .inr ⟨p, by simp, h⟩
      · exact .inl h
      · exact (ih h).imp_right fun ⟨r, hr, hc⟩ => ⟨r, List.mem_cons_of_mem p hr, hc⟩

/-- Texts without the character that they are joined with are found again. -/
theorem splitAt_joinWith {c : Char} {parts : List Text} (hne : parts ≠ [])
    (h : ∀ p ∈ parts, c ∉ p) : splitAt c (joinWith [c] parts) = parts := by
  induction parts with
  | nil => exact absurd rfl hne
  | cons p parts ih =>
    have hp : c ∉ p := h p (by simp)
    cases parts with
    | nil => exact splitAt_of_notMem hp
    | cons q parts =>
      have hrest := ih (by simp) fun r hr => h r (List.mem_cons_of_mem p hr)
      rw [joinWith, List.append_assoc, List.singleton_append, splitAt_append hp, hrest]

end FluentSql.Text
