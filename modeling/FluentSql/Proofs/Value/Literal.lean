import FluentSql.Proofs.Condition.Splitting
import FluentSql.Proofs.Text.Digits
import FluentSql.Value
import Mathlib.Data.List.Forall2

namespace FluentSql.Value

open Text (Trimmed)

/-- The word null, each of its letters small or capital. -/
def SpellsNull (t : Text) : Prop :=
  List.Forall₂ (· ∈ ·) t [['n', 'N'], ['u', 'U'], ['l', 'L'], ['l', 'L']]

variable {t : Text}

theorem lower_eq_null_iff : Text.lower t = "null".toList ↔ SpellsNull t := by
  have hn (c : Char) : c.toLower = 'n' ↔ c ∈ ['n', 'N'] := by
    simpa using Text.toLower_eq_iff 'N' rfl ⟨rfl, rfl⟩
  have hu (c : Char) : c.toLower = 'u' ↔ c ∈ ['u', 'U'] := by
    simpa using Text.toLower_eq_iff 'U' rfl ⟨rfl, rfl⟩
  have hl (c : Char) : c.toLower = 'l' ↔ c ∈ ['l', 'L'] := by
    simpa using Text.toLower_eq_iff 'L' rfl ⟨rfl, rfl⟩
  constructor
  · intro h
    obtain ⟨a, t, rfl, ha, h⟩ := List.map_eq_cons_iff.mp h
    obtain ⟨b, t, rfl, hb, h⟩ := List.map_eq_cons_iff.mp h
    obtain ⟨c, t, rfl, hc, h⟩ := List.map_eq_cons_iff.mp h
    obtain ⟨d, t, rfl, hd, h⟩ := List.map_eq_cons_iff.mp h
    obtain rfl := List.map_eq_nil_iff.mp h
    exact .cons ((hn a).mp ha) (.cons ((hu b).mp hb)
      (.cons ((hl c).mp hc) (.cons ((hl d).mp hd) .nil)))
  · rintro (_ | ⟨ha, _ | ⟨hb, _ | ⟨hc, _ | ⟨hd, _ | _⟩⟩⟩⟩)
    simp [Text.lower, (hn _).mpr ha, (hu _).mpr hb, (hl _).mpr hc, (hl _).mpr hd]

theorem SpellsNull.unquoted (h : SpellsNull t) : ∀ c ∈ t.head?, c ≠ '\'' ∧ c ≠ '"' := by
  cases h with
  | cons hc _ =>
    rintro d ⟨⟩
    simp only [List.mem_cons, List.not_mem_nil, or_false] at hc
    rcases hc with rfl | rfl <;> decide

theorem ofLiteral_quoted {q : Char} (hq : q = '\'' ∨ q = '"') (body : Text) :
    ofLiteral (q :: body ++ [q]) = .text body := by
  have hblank := Condition.isBlank_quote hq
  have htrim : Text.trim (q :: body ++ [q]) = q :: body ++ [q] :=
    Text.trim_eq_self (by simpa using hblank) (by rw [List.getLast?_concat]; simpa using hblank)
  unfold ofLiteral
  rw [htrim]
  rcases hq with rfl | rfl <;> simp [unquote?]

theorem unquote?_eq_none {q : Char} (h : ∀ c ∈ t.head?, c ≠ q) : unquote? q t = none := by
  cases t with
  | nil => rfl
  | cons c t =>
    have hc : c ≠ q := h c rfl
    simp [unquote?, hc]

theorem ofLiteral_unquoted (ht : Trimmed t) (hq : ∀ c ∈ t.head?, c ≠ '\'' ∧ c ≠ '"') :
    ofLiteral t = if Text.lower t = "null".toList then null else text t := by
  have htrim : Text.trim t = t :=
    Text.trim_eq_self (fun c hc => Text.isBlank_false (ht.head c hc)) fun c hc =>
      Text.isBlank_false (ht.last c hc)
  rw [ofLiteral, htrim, unquote?_eq_none fun c hc => (hq c hc).1,
    unquote?_eq_none fun c hc => (hq c hc).2]
  rfl

theorem ofLiteral_null (ht : Trimmed t) (h : SpellsNull t) : ofLiteral t = null := by
  rw [ofLiteral_unquoted ht h.unquoted, if_pos (lower_eq_null_iff.mpr h)]

theorem ofLiteral_plain (ht : Trimmed t) (hq : ∀ c ∈ t.head?, c ≠ '\'' ∧ c ≠ '"')
    (h : ¬SpellsNull t) : ofLiteral t = text t := by
  rw [ofLiteral_unquoted ht hq, if_neg fun hlower => h (lower_eq_null_iff.mp hlower)]

end FluentSql.Value
