import FluentSql.Proofs.Statement.Numbering
import Mathlib.Algebra.Group.Nat.Even

namespace FluentSql.Statement

/-- An ASCII character that neither opens a text, ends a statement, starts a comment or escapes. -/
def isHarmless (c : Char) : Bool :=
  c.toNat < 128 && !(['\'', ';', '-', '\\', '\x00'].contains c)

/-- Text in which double quotes come in pairs, no two of them next to each other, and nothing else
is special. -/
structure Harmless (t : Text) : Prop where
  chars : ∀ c ∈ t, isHarmless c = true
  balanced : Even (t.count '"')
  undoubled : ¬['"', '"'] <:+: t

theorem harmless_alphanum {c : Char} (h : c.isAlphanum = true) :
    isHarmless c = true ∧ c ≠ '"' := by
  have hn : c.toNat < 128 := by
    rw [Text.isAlphanum_iff] at h
    omega
  have hm : c ∉ ['\'', ';', '-', '\\', '\x00', '"'] := by
    intro hm
    simp only [List.mem_cons, List.not_mem_nil, or_false] at hm
    rcases hm with rfl | rfl | rfl | rfl | rfl | rfl <;> revert h <;> decide
  simp only [List.mem_cons, List.not_mem_nil, or_false, not_or] at hm
  simp [isHarmless, hn, hm]

theorem harmless_word {w : Text} (h : Text.isWord w = true) :
    ∀ c ∈ w, isHarmless c = true ∧ c ≠ '"' := by
  intro c hc
  rcases Text.isWord_chars h c hc with rfl | hc
  · decide
  · exact harmless_alphanum hc

theorem harmless_plain {p : Text} (h : Identifier.isPlain p = true) :
    ∀ c ∈ p, isHarmless c = true ∧ c ≠ '"' := by
  intro c hc
  have hn := Identifier.isPlain_chars h c hc
  simp only [Identifier.isNameChar, Bool.or_eq_true, beq_iff_eq] at hn
  rcases hn with (rfl | rfl) | hn
  · decide
  · decide
  · exact harmless_alphanum hn

theorem harmless_decimal (n : Nat) : ∀ c ∈ Text.decimal n, isHarmless c = true ∧ c ≠ '"' :=
  fun c hc => harmless_alphanum (by simp [Char.isAlphanum, Text.decimal_chars n c hc])

theorem harmless_vocabulary : ∀ w ∈ vocabulary, ∀ c ∈ w, isHarmless c = true ∧ c ≠ '"' := by
  have hall : (vocabulary.all fun w => w.all fun c => isHarmless c && c != '"') = true := by decide
  intro w hw c hc
  simpa using List.all_eq_true.mp (List.all_eq_true.mp hall w hw) c hc

/-- A piece of a statement that may be followed by anything but a double quote. -/
structure Enclosed (x : Text) : Prop where
  chars : ∀ c ∈ x, isHarmless c = true
  balanced : Even (x.count '"')
  undoubled : x.IsChain fun a b => a ≠ '"' ∨ b ≠ '"'

theorem isChain_of_unquoted {x : Text} (h : '"' ∉ x) :
    x.IsChain fun a b => a ≠ '"' ∨ b ≠ '"' := by
  induction x with
  | nil => exact .nil
  | cons c x ih =>
    refine List.isChain_cons.mpr ⟨fun d _ => .inl ?_, ih fun hm => h (by simp [hm])⟩
    rintro rfl
    exact h (by simp)

theorem Enclosed.of_unquoted {x : Text} (h : ∀ c ∈ x, isHarmless c = true ∧ c ≠ '"') :
    Enclosed x := by
  have hq : '"' ∉ x := fun hm => (h _ hm).2 rfl
  exact ⟨fun c hc => (h c hc).1, by simp [List.count_eq_zero.mpr hq], isChain_of_unquoted hq⟩

theorem Enclosed.item {x : Text} (h : Item x) : Enclosed x := by
  cases h with
  | numeral n => exact .of_unquoted (harmless_decimal n)
  | @name p hp =>
    have hq := quote_not_mem_plain hp
    refine ⟨fun c hc => ?_, ?_, ?_⟩
    · simp only [List.cons_append, List.mem_cons, List.mem_append, List.not_mem_nil, or_false] at hc
      rcases hc with rfl | hc | rfl
      · decide
      · exact (harmless_plain hp c hc).1
      · decide
    · have hc : ('"' :: p ++ ['"']).count '"' = 2 := by simp [List.count_eq_zero.mpr hq]
      rw [hc]
      exact ⟨1, rfl⟩
    · cases p with
      | nil => simp [Identifier.isPlain] at hp
      | cons c p =>
        have hc : c ≠ '"' := fun he => hq (by simp [he])
        refine .cons (.append (isChain_of_unquoted hq) (.singleton _) fun a ha b _ => .inl ?_)
          fun d hd => .inr ?_
        · rintro rfl
          exact hq (List.mem_of_getLast? ha)
        · obtain rfl : c = d := by simpa using hd
          exact hc

theorem IsNamed.enclosed {m : Text} (h : IsNamed m) : Enclosed m := by
  obtain ⟨w, hw, rfl⟩ := h
  refine .of_unquoted fun c hc => ?_
  rcases List.mem_cons.mp hc with rfl | hc
  · decide
  · exact harmless_word hw c hc

theorem IsNumbered.enclosed {m : Text} (h : IsNumbered m) : Enclosed m := by
  obtain ⟨n, rfl⟩ := h
  refine .of_unquoted fun c hc => ?_
  rcases List.mem_cons.mp hc with rfl | hc
  · decide
  · exact harmless_decimal n c hc

theorem Enclosed.append {x t : Text} (hx : Enclosed x) (ht : Enclosed t)
    (h : '"' ∉ x ∨ isApart t = true) : Enclosed (x ++ t) := by
  refine ⟨fun c hc => ?_, ?_, .append hx.undoubled ht.undoubled fun a ha b hb => ?_⟩
  · rcases List.mem_append.mp hc with hc | hc
    · exact hx.chars c hc
    · exact ht.chars c hc
  · rw [List.count_append]
    exact hx.balanced.add ht.balanced
  · rcases h with h | h
    · left
      rintro rfl
      exact h (List.mem_of_getLast? ha)
    · right
      cases t with
      | nil => simp at hb
      | cons c t =>
        obtain rfl : c = b := by simpa using hb
        simp only [isApart, Bool.and_eq_true, bne_iff_ne] at h
        exact h.1

theorem Enclosed.harmless {t : Text} (h : Enclosed t) : Harmless t := by
  refine ⟨h.chars, h.balanced, fun hi => ?_⟩
  have hc := h.undoubled.infix hi
  simp at hc

/-- Nothing in a written statement can end a name, a text or the statement. -/
theorem Written.harmless {IsMark : Text → Prop} {s : Text} {ms : List Text}
    (hm : ∀ m, IsMark m → Enclosed m) (hs : Written IsMark s ms) : Harmless s := by
  suffices h : Enclosed s from h.harmless
  induction hs with
  | nil => exact .of_unquoted (by simp)
  | word hw _ ih =>
    have hu := harmless_vocabulary _ hw
    exact .append (.of_unquoted hu) ih (.inl fun hc => (hu _ hc).2 rfl)
  | item hx ha _ ih => exact .append (.item hx) ih (.inr ha)
  | mark h ha _ ih => exact .append (hm _ h) ih (.inr ha)

end FluentSql.Statement
