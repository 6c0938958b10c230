import FluentSql.Text.Blank
import FluentSql.Text.Clean
import Mathlib.Tactic.SplitIfs

namespace FluentSql.Text

section Span

variable {p : Char → Bool} {s t : Text}

/-- What is taken ends where the next character is of another kind. -/
theorem takeWhile_span (hs : ∀ c ∈ s, p c = true) (ht : ∀ c ∈ t.head?, p c = false) :
    (s ++ t).takeWhile p = s := by
  rw [List.takeWhile_append_of_pos hs]
  cases t with
  | nil => simp
  | cons c t => simp [ht c rfl]

theorem dropWhile_span (hs : ∀ c ∈ s, p c = true) (ht : ∀ c ∈ t.head?, p c = false) :
    (s ++ t).dropWhile p = t := by
  rw [List.dropWhile_append_of_pos hs]
  cases t with
  | nil => rfl
  | cons c t => simp [ht c rfl]

/-- Nothing after a character of another kind is looked at. -/
theorem takeWhile_stop {c : Char} (hc : p c = false) (s t : Text) :
    (s ++ c :: t).takeWhile p = s.takeWhile p := by
  induction s with
  | nil => simp [hc]
  | cons d s ih =>
    rw [List.cons_append, List.takeWhile_cons, List.takeWhile_cons, ih]

theorem dropWhile_stop {c : Char} (hc : p c = false) (s t : Text) :
    (s ++ c :: t).dropWhile p = s.dropWhile p ++ c :: t := by
  induction s with
  | nil => simp [hc]
  | cons d s ih =>
    rw [List.cons_append, List.dropWhile_cons, List.dropWhile_cons, ih]
    split <;> rfl

theorem head_dropWhile (p : Char → Bool) (t : Text) : ∀ c ∈ (t.dropWhile p).head?, p c = false := by
  intro c hc
  have hfirst := List.head?_dropWhile_not p t
  rw [Option.mem_def.mp hc] at hfirst
  simpa using hfirst

end Span

theorem after?_eq_some_iff {p t r : Text} : after? p t = some r ↔ t = p ++ r := by
  induction p generalizing t with
  | nil => simp [after?]
  | cons c p ih =>
    cases t with
    | nil => simp [after?]
    | cons d t =>
      by_cases hc : c = d
      · simp [after?, hc, ih]
      · simp [after?, hc, Ne.symm hc]

/-- A text is looked for up to a character that it does not hold. -/
theorem after?_stop {c : Char} {p : Text} (hp : c ∉ p) (t u : Text) :
    after? p (t ++ c :: u) = (after? p t).map (· ++ c :: u) := by
  induction p generalizing t with
  | nil => simp [after?]
  | cons d p ih =>
    have hd : d ≠ c := fun he => hp (by simp [he])
    cases t with
    | nil => simp [after?, hd]
    | cons x t =>
      by_cases hx : d = x
      · simp [after?, hx, ih fun hm => hp (by simp [hm])]
      · simp [after?, hx]

/-- A letter or underscore, then letters, digits and underscores. -/
def isWord : Text → Bool
  | [] => false
  | c :: t => (c == '_' || c.isAlpha) && t.all fun d => d == '_' || d.isAlphanum

theorem isAlphanum_iff (c : Char) : c.isAlphanum = true ↔
    ((65 ≤ c.toNat ∧ c.toNat ≤ 90) ∨ (97 ≤ c.toNat ∧ c.toNat ≤ 122)) ∨
      (48 ≤ c.toNat ∧ c.toNat ≤ 57) := by
  have hc : c.isAlphanum = ((decide (65 ≤ c.val ∧ c.val ≤ 90) ||
      decide (97 ≤ c.val) && decide (c.val ≤ 122)) ||
        decide (48 ≤ c.val) && decide (c.val ≤ 57)) := rfl
  rw [hc]
  simp only [Bool.or_eq_true, Bool.and_eq_true, decide_eq_true_eq, UInt32.le_iff_toNat_le]
  rfl

/-- Lowering changes nothing but the capital letters of ASCII. -/
theorem toLower_eq {c d : Char} (h : c.toLower = d) :
    c = d ∨ c.toNat + 32 = d.toNat ∧ 65 ≤ c.toNat ∧ c.toNat ≤ 90 := by
  unfold Char.toLower at h
  split_ifs at h with hc
  · have hleast : 65 ≤ c.toNat := hc.1
    have hmost : c.toNat ≤ 90 := hc.2
    have hcode : d.toNat = (c.toNat + 32) % 2 ^ 32 := by
      rw [← h]
      exact UInt32.toNat_add c.val 32
    exact .inr ⟨by omega, hleast, hmost⟩
  · exact .inl h

/-- What is lowered to a small letter is that letter or its capital. -/
theorem toLower_eq_iff {small : Char} (capital : Char) (hcode : capital.toNat + 32 = small.toNat)
    (hlower : small.toLower = small ∧ capital.toLower = small) {c : Char} :
    c.toLower = small ↔ c = small ∨ c = capital := by
  constructor
  · intro h
    refine (toLower_eq h).imp_right fun hc => ?_
    have hsame : c.toNat = capital.toNat := by omega
    exact Char.toNat_inj.mp hsame
  · rintro (rfl | rfl)
    · exact hlower.1
    · exact hlower.2

theorem isWord_ne_nil {w : Text} (h : isWord w = true) : w ≠ [] := by
  rintro rfl
  simp [isWord] at h

theorem isWord_chars {w : Text} (h : isWord w = true) :
    ∀ c ∈ w, c = '_' ∨ c.isAlphanum = true := by
  cases w with
  | nil => simp
  | cons c t =>
    simp only [isWord, Bool.and_eq_true, Bool.or_eq_true, beq_iff_eq, List.all_eq_true] at h
    obtain ⟨hc, ht⟩ := h
    intro d hd
    rcases List.mem_cons.mp hd with rfl | hd
    · exact hc.imp_right fun ha => by simp [Char.isAlphanum, ha]
    · exact ht d hd

/-- A word may be continued by any of its later characters. -/
theorem isWord_append {w t : Text} (h : isWord w = true)
    (ht : ∀ c ∈ t, c = '_' ∨ c.isAlphanum = true) : isWord (w ++ t) = true := by
  cases w with
  | nil => simp [isWord] at h
  | cons c w =>
    simp only [isWord, List.cons_append, Bool.and_eq_true, List.all_append] at h ⊢
    refine ⟨h.1, h.2, ?_⟩
    simpa [List.all_eq_true] using ht

theorem decimal_chars (n : Nat) : ∀ c ∈ decimal n, c.isDigit = true := fun _ hc =>
  Nat.isDigit_of_mem_toDigits (by decide) (by decide) hc

theorem ofDecimal_decimal (n : Nat) : ofDecimal (decimal n) = n := Nat.ofDigitChars_ten_toDigits

theorem decimal_injective {m n : Nat} (h : decimal m = decimal n) : m = n := by
  rw [← ofDecimal_decimal m, h, ofDecimal_decimal]

theorem stripTags_append {x : Text} (h : '<' ∉ x) (t : Text) :
    stripTags (x ++ t) = x ++ stripTags t := by
  unfold stripTags
  induction x with
  | nil => rfl
  | cons c x ih =>
    have hc : c ≠ '<' := fun he => h (by simp [he])
    have hm : markLength? (c :: (x ++ t)) = none := by simp [markLength?, hc]
    rw [List.cons_append, stripFrom, hm]
    exact congrArg (List.cons c) (ih fun hm => h (by simp [hm]))

theorem stripTags_eq_self {t : Text} (h : '<' ∉ t) : stripTags t = t := by
  have happend := stripTags_append h []
  simpa [stripTags, stripFrom] using happend

theorem escape_append {x : Text} (h : ∀ c ∈ x, c ∉ ['&', '<', '>', '"', '\'']) (t : Text) :
    escape (x ++ t) = x ++ escape t := by
  induction x with
  | nil => rfl
  | cons c x ih =>
    have hc := h c (by simp)
    simp only [List.mem_cons, List.not_mem_nil, or_false, not_or] at hc
    obtain ⟨h1, h2, h3, h4, h5⟩ := hc
    rw [List.cons_append, escape, ih fun d hd => h d (by simp [hd])]
    simp [escapeAt, h1, h2, h3, h4, h5]

theorem escape_eq_self {t : Text} (h : ∀ c ∈ t, c ∉ ['&', '<', '>', '"', '\'']) :
    escape t = t := by
  have happend := escape_append h []
  simpa [escape] using happend

theorem escapeAt_unmarked (c : Char) (t : Text) :
    ∀ d ∈ escapeAt c t, d ∉ ['<', '>', '"', '\''] := by
  suffices h : (escapeAt c t).all (fun d => !(['<', '>', '"', '\''].contains d)) = true by
    intro d hd
    simpa using List.all_eq_true.mp h d hd
  unfold escapeAt
  split_ifs with h1 _ h2 h3 h4 h5
  all_goals try decide
  simp [h2, h3, h4, h5]

/-- No angle bracket and no quote is left in an escaped text. -/
theorem escape_unmarked (t : Text) : ∀ c ∈ escape t, c ∉ ['<', '>', '"', '\''] := by
  induction t with
  | nil => simp [escape]
  | cons c t ih =>
    intro d hd
    rcases List.mem_append.mp hd with hd | hd
    · exact escapeAt_unmarked c t d hd
    · exact ih d hd

theorem sanitize_unmarked (t : Text) : ∀ c ∈ sanitize t, c ∉ ['<', '>', '"', '\''] :=
  escape_unmarked (stripTags t)

theorem sanitize_word {w : Text} (h : isWord w = true) : sanitize w = w := by
  have hc (c : Char) (hm : c ∈ w) : c ∉ ['&', '<', '>', '"', '\''] := by
    intro hs
    simp only [List.mem_cons, List.not_mem_nil, or_false] at hs
    have := isWord_chars h c hm
    rcases hs with rfl | rfl | rfl | rfl | rfl <;> revert this <;> decide
  have hlt : '<' ∉ w := fun hm => hc '<' hm (by decide)
  rw [sanitize, stripTags_eq_self hlt, escape_eq_self hc]

theorem isBlank_word {w : Text} (h : isWord w = true) : ∀ c ∈ w, isBlank c = false := by
  intro c hm
  rcases isWord_chars h c hm with rfl | hc
  · decide
  · rw [isAlphanum_iff] at hc
    simp only [isBlank, Bool.or_eq_false_iff, Bool.and_eq_false_iff, beq_eq_false_iff_ne,
      decide_eq_false_iff_not]
    omega

theorem dropWhile_blank_eq_self {t : Text} (h : ∀ c ∈ t, isBlank c = false) :
    t.dropWhile isBlank = t := by
  cases t with
  | nil => rfl
  | cons c t => simp [h c]

theorem trim_word {w : Text} (h : isWord w = true) : trim w = w := by
  have hb := isBlank_word h
  rw [trim, trimStart, dropWhile_blank_eq_self hb, trimEnd,
    dropWhile_blank_eq_self fun c hc => hb c (List.mem_reverse.mp hc), List.reverse_reverse]

end FluentSql.Text
