import FluentSql.Identifier
import FluentSql.Proofs.Result
import FluentSql.Proofs.Text.Word
import Mathlib.Data.List.TakeWhile

namespace FluentSql

namespace Identifier

/-- A letter or underscore, then letters, digits, underscores and dollar signs. -/
def isPlain : Text → Bool
  | [] => false
  | c :: t => isNameStart c && t.all isNameChar

/-- An identifier whose parts need no quotes. -/
structure IsPlain (i : Identifier) : Prop where
  nonempty : i.parts ≠ []
  plain : ∀ p ∈ i.parts, isPlain p = true

theorem isNameChar_of_isNameStart {c : Char} (h : isNameStart c = true) : isNameChar c = true := by
  simp only [isNameStart, Bool.or_eq_true] at h
  rcases h with h | h <;> simp [isNameChar, h, Char.isAlphanum]

theorem isPlain_chars {p : Text} (h : isPlain p = true) : ∀ c ∈ p, isNameChar c = true := by
  cases p with
  | nil => simp
  | cons c t =>
    simp only [isPlain, Bool.and_eq_true, List.all_eq_true] at h
    intro d hd
    rcases List.mem_cons.mp hd with rfl | hd
    · exact isNameChar_of_isNameStart h.1
    · exact h.2 d hd

theorem isPlain_of_isWord {w : Text} (h : Text.isWord w = true) : isPlain w = true := by
  cases w with
  | nil => simp [Text.isWord] at h
  | cons c t =>
    simp only [Text.isWord, isPlain, Bool.and_eq_true, List.all_eq_true] at h ⊢
    refine ⟨h.1, fun d hd => ?_⟩
    have hc := h.2 d hd
    simp only [Bool.or_eq_true] at hc
    rcases hc with hc | hc <;> simp [isNameChar, hc]

theorem plainPart_plain {t name rest : Text} (h : plainPart t = .ok (name, rest)) :
    isPlain name = true ∧ rest = t.dropWhile (· != '.') := by
  unfold plainPart at h
  split at h
  · simp at h
  · split_ifs at h with hs
    split at h
    · simp at h
    · next hn =>
      simp only [Except.ok.injEq, Prod.mk.injEq] at h
      obtain ⟨rfl, rfl⟩ := h
      refine ⟨?_, rfl⟩
      simp only [isPlain, hs, Bool.true_and, List.all_eq_true]
      intro d hd
      simpa using List.find?_eq_none.mp hn d hd

/-- Text without quotes is read as a plain part. -/
theorem part_of_unquoted {t : Text} (h : '"' ∉ t) : part t = plainPart t := by
  unfold part
  split
  · simp at h
  · rfl

theorem partsWithin_plain {n : Nat} {t : Text} {ps : List Text} (hq : '"' ∉ t)
    (h : partsWithin n t = .ok ps) : ps ≠ [] ∧ ∀ p ∈ ps, isPlain p = true := by
  induction n generalizing t ps with
  | zero => simp [partsWithin] at h
  | succ n ih =>
    rw [partsWithin, part_of_unquoted hq] at h
    split at h
    · simp at h
    · next name hp =>
      obtain rfl : [name] = ps := by simpa using h
      exact ⟨by simp, by simpa using (plainPart_plain hp).1⟩
    · simp at h
    · next name rest _ hp =>
      obtain ⟨qs, hr, rfl⟩ := map_ok h
      have htail : '"' ∉ rest := by
        intro hm
        have hd : '"' ∈ t.dropWhile (· != '.') := by
          rw [← (plainPart_plain hp).2]
          exact List.mem_cons_of_mem _ hm
        exact hq ((List.dropWhile_sublist _).mem hd)
      have hrest := (ih htail hr).2
      refine ⟨by simp, fun p hm => ?_⟩
      rcases List.mem_cons.mp hm with rfl | hm
      · exact (plainPart_plain hp).1
      · exact hrest p hm
    · simp at h

/-- Every name that is read from cleaned text is plain. -/
theorem ofText_plain {raw : Text} {i : Identifier} (h : ofText raw = .ok i) : i.IsPlain := by
  unfold ofText parse at h
  split_ifs at h
  have hq : '"' ∉ Text.sanitize (Text.trim raw) :=
    fun hm => Text.sanitize_unmarked _ _ hm (by decide)
  obtain ⟨ps, hp, rfl⟩ := map_ok h
  obtain ⟨hn, hps⟩ := partsWithin_plain hq hp
  exact ⟨hn, hps⟩

/-- A plain part is read up to the next dot. -/
theorem plainPart_append {p rest : Text} (h : isPlain p = true)
    (hrest : ∀ c ∈ rest.head?, c = '.') : plainPart (p ++ rest) = .ok (p, rest) := by
  have hchars : ∀ c ∈ p, (c != '.') = true := by
    intro c hc
    have hname := isPlain_chars h c hc
    rw [bne_iff_ne]
    rintro rfl
    revert hname
    decide
  have hdot : ∀ c ∈ rest.head?, (c != '.') = false := by
    intro c hc
    simp [hrest c hc]
  rw [plainPart, Text.takeWhile_span hchars hdot, Text.dropWhile_span hchars hdot]
  cases p with
  | nil => simp [isPlain] at h
  | cons c cs =>
    simp only [isPlain, Bool.and_eq_true, List.all_eq_true] at h
    have hfind : cs.find? (fun d => !isNameChar d) = none :=
      List.find?_eq_none.mpr fun d hd => by simp [h.2 d hd]
    simp [h.1, hfind]

theorem parse_word {w : Text} (h : Text.isWord w = true) : parse w = .ok ⟨[w]⟩ := by
  have hn (d : Char) (hd : d ≠ '_' ∧ d.isAlphanum = false) : d ∉ w := by
    intro hm
    rcases Text.isWord_chars h d hm with he | he
    · exact hd.1 he
    · simp [hd.2] at he
  have hne := Text.isWord_ne_nil h
  have hnul := hn '\x00' (by decide)
  have hread : plainPart (w ++ []) = .ok (w, []) :=
    plainPart_append (isPlain_of_isWord h) (by simp)
  rw [List.append_nil] at hread
  have hpart : part w = .ok (w, []) := by
    rw [part_of_unquoted (hn '"' (by decide)), hread]
  simp [parse, hne, hnul, partsWithin, hpart, Except.map]

/-- A word is a name of one part, and nothing in it is changed. -/
theorem ofText_word {w : Text} (h : Text.isWord w = true) : ofText w = .ok ⟨[w]⟩ := by
  rw [ofText, Text.trim_word h, Text.sanitize_word h, parse_word h]

theorem quotePart_plain {p : Text} (h : isPlain p = true) : quotePart p = '"' :: p ++ ['"'] := by
  have hq : ∀ c ∈ p, c ≠ '"' := by
    rintro c hm rfl
    have hc := isPlain_chars h _ hm
    revert hc
    decide
  have hflat : p.flatMap (fun c => if c = '"' then ['"', '"'] else [c]) = p := by
    clear h
    induction p with
    | nil => rfl
    | cons c t ih =>
      rw [List.flatMap_cons, ih fun d hd => hq d (by simp [hd]), if_neg (hq c (by simp))]
      rfl
  rw [quotePart, hflat]

/-- A placeholder can be named after a plain identifier. -/
theorem seed_word {i : Identifier} (h : i.IsPlain) : Text.isWord i.seed = true := by
  have hplain := h.plain _ (List.getLast_mem h.nonempty)
  rw [seed, List.getLast?_eq_some_getLast h.nonempty, Option.getD_some]
  cases hp : i.parts.getLast h.nonempty with
  | nil => simp [hp, isPlain] at hplain
  | cons c t =>
    simp only [hp, isPlain, isNameStart, Bool.and_eq_true, Bool.or_eq_true, beq_iff_eq] at hplain
    simp only [List.map_cons, Text.isWord, Bool.and_eq_true, List.all_eq_true,
      List.mem_map, forall_exists_index, and_imp]
    constructor
    · rcases hplain.1 with rfl | hc
      · decide
      · have ha : c.isAlphanum = true := by simp [Char.isAlphanum, hc]
        simp [ha, hc]
    · rintro d x _ rfl
      split_ifs with hx
      · simp [hx]
      · decide

/-- A word names placeholders as it is. -/
theorem seed_eq_self {w : Text} (h : Text.isWord w = true) : seed ⟨[w]⟩ = w := by
  have hsame : w.map (fun c => if c.isAlphanum then c else '_') = w := by
    rw [List.map_congr_left (g := id), List.map_id]
    intro c hc
    rcases Text.isWord_chars h c hc with rfl | hc
    · rfl
    · exact if_pos hc
  unfold seed
  rw [List.getLast?_singleton, Option.getD_some, hsame]
  cases w with
  | nil => exact absurd rfl (Text.isWord_ne_nil h)
  | cons c w => rfl

end Identifier

end FluentSql
