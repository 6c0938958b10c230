import FluentSql.Binding.Placeholder
import FluentSql.Proofs.Text.Word
import Mathlib.Algebra.Group.Nat.Even
import Mathlib.Data.List.Induction
import Mathlib.Data.List.TakeWhile
import Mathlib.Tactic.Tauto

namespace FluentSql.Placeholder

def toggle : Option Char → Char → Option Char
  | none, c => if c = '\'' ∨ c = '"' then some c else none
  | some q, c => if c = q then none else some q

/-- The quote that a text leaves open. A quoted section ends at the quote it starts with. -/
def openQuote (t : Text) : Option Char := t.foldl toggle none

/-- The number of colons at the end of a text. -/
def colons (t : Text) : Nat := (t.reverse.takeWhile fun c => c = ':').length

/-- Text that does not continue a name before it. -/
def Ends (t : Text) : Prop := ∀ c ∈ t.head?, isNameChar c = false

/-- A statement has a placeholder right after some text. Colons pair up from the left, so the colon
is no second half if the colons before it are even in number; the name after it makes it no first
half. -/
structure Occurs (sql pre name : Text) : Prop where
  outside : openQuote pre = none
  unpaired : Even (colons pre)
  word : Text.isWord name = true
  text : ∃ post, sql = pre ++ ':' :: (name ++ post) ∧ Ends post

def Piece.spell (write : Text → Text) : Piece → Text
  | char c => [c]
  | name n => write n

/-- The text of pieces, each placeholder written in some way. -/
def spell (write : Text → Text) (ps : List Piece) : Text := ps.flatMap (Piece.spell write)

/-- The pieces of a statement spell it, and their placeholders are those that occur in it. -/
structure Covers (sql : Text) (ps : List Piece) : Prop where
  text : spell (':' :: ·) ps = sql
  occurs : ∀ pre n, Occurs sql pre n ↔ ∃ l r, ps = l ++ .name n :: r ∧ spell (':' :: ·) l = pre

/-- Text that starts inside or outside quotes, as quoted sections, pairs of colons, placeholders and
single characters. -/
inductive Scans : Option Char → Text → List Piece → Prop
  | done {q : Option Char} : Scans q [] []
  | quoted {q c : Char} {t : Text} {ps : List Piece} : c ≠ q → Scans (some q) t ps →
      Scans (some q) (c :: t) (.char c :: ps)
  | close {q : Char} {t : Text} {ps : List Piece} : Scans none t ps →
      Scans (some q) (q :: t) (.char q :: ps)
  | quote {c : Char} {t : Text} {ps : List Piece} : c = '\'' ∨ c = '"' → Scans (some c) t ps →
      Scans none (c :: t) (.char c :: ps)
  | pair {t : Text} {ps : List Piece} : Scans none t ps →
      Scans none (':' :: ':' :: t) (.char ':' :: .char ':' :: ps)
  | name {w t : Text} {ps : List Piece} : Text.isWord w = true → Ends t → Scans none t ps →
      Scans none (':' :: (w ++ t)) (.name w :: ps)
  | other {c : Char} {t : Text} {ps : List Piece} : ¬(c = '\'' ∨ c = '"') →
      (c = ':' → ∀ d ∈ t.head?, d ≠ ':' ∧ isNameStart d = false) → Scans none t ps →
      Scans none (c :: t) (.char c :: ps)

theorem isNameChar_of_word {w : Text} (h : Text.isWord w = true) :
    ∀ c ∈ w, isNameChar c = true := by
  intro c hc
  rcases Text.isWord_chars h c hc with rfl | hc
  · rfl
  · simp [isNameChar, hc]

theorem Ends.isDigit {t : Text} (h : Ends t) : ∀ c ∈ t.head?, c.isDigit = false := by
  intro c hc
  have hname := h c hc
  simp only [isNameChar, Char.isAlphanum, Bool.or_eq_false_iff] at hname
  exact hname.2.2

theorem isWord_takeWhile {c : Char} (h : isNameStart c = true) (t : Text) :
    Text.isWord ((c :: t).takeWhile isNameChar) = true := by
  have hc : isNameChar c = true := by
    simp only [isNameStart, isNameChar, Char.isAlphanum, Bool.or_eq_true] at h ⊢
    tauto
  have htail : ∀ d ∈ t.takeWhile isNameChar, isNameChar d = true := fun _ => List.mem_takeWhile_imp
  rw [List.takeWhile_cons_of_pos hc, Text.isWord, Bool.and_eq_true, List.all_eq_true]
  exact ⟨h, htail⟩

/-- What the pieces of a text are, by the place where the scan of it starts. -/
def Reads : Place → Text → List Piece → Prop
  | .plain, t, ps => Scans none t ps
  | .secondColon, t, ps => ∀ u, t = ':' :: u → Scans none (':' :: t) (.char ':' :: ps)
  | .quoted q, t, ps => Scans (some q) t ps
  | .name, t, ps => Scans none (t.dropWhile isNameChar) ps

theorem pieceAt_scans (c : Char) {t : Text} (h : ∀ p, Reads p t (piecesFrom p t)) :
    Scans none (c :: t) ((pieceAt c t).1 :: piecesFrom (pieceAt c t).2 t) := by
  have hplain : Scans none t (piecesFrom .plain t) := h .plain
  unfold pieceAt
  split_ifs with hquote hcolon
  · have hq : c = '\'' ∨ c = '"' := by simpa using hquote
    exact .quote hq (h (.quoted c))
  · subst hcolon
    cases t with
    | nil => exact .other (by decide) (by simp) hplain
    | cons d u =>
      dsimp only
      split_ifs with hd hs
      · subst hd
        exact h .secondColon u rfl
      · have hname : Scans none ((d :: u).dropWhile isNameChar) (piecesFrom .name (d :: u)) :=
          h .name
        have hends : Ends ((d :: u).dropWhile isNameChar) := Text.head_dropWhile isNameChar _
        have hscan := Scans.name (isWord_takeWhile hs u) hends hname
        rwa [List.takeWhile_append_dropWhile] at hscan
      · refine .other (by decide) (fun _ e he => ?_) hplain
        obtain rfl : d = e := by simpa using he
        exact ⟨hd, by simpa using hs⟩
  · have hq : ¬(c = '\'' ∨ c = '"') := by simpa using hquote
    exact .other hq (fun he => absurd he hcolon) hplain

theorem reads_piecesFrom (p : Place) (t : Text) : Reads p t (piecesFrom p t) := by
  induction t generalizing p with
  | nil =>
    cases p with
    | secondColon => simp [Reads]
    | _ => exact .done
  | cons c t ih =>
    cases p with
    | plain => exact pieceAt_scans c ih
    | secondColon =>
      rintro u hu
      obtain ⟨rfl, rfl⟩ := List.cons.inj hu
      exact .pair (ih .plain)
    | quoted q =>
      by_cases hc : c = q
      · subst hc
        have hclose : Scans none t (piecesFrom .plain t) := ih .plain
        simpa [Reads, piecesFrom] using Scans.close hclose
      · have hinside : Scans (some q) t (piecesFrom (.quoted q) t) := ih (.quoted q)
        simpa [Reads, piecesFrom, hc] using Scans.quoted hc hinside
    | name =>
      have hrest : Scans none (t.dropWhile isNameChar) (piecesFrom .name t) := ih .name
      by_cases hc : isNameChar c = true
      · simpa [Reads, piecesFrom, hc] using hrest
      · have hat := pieceAt_scans c ih
        simpa [Reads, piecesFrom, hc] using hat

theorem scans_pieces (sql : Text) : Scans none sql (pieces sql) := reads_piecesFrom .plain sql

theorem spell_cons_char (f : Text → Text) (c : Char) (ps : List Piece) :
    spell f (.char c :: ps) = c :: spell f ps := rfl

theorem spell_cons_name (f : Text → Text) (n : Text) (ps : List Piece) :
    spell f (.name n :: ps) = f n ++ spell f ps := rfl

theorem openQuote_concat (t : Text) (c : Char) :
    openQuote (t ++ [c]) = toggle (openQuote t) c := by
  simp [openQuote]

theorem colons_concat (t : Text) (c : Char) :
    colons (t ++ [c]) = if c = ':' then colons t + 1 else 0 := by
  rw [colons, List.reverse_append, List.reverse_singleton, List.singleton_append,
    List.takeWhile_cons]
  split_ifs <;> simp_all [colons]

theorem even_colons {c : Char} (h : c ≠ ':') (t : Text) : Even (colons (t ++ [c])) := by
  rw [colons_concat, if_neg h]
  exact Even.zero

theorem openQuote_eq_some {t : Text} {q : Char} (h : openQuote t = some q) :
    q = '\'' ∨ q = '"' := by
  induction t using List.reverseRecOn with
  | nil => simp [openQuote] at h
  | append_singleton t c ih =>
    rw [openQuote_concat] at h
    cases ho : openQuote t with
    | none =>
      rw [ho, toggle] at h
      split_ifs at h with hc
      obtain rfl := Option.some.inj h
      exact hc
    | some p =>
      rw [ho, toggle] at h
      split_ifs at h
      obtain rfl := Option.some.inj h
      exact ih ho

theorem openQuote_name {t x : Text} (h : openQuote t = none) (hx : ∀ c ∈ x, isNameChar c = true) :
    openQuote (t ++ x) = none := by
  induction x using List.reverseRecOn with
  | nil => simpa using h
  | append_singleton x c ih =>
    have hc : isNameChar c = true := hx c (by simp)
    have hq : ¬(c = '\'' ∨ c = '"') := by
      rintro (rfl | rfl) <;> revert hc <;> decide
    rw [← List.append_assoc, openQuote_concat, ih fun d hd => hx d (by simp [hd]), toggle,
      if_neg hq]

theorem even_colons_name {t x : Text} (hne : x ≠ []) (hx : ∀ c ∈ x, isNameChar c = true) :
    Even (colons (t ++ x)) := by
  induction x using List.reverseRecOn with
  | nil => exact absurd rfl hne
  | append_singleton x c _ =>
    have hc : c ≠ ':' := by
      rintro rfl
      have hcolon := hx ':' (by simp)
      revert hcolon
      decide
    rw [← List.append_assoc]
    exact even_colons hc _

theorem spell_append (f : Text → Text) (ps qs : List Piece) :
    spell f (ps ++ qs) = spell f ps ++ spell f qs := List.flatMap_append

theorem takeWhile_word {w t : Text} (hw : Text.isWord w = true) (ht : Ends t) :
    (w ++ t).takeWhile isNameChar = w := Text.takeWhile_span (isNameChar_of_word hw) ht

/-- A statement has at most one placeholder right after any text. -/
theorem Occurs.name_inj {sql pre m n : Text} (hm : Occurs sql pre m) (hn : Occurs sql pre n) :
    m = n := by
  obtain ⟨s, hs, hends⟩ := hm.text
  obtain ⟨t, ht, hends'⟩ := hn.text
  have hsame : m ++ s = n ++ t := by
    have := List.append_cancel_left (hs.symm.trans ht)
    simpa using this
  rw [← takeWhile_word hm.word hends, hsame, takeWhile_word hn.word hends']

/-- Where a scan of the rest of a statement may start: at the quote that is open, and at no second
colon of a pair. -/
structure Stands (q : Option Char) (pre t : Text) : Prop where
  opened : openQuote pre = q
  unpaired : q = none → t.head? = some ':' → Even (colons pre)

namespace Stands

variable {q c : Char} {pre t w : Text}

theorem quoted (h : Stands (some q) pre (c :: t)) (hc : c ≠ q) :
    Stands (some q) (pre ++ [c]) t := by
  refine ⟨?_, by simp⟩
  rw [openQuote_concat, h.opened, toggle, if_neg hc]

theorem close (h : Stands (some q) pre (q :: t)) : Stands none (pre ++ [q]) t := by
  have hq : q ≠ ':' := by
    rcases openQuote_eq_some h.opened with rfl | rfl <;> decide
  refine ⟨?_, fun _ _ => even_colons hq pre⟩
  rw [openQuote_concat, h.opened, toggle, if_pos rfl]

theorem quote (h : Stands none pre (c :: t)) (hc : c = '\'' ∨ c = '"') :
    Stands (some c) (pre ++ [c]) t := by
  refine ⟨?_, by simp⟩
  rw [openQuote_concat, h.opened, toggle, if_pos hc]

theorem pair (h : Stands none pre (':' :: ':' :: t)) : Stands none (pre ++ [':'] ++ [':']) t := by
  refine ⟨?_, fun _ _ => ?_⟩
  · rw [openQuote_concat, openQuote_concat, h.opened]
    decide
  · rw [colons_concat, if_pos rfl, colons_concat, if_pos rfl]
    exact (h.unpaired rfl rfl).add (by decide : Even 2)

theorem name (h : Stands none pre (':' :: (w ++ t))) (hw : Text.isWord w = true) :
    Stands none (pre ++ ':' :: w) t := by
  have hchars := isNameChar_of_word hw
  have hcolon : openQuote (pre ++ [':']) = none := by
    rw [openQuote_concat, h.opened]
    decide
  have happend : pre ++ ':' :: w = pre ++ [':'] ++ w := by simp
  rw [happend]
  exact ⟨openQuote_name hcolon hchars, fun _ _ => even_colons_name (Text.isWord_ne_nil hw) hchars⟩

theorem other (h : Stands none pre (c :: t)) (hc : ¬(c = '\'' ∨ c = '"'))
    (hcolon : c = ':' → ∀ d ∈ t.head?, d ≠ ':') : Stands none (pre ++ [c]) t := by
  refine ⟨?_, fun _ hnext => even_colons (fun he => hcolon he ':' hnext rfl) pre⟩
  rw [openQuote_concat, h.opened, toggle, if_neg hc]

end Stands

/-- The placeholders of some pieces are those that occur in a text after the one before it. -/
def Finds (pre t : Text) (ps : List Piece) : Prop :=
  ∀ mid n, Occurs (pre ++ t) (pre ++ mid) n ↔ ∃ l r, ps = l ++ .name n :: r ∧
    spell (':' :: ·) l = mid

namespace Finds

variable {pre t : Text} {ps : List Piece}

theorem nil : Finds pre [] [] := by
  intro mid n
  constructor
  · intro h
    obtain ⟨post, hp, -⟩ := h.text
    simp at hp
  · rintro ⟨l, r, h, -⟩
    simp at h

/-- A character that starts no placeholder is passed over. -/
theorem char {c : Char} (h : Finds (pre ++ [c]) t ps) (hno : ∀ n, ¬Occurs (pre ++ c :: t) pre n) :
    Finds pre (c :: t) (.char c :: ps) := by
  intro mid n
  have hnext (mid : Text) := h mid n
  simp only [List.append_assoc, List.singleton_append] at hnext
  constructor
  · intro ho
    cases mid with
    | nil => exact absurd (by simpa using ho) (hno n)
    | cons d mid =>
      obtain ⟨post, hp, -⟩ := ho.text
      have hd : c = d := by
        rw [List.append_assoc] at hp
        exact (List.cons.inj (List.append_cancel_left hp)).1
      subst hd
      obtain ⟨l, r, rfl, hl⟩ := (hnext mid).mp ho
      exact ⟨.char c :: l, r, rfl, by rw [spell_cons_char, hl]⟩
  · rintro ⟨l, r, hps, rfl⟩
    cases l with
    | nil => simp at hps
    | cons p l =>
      obtain ⟨rfl, rfl⟩ := List.cons.inj hps
      exact (hnext _).mpr ⟨l, r, rfl, rfl⟩

/-- A placeholder is the first, and the next one comes after all of its name. -/
theorem name {w : Text} (h : Finds (pre ++ ':' :: w) t ps)
    (hw : Occurs (pre ++ ':' :: (w ++ t)) pre w) :
    Finds pre (':' :: (w ++ t)) (.name w :: ps) := by
  intro mid n
  have hnext (mid : Text) := h mid n
  simp only [List.append_assoc, List.cons_append] at hnext
  constructor
  · intro ho
    cases mid with
    | nil =>
      obtain rfl := hw.name_inj (by simpa using ho)
      exact ⟨[], ps, rfl, rfl⟩
    | cons d mid =>
      obtain ⟨post, hp, -⟩ := ho.text
      rw [List.append_assoc] at hp
      obtain ⟨rfl, hrest⟩ := List.cons.inj (List.append_cancel_left hp)
      obtain ⟨a, rfl, -⟩ : ∃ a, mid = w ++ a ∧ t = a ++ ':' :: (n ++ post) := by
        rcases List.append_eq_append_iff.mp hrest with ⟨a, ha, hb⟩ | ⟨a, ha, hb⟩
        · exact ⟨a, ha, hb⟩
        · cases a with
          | nil => exact ⟨[], by simpa using ha.symm, by simpa using hb.symm⟩
          | cons c a =>
            -- a colon would be part of the name
            obtain ⟨rfl, -⟩ := List.cons.inj hb
            have hc : isNameChar ':' = true := isNameChar_of_word hw.word ':' (by simp [ha])
            simp [isNameChar] at hc
      obtain ⟨l, r, rfl, hl⟩ := (hnext a).mp ho
      exact ⟨.name w :: l, r, rfl, by rw [spell_cons_name, hl]; rfl⟩
  · rintro ⟨l, r, hps, rfl⟩
    cases l with
    | nil =>
      obtain ⟨hn, rfl⟩ := List.cons.inj hps
      obtain rfl := Piece.name.inj hn
      simpa [spell] using hw
    | cons p l =>
      obtain ⟨rfl, rfl⟩ := List.cons.inj hps
      exact (hnext _).mpr ⟨l, r, rfl, rfl⟩

end Finds

/-- No placeholder starts where a quote is open, at a character other than a colon, at a colon that
no name follows, or at the second colon of a pair. -/
theorem not_occurs {pre t : Text} {c : Char}
    (h : openQuote pre ≠ none ∨ c ≠ ':' ∨ (∀ d ∈ t.head?, isNameStart d = false) ∨
      ¬Even (colons pre)) (n : Text) : ¬Occurs (pre ++ c :: t) pre n := by
  intro ho
  obtain ⟨post, hp, -⟩ := ho.text
  obtain ⟨rfl, rfl⟩ := List.cons.inj (List.append_cancel_left hp)
  rcases h with h | h | h | h
  · exact h ho.outside
  · exact h rfl
  · have hw := ho.word
    cases n with
    | nil => simp [Text.isWord] at hw
    | cons d n =>
      have hd := h d (by simp)
      simp only [Text.isWord, Bool.and_eq_true] at hw
      rw [isNameStart, hw.1] at hd
      cases hd
  · exact h ho.unpaired

theorem Scans.finds {q : Option Char} {t : Text} {ps : List Piece} (h : Scans q t ps) {pre : Text}
    (hs : Stands q pre t) : Finds pre t ps := by
  -- `pre` grows by what each case reads
  induction h generalizing pre with
  | done => exact .nil
  | quoted hc _ ih =>
    have hopen : openQuote pre ≠ none := by simp [hs.opened]
    exact (ih (hs.quoted hc)).char (not_occurs (.inl hopen))
  | close _ ih =>
    have hopen : openQuote pre ≠ none := by simp [hs.opened]
    exact (ih hs.close).char (not_occurs (.inl hopen))
  | @quote c t ps hc _ ih =>
    have hcolon : c ≠ ':' := by
      rcases hc with rfl | rfl <;> decide
    exact (ih (hs.quote hc)).char (not_occurs (.inr (.inl hcolon)))
  | @pair t ps _ ih =>
    have hodd : ¬Even (colons (pre ++ [':'])) := by
      rw [colons_concat, if_pos rfl, Nat.even_add_one, not_not]
      exact hs.unpaired rfl rfl
    have hstart : ∀ d ∈ (':' :: t).head?, isNameStart d = false := by
      intro d hd
      obtain rfl := Option.some.inj hd
      decide
    have hsecond := (ih hs.pair).char (not_occurs (.inr (.inr (.inr hodd))))
    exact hsecond.char (not_occurs (.inr (.inr (.inl hstart))))
  | @name w t ps hw ht _ ih =>
    exact (ih (hs.name hw)).name ⟨hs.opened, hs.unpaired rfl rfl, hw, t, rfl, ht⟩
  | @other c t ps hc hcolon _ ih =>
    have hnext := ih (hs.other hc fun he d hd => (hcolon he d hd).1)
    by_cases he : c = ':'
    · exact hnext.char (not_occurs (.inr (.inr (.inl fun d hd => (hcolon he d hd).2))))
    · exact hnext.char (not_occurs (.inr (.inl he)))

theorem Scans.text {q : Option Char} {t : Text} {ps : List Piece} (h : Scans q t ps) :
    spell (':' :: ·) ps = t := by
  induction h with
  | done => rfl
  | quoted _ _ ih => rw [spell_cons_char, ih]
  | close _ ih => rw [spell_cons_char, ih]
  | quote _ _ ih => rw [spell_cons_char, ih]
  | pair _ ih => rw [spell_cons_char, spell_cons_char, ih]
  | name _ _ _ ih => rw [spell_cons_name, ih]; rfl
  | other _ _ _ ih => rw [spell_cons_char, ih]

/-- The pieces of any statement are the ones that it is made of. -/
theorem covers_pieces (sql : Text) : Covers sql (pieces sql) := by
  have hscan := scans_pieces sql
  refine ⟨hscan.text, fun pre n => ?_⟩
  have hstands : Stands none [] sql := ⟨rfl, fun _ _ => Even.zero⟩
  exact hscan.finds hstands pre n

/-- The placeholders of a statement are listed from left to right. -/
theorem occurrences_append {sql n : Text} {before rest : List Text}
    (h : occurrences sql = before ++ n :: rest) :
    ∃ pre, Occurs sql pre n ∧
      ∀ p m, Occurs sql p m → p.length < pre.length → m ∈ before := by
  have hcovers := covers_pieces sql
  obtain ⟨l₁, l', hps, rfl, htail⟩ := List.filterMap_eq_append_iff.mp h
  obtain ⟨l₂, p, r, rfl, hnone, hp, -⟩ := List.filterMap_eq_cons_iff.mp htail
  obtain rfl : p = .name n := by
    cases p with
    | char c => simp [Piece.name?] at hp
    | name m => rw [Option.some.inj hp]
  have hl₂ : l₂.filterMap Piece.name? = [] := List.filterMap_eq_nil_iff.mpr hnone
  have hsplit : pieces sql = (l₁ ++ l₂) ++ .name n :: r := by rw [hps, List.append_assoc]
  refine ⟨_, (hcovers.occurs _ n).mpr ⟨l₁ ++ l₂, r, hsplit, rfl⟩, fun p m ho hlt => ?_⟩
  obtain ⟨l, s, hls, rfl⟩ := (hcovers.occurs p m).mp ho
  rcases List.append_eq_append_iff.mp (hsplit.symm.trans hls) with ⟨a, rfl, -⟩ | ⟨a, ha, hcons⟩
  · simp only [spell_append, List.length_append] at hlt
    omega
  · cases a with
    | nil =>
      rw [List.append_nil] at ha
      rw [ha] at hlt
      exact absurd hlt (Nat.lt_irrefl _)
    | cons p a =>
      obtain ⟨rfl, -⟩ := List.cons.inj hcons
      have hm : m ∈ (l₁ ++ l₂).filterMap Piece.name? := by
        rw [ha]
        exact List.mem_filterMap.mpr ⟨.name m, by simp, rfl⟩
      rwa [List.filterMap_append, hl₂, List.append_nil] at hm

theorem mem_occurrences {sql n : Text} : n ∈ occurrences sql ↔ ∃ pre, Occurs sql pre n := by
  constructor
  · intro h
    obtain ⟨before, rest, happend⟩ := List.append_of_mem h
    obtain ⟨pre, ho, -⟩ := occurrences_append happend
    exact ⟨pre, ho⟩
  · rintro ⟨pre, ho⟩
    obtain ⟨l, r, hps, -⟩ := ((covers_pieces sql).occurs pre n).mp ho
    rw [occurrences, hps]
    exact List.mem_filterMap.mpr ⟨.name n, by simp, rfl⟩

/-- Text that does not continue a name still does not once its placeholders are written with a
dollar sign. -/
theorem Scans.ends {t : Text} {ps : List Piece} (h : Scans none t ps) (ht : Ends t)
    {f : Text → Text} (hf : ∀ n, ∃ x, f n = '$' :: x) : Ends (spell f ps) := by
  cases h with
  | done => exact ht
  | @name w t ps _ _ _ =>
    obtain ⟨x, hx⟩ := hf w
    rw [spell_cons_name, hx]
    intro d hd
    obtain rfl := Option.some.inj hd
    decide
  | quote _ _ => exact ht
  | pair _ => exact ht
  | other _ _ _ => exact ht

theorem Scans.apart {q : Option Char} {t : Text} {ps : List Piece} (h : Scans q t ps)
    {f : Text → Text} (hf : ∀ n, ∃ x, f n = '$' :: x) {l r : List Piece} {n : Text}
    (hps : ps = l ++ .name n :: r) : Ends (spell f r) := by
  have htail {c : Char} {ps l : List Piece} (h : .char c :: ps = l ++ .name n :: r) :
      ∃ l', ps = l' ++ .name n :: r := by
    cases l with
    | nil => simp at h
    | cons p l => exact ⟨l, (List.cons.inj h).2⟩
  induction h generalizing l with
  | done => simp at hps
  | quoted _ _ ih => obtain ⟨l', hl⟩ := htail hps; exact ih hl
  | close _ ih => obtain ⟨l', hl⟩ := htail hps; exact ih hl
  | quote _ _ ih => obtain ⟨l', hl⟩ := htail hps; exact ih hl
  | pair _ ih =>
    obtain ⟨l', hl⟩ := htail hps
    obtain ⟨l', hl⟩ := htail hl
    exact ih hl
  | name _ ht hscan ih =>
    cases l with
    | nil =>
      obtain ⟨-, rfl⟩ := List.cons.inj hps
      exact hscan.ends ht hf
    | cons p l => exact ih (List.cons.inj hps).2
  | other _ _ _ ih => obtain ⟨l', hl⟩ := htail hps; exact ih hl

end FluentSql.Placeholder
