import FluentSql.Binding.Compile
import FluentSql.Proofs.Binding.Occurrence
import FluentSql.Proofs.Statement.Grammar

namespace FluentSql

namespace Placeholder

/-- The numbers of the placeholders in a compiled statement, from left to right. Quoted sections
hold none. -/
def numbersFrom : Option Char → Text → List Nat
  | _, [] => []
  | some q, c :: t => numbersFrom (if c = q then none else some q) t
  | none, c :: t =>
    if c = '\'' || c = '"' then numbersFrom (some c) t
    else if c = '$' && !(t.takeWhile Char.isDigit).isEmpty then
      Text.ofDecimal (t.takeWhile Char.isDigit) :: numbersFrom none t
    else numbersFrom none t

def numbers (sql : Text) : List Nat := numbersFrom none sql

/-- A character that starts neither a quoted section nor a placeholder. -/
def isInert (c : Char) : Bool := c != '\'' && c != '"' && c != ':' && c != '$'

theorem piecesFrom_inert {x : Text} (h : ∀ c ∈ x, isInert c = true) (t : Text) :
    piecesFrom .plain (x ++ t) = x.map .char ++ piecesFrom .plain t := by
  induction x with
  | nil => rfl
  | cons c x ih =>
    have hc := h c (by simp)
    simp only [isInert, Bool.and_eq_true, bne_iff_ne] at hc
    obtain ⟨⟨⟨h1, h2⟩, h3⟩, _⟩ := hc
    have hp : pieceAt c (x ++ t) = (.char c, .plain) := by simp [pieceAt, h1, h2, h3]
    rw [List.cons_append, piecesFrom, hp, ih fun d hd => h d (by simp [hd])]
    rfl

theorem piecesFrom_quoted {q : Char} {x : Text} (h : q ∉ x) (t : Text) :
    piecesFrom (.quoted q) (x ++ q :: t) = (x ++ [q]).map .char ++ piecesFrom .plain t := by
  induction x with
  | nil => simp [piecesFrom]
  | cons c x ih =>
    have hc : c ≠ q := fun he => h (by simp [he])
    rw [List.cons_append, piecesFrom, if_neg hc, ih fun hm => h (by simp [hm])]
    rfl

theorem ends_of_isApart {t : Text} (h : Statement.isApart t = true) : Ends t := by
  cases t with
  | nil => simp [Ends]
  | cons c t =>
    simp only [Statement.isApart, Bool.and_eq_true, Bool.not_eq_true'] at h
    simpa [Ends] using h.2

theorem piecesFrom_name {x t : Text} (h : ∀ c ∈ x, isNameChar c = true) (ht : Ends t) :
    piecesFrom .name (x ++ t) = piecesFrom .plain t := by
  induction x with
  | nil =>
    cases t with
    | nil => rfl
    | cons c t => simp [piecesFrom, ht c rfl]
  | cons c x ih =>
    rw [List.cons_append, piecesFrom, if_pos (h c (by simp)), ih fun d hd => h d (by simp [hd])]

/-- A placeholder is read with its whole name, if what follows is apart from it. -/
theorem piecesFrom_mark {w t : Text} (hw : Text.isWord w = true)
    (ht : Statement.isApart t = true) :
    piecesFrom .plain (':' :: w ++ t) = .name w :: piecesFrom .plain t := by
  have hends := ends_of_isApart ht
  have htake := takeWhile_word hw hends
  have hp : pieceAt ':' (w ++ t) = (.name w, .name) := by
    cases w with
    | nil => simp [Text.isWord] at hw
    | cons d w =>
      have hs : isNameStart d = true := by
        simp only [Text.isWord, Bool.and_eq_true] at hw
        exact hw.1
      have hd : d ≠ ':' := by
        rintro rfl
        revert hs
        decide
      rw [List.cons_append] at htake ⊢
      simp [pieceAt, hd, hs, htake]
  rw [List.cons_append, piecesFrom, hp, piecesFrom_name (isNameChar_of_word hw) hends]

theorem numbersFrom_inert {x : Text} (h : ∀ c ∈ x, isInert c = true) (t : Text) :
    numbersFrom none (x ++ t) = numbersFrom none t := by
  induction x with
  | nil => rfl
  | cons c x ih =>
    have hc := h c (by simp)
    simp only [isInert, Bool.and_eq_true, bne_iff_ne] at hc
    obtain ⟨⟨⟨h1, h2⟩, _⟩, h4⟩ := hc
    have hn : numbersFrom none (c :: (x ++ t)) = numbersFrom none (x ++ t) := by
      simp [numbersFrom, h1, h2, h4]
    rw [List.cons_append, hn, ih fun d hd => h d (by simp [hd])]

theorem numbersFrom_quoted {q : Char} {x : Text} (h : q ∉ x) (t : Text) :
    numbersFrom (some q) (x ++ q :: t) = numbersFrom none t := by
  induction x with
  | nil => simp [numbersFrom]
  | cons c x ih =>
    have hc : c ≠ q := fun he => h (by simp [he])
    rw [List.cons_append, numbersFrom, if_neg hc, ih fun hm => h (by simp [hm])]

theorem isInert_decimal (n : Nat) : ∀ c ∈ Text.decimal n, isInert c = true := by
  intro c hc
  have hd := Text.decimal_chars n c hc
  simp only [isInert, Bool.and_eq_true, bne_iff_ne]
  refine ⟨⟨⟨?_, ?_⟩, ?_⟩, ?_⟩ <;> (rintro rfl; revert hd; decide)

theorem numbersFrom_mark (n : Nat) {t : Text} (ht : Statement.isApart t = true) :
    numbersFrom none ('$' :: Text.decimal n ++ t) = n :: numbersFrom none t := by
  have htake : (Text.decimal n ++ t).takeWhile Char.isDigit = Text.decimal n :=
    Text.takeWhile_span (Text.decimal_chars n) (ends_of_isApart ht).isDigit
  have hne : (Text.decimal n).isEmpty = false := by
    simp [Text.decimal]
  rw [List.cons_append, numbersFrom, if_neg (by decide), htake, if_pos (by simp [hne]),
    Text.ofDecimal_decimal, numbersFrom_inert (isInert_decimal n)]

end Placeholder

namespace Bindings

/-- A statement with its placeholders numbered. -/
def write (bs : Bindings) (sql : Text) : Text := (Placeholder.pieces sql).flatMap (writePiece bs)

/-- A statement that compiles has its placeholders numbered among the bindings that it refers to. -/
theorem compile_ok {bs : Bindings} {sql : Text} {c : Compiled}
    (h : bs.compile sql = .ok c) :
    (∀ n ∈ Placeholder.occurrences sql, bs.isBound n = true) ∧
      c = ⟨(bs.referenced sql).write sql, (bs.referenced sql).map fun b => b.value.sanitized,
        (bs.referenced sql).names⟩ := by
  unfold compile at h
  split at h
  · simp at h
  · next hf =>
    have hbound := List.find?_eq_none.mp hf
    exact ⟨fun n hn => by simpa using hbound n hn, (Except.ok.inj h).symm⟩

end Bindings

namespace Statement

open Placeholder

theorem isInert_vocabulary : ∀ w ∈ vocabulary, ∀ c ∈ w, isInert c = true := by
  have hall : (vocabulary.all fun w => w.all isInert) = true := by decide
  intro w hw
  exact List.all_eq_true.mp (List.all_eq_true.mp hall w hw)

theorem quote_not_mem_plain {p : Text} (h : Identifier.isPlain p = true) : '"' ∉ p := by
  intro hm
  have hc := Identifier.isPlain_chars h _ hm
  revert hc
  decide

theorem pieces_word {w : Text} (h : w ∈ vocabulary) (t : Text) :
    pieces (w ++ t) = w.map .char ++ pieces t :=
  piecesFrom_inert (isInert_vocabulary w h) t

theorem pieces_item {x : Text} (h : Item x) (t : Text) :
    pieces (x ++ t) = x.map .char ++ pieces t := by
  cases h with
  | numeral n => exact piecesFrom_inert (isInert_decimal n) t
  | @name p hp =>
    have hq := piecesFrom_quoted (quote_not_mem_plain hp) t
    simpa [pieces, piecesFrom, pieceAt] using hq

theorem numbers_word {w : Text} (h : w ∈ vocabulary) (t : Text) : numbers (w ++ t) = numbers t :=
  numbersFrom_inert (isInert_vocabulary w h) t

theorem numbers_item {x : Text} (h : Item x) (t : Text) : numbers (x ++ t) = numbers t := by
  cases h with
  | numeral n => exact numbersFrom_inert (isInert_decimal n) t
  | @name p hp =>
    have hq := numbersFrom_quoted (quote_not_mem_plain hp) t
    simpa [numbers, numbersFrom] using hq

theorem flatMap_char (bs : Bindings) (x : Text) :
    (x.map Piece.char).flatMap bs.writePiece = x := by
  induction x with
  | nil => rfl
  | cons c x ih => exact congrArg (List.cons c) ih

theorem write_word (bs : Bindings) {w : Text} (h : w ∈ vocabulary) (t : Text) :
    bs.write (w ++ t) = w ++ bs.write t := by
  rw [Bindings.write, pieces_word h, List.flatMap_append, flatMap_char]
  rfl

theorem write_phrase (bs : Bindings) {p : Text} (h : isPhrase p = true) (t : Text) :
    bs.write (p ++ t) = p ++ bs.write t := by
  obtain ⟨ws, hws, rfl⟩ := isPhrase_words h
  clear h
  induction ws with
  | nil => rfl
  | cons w ws ih =>
    rw [List.flatten_cons, List.append_assoc, write_word bs (hws w (by simp)),
      ih fun v hv => hws v (by simp [hv]), List.append_assoc]

theorem write_item (bs : Bindings) {x : Text} (h : Item x) (t : Text) :
    bs.write (x ++ t) = x ++ bs.write t := by
  rw [Bindings.write, pieces_item h, List.flatMap_append, flatMap_char]
  rfl

theorem write_mark (bs : Bindings) {w t : Text} (hw : Text.isWord w = true)
    (ht : isApart t = true) :
    bs.write (':' :: w ++ t) = ('$' :: Text.decimal (bs.position w)) ++ bs.write t := by
  rw [Bindings.write, pieces, piecesFrom_mark hw ht]
  rfl

/-- What follows a placeholder or a name still does when the placeholders are numbered. -/
theorem isApart_write (bs : Bindings) {t : Text} (h : isApart t = true) :
    isApart (bs.write t) = true := by
  cases t with
  | nil => rfl
  | cons c t =>
    rw [Bindings.write, pieces, piecesFrom, List.flatMap_cons]
    unfold pieceAt
    split_ifs
    · exact h
    · cases t with
      | nil => exact h
      | cons d t =>
        dsimp only
        split_ifs <;> first | exact h | rfl
    · exact h

theorem filterMap_char (x : Text) : (x.map Piece.char).filterMap Piece.name? = [] := by
  induction x with
  | nil => rfl
  | cons c x ih => exact ih

theorem occurrences_word {w : Text} (h : w ∈ vocabulary) (t : Text) :
    occurrences (w ++ t) = occurrences t := by
  rw [occurrences, pieces_word h, List.filterMap_append, filterMap_char]
  rfl

theorem occurrences_item {x : Text} (h : Item x) (t : Text) :
    occurrences (x ++ t) = occurrences t := by
  rw [occurrences, pieces_item h, List.filterMap_append, filterMap_char]
  rfl

theorem occurrences_mark {w t : Text} (hw : Text.isWord w = true) (ht : isApart t = true) :
    occurrences (':' :: w ++ t) = w :: occurrences t := by
  rw [occurrences, pieces, piecesFrom_mark hw ht]
  rfl

namespace Written

variable {s t : Text} {ms : List Text}

/-- A scan of a statement may be cut wherever the next piece is apart from the last one. -/
theorem pieces_append (hs : Written IsNamed s ms) (ha : isApart t = true) :
    pieces (s ++ t) = pieces s ++ pieces t := by
  induction hs with
  | nil => rfl
  | word hw _ ih =>
    rw [List.append_assoc, pieces_word hw, pieces_word hw, ih, List.append_assoc]
  | item hx _ _ ih =>
    rw [List.append_assoc, pieces_item hx, pieces_item hx, ih, List.append_assoc]
  | mark hm hu _ ih =>
    obtain ⟨w, hw, rfl⟩ := hm
    rw [List.append_assoc, pieces, piecesFrom_mark hw (isApart_append hu ha), pieces,
      piecesFrom_mark hw hu, List.cons_append]
    exact congrArg _ ih

theorem occurrences_eq (hs : Written IsNamed s ms) : ms = (occurrences s).map (':' :: ·) := by
  induction hs with
  | nil => rfl
  | word hw _ ih => rw [occurrences_word hw, ← ih]
  | item hx _ _ ih => rw [occurrences_item hx, ← ih]
  | mark hm hu _ ih =>
    obtain ⟨w, hw, rfl⟩ := hm
    rw [occurrences_mark hw hu, List.map_cons, ← ih]

theorem write_append (bs : Bindings) (hs : Written IsNamed s ms) (ha : isApart t = true) :
    bs.write (s ++ t) = bs.write s ++ bs.write t := by
  rw [Bindings.write, hs.pieces_append ha, List.flatMap_append]
  rfl

/-- Numbering leaves text without placeholders as it is. -/
theorem write_unmarked (bs : Bindings) (hs : Written IsNamed s []) : bs.write s = s := by
  generalize hm : ([] : List Text) = ms at hs
  induction hs with
  | nil => rfl
  | word hw _ ih => rw [write_word bs hw, ih hm]
  | item hx _ _ ih => rw [write_item bs hx, ih hm]
  | mark => simp at hm

/-- Items that a phrase joins are numbered one by one. -/
theorem write_joinWith (bs : Bindings) {α : Type} {p : Text} (hp : isPhrase p = true)
    (ha : ∀ t, isApart (p ++ t) = true) {items : List α} {f : α → Text} {g : α → List Text}
    (h : ∀ a ∈ items, Written IsNamed (f a) (g a)) :
    bs.write (Text.joinWith p (items.map f)) =
      Text.joinWith p (items.map fun a => bs.write (f a)) := by
  induction items with
  | nil => rfl
  | cons a items ih =>
    have hi := ih fun b hb => h b (by simp [hb])
    cases items with
    | nil => rfl
    | cons b items =>
      have hjoin : Text.joinWith p ((a :: b :: items).map f) =
          f a ++ (p ++ Text.joinWith p ((b :: items).map f)) := by
        simp [Text.joinWith]
      rw [hjoin, write_append bs (h a (by simp)) (ha _), write_phrase bs hp, hi]
      simp [Text.joinWith]

/-- Numbering a statement replaces each placeholder by its number and nothing else. -/
theorem numbered (bs : Bindings) (hs : Written IsNamed s ms) :
    Written IsNumbered (bs.write s)
      ((occurrences s).map fun n => '$' :: Text.decimal (bs.position n)) := by
  induction hs with
  | nil => exact .nil
  | word hw _ ih =>
    rw [write_word bs hw, occurrences_word hw]
    exact .word hw ih
  | item hx ha _ ih =>
    rw [write_item bs hx, occurrences_item hx]
    exact .item hx (isApart_write bs ha) ih
  | mark hm ha _ ih =>
    obtain ⟨w, hw, rfl⟩ := hm
    rw [write_mark bs hw ha, occurrences_mark hw ha, List.map_cons]
    exact .mark ⟨_, rfl⟩ (isApart_write bs ha) ih

theorem numbers_eq (hs : Written IsNumbered s ms) :
    ms = (numbers s).map fun n => '$' :: Text.decimal n := by
  induction hs with
  | nil => rfl
  | word hw _ ih => rw [numbers_word hw, ← ih]
  | item hx _ _ ih => rw [numbers_item hx, ← ih]
  | mark hm ha _ ih =>
    obtain ⟨n, rfl⟩ := hm
    rw [numbers, numbersFrom_mark n ha, List.map_cons]
    exact congrArg _ ih

/-- The numbers in a compiled statement are the places of the names in it. -/
theorem numbers_write (bs : Bindings) (hs : Written IsNamed s ms) :
    numbers (bs.write s) = (occurrences s).map bs.position := by
  have h := (hs.numbered bs).numbers_eq
  have hinj : Function.Injective fun n => '$' :: Text.decimal n := fun m n he =>
    Text.decimal_injective (List.cons.inj he).2
  refine (List.map_injective_iff.mpr hinj ?_).symm
  rw [← h, List.map_map]
  rfl

end Written

end Statement

end FluentSql
