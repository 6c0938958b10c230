import FluentSql.Binding.Placeholder
import FluentSql.Condition.Comparison
import FluentSql.Proofs.Identifier.Plain
import Mathlib.Algebra.Group.Even
import Mathlib.Data.List.Chain
import Mathlib.Data.List.SplitBy

namespace FluentSql.Statement

/-- The words, signs and comparisons that statements are written with. -/
def vocabulary : List Text :=
  ["SELECT".toList, "INSERT".toList, "INTO".toList, "VALUES".toList, "RETURNING".toList,
    "UPDATE".toList, "SET".toList, "DELETE".toList, "FROM".toList, "AS".toList, "total".toList,
    "WHERE".toList, "AND".toList, "IS".toList, "NOT".toList, "NULL".toList, "IN".toList,
    "GROUP".toList, "BY".toList, "ORDER".toList, "ASC".toList, "DESC".toList, "LIMIT".toList,
    "OFFSET".toList, "COUNT".toList, "SUM".toList, "AVG".toList, "MIN".toList, "MAX".toList,
    "ctid".toList, ['*'], [' '], [','], ['.'], ['('], [')']] ++
  Comparison.precedence.map Comparison.token

/-- Whether a text consists of the vocabulary alone, each word taken as far as its letters go. -/
def isPhrase (t : Text) : Bool :=
  (t.splitBy fun a b => a.isAlpha && b.isAlpha).all vocabulary.contains

/-- A numeral, or a plain name in double quotes. -/
inductive Item : Text → Prop
  | numeral (n : Nat) : Item (Text.decimal n)
  | name {p : Text} : Identifier.isPlain p = true → Item ('"' :: p ++ ['"'])

/-- Whether a text may follow a name, a number or a placeholder without running into it. -/
def isApart : Text → Bool
  | [] => true
  | c :: _ => c != '"' && !Placeholder.isNameChar c

/-- A placeholder by name: a colon and a word. -/
def IsNamed (m : Text) : Prop := ∃ w, Text.isWord w = true ∧ m = ':' :: w

/-- A placeholder by number. -/
def IsNumbered (m : Text) : Prop := ∃ n, m = '$' :: Text.decimal n

/-- Text that is made of the vocabulary, numerals, plain names in double quotes and placeholders of
one kind, and of nothing else; with its placeholders from left to right. -/
inductive Written (IsMark : Text → Prop) : Text → List Text → Prop
  | nil : Written IsMark [] []
  | word {w t : Text} {ms : List Text} : w ∈ vocabulary → Written IsMark t ms →
      Written IsMark (w ++ t) ms
  | item {x t : Text} {ms : List Text} : Item x → isApart t = true → Written IsMark t ms →
      Written IsMark (x ++ t) ms
  | mark {m t : Text} {ms : List Text} : IsMark m → isApart t = true → Written IsMark t ms →
      Written IsMark (m ++ t) (m :: ms)

theorem isPhrase_words {p : Text} (h : isPhrase p = true) :
    ∃ ws : List Text, (∀ w ∈ ws, w ∈ vocabulary) ∧ ws.flatten = p :=
  ⟨_, by simpa [isPhrase] using h, List.flatten_splitBy (fun a b => a.isAlpha && b.isAlpha) p⟩

theorem isApart_append {s t : Text} (hs : isApart s = true) (ht : isApart t = true) :
    isApart (s ++ t) = true := by
  cases s with
  | nil => exact ht
  | cons c s => exact hs

namespace Written

variable {IsMark : Text → Prop} {s t : Text} {ms ns : List Text}

theorem append (hs : Written IsMark s ms) (ht : Written IsMark t ns) (ha : isApart t = true) :
    Written IsMark (s ++ t) (ms ++ ns) := by
  induction hs with
  | nil => exact ht
  | word hw _ ih => rw [List.append_assoc]; exact .word hw ih
  | item hx h _ ih => rw [List.append_assoc]; exact .item hx (isApart_append h ha) ih
  | mark hm h _ ih => rw [List.append_assoc]; exact .mark hm (isApart_append h ha) ih

/-- A phrase may be followed by anything. -/
theorem phrase_append {p : Text} (h : isPhrase p = true) (ht : Written IsMark t ns) :
    Written IsMark (p ++ t) ns := by
  obtain ⟨ws, hws, rfl⟩ := isPhrase_words h
  clear h
  induction ws with
  | nil => exact ht
  | cons w ws ih =>
    rw [List.flatten_cons, List.append_assoc]
    exact .word (hws w (by simp)) (ih fun v hv => hws v (by simp [hv]))

theorem phrase {p : Text} (h : isPhrase p = true) : Written IsMark p [] := by
  have hw : Written IsMark (p ++ []) [] := phrase_append h .nil
  simpa using hw

theorem single_item {x : Text} (h : Item x) : Written IsMark x [] := by
  have hw : Written IsMark (x ++ []) [] := .item h rfl .nil
  simpa using hw

theorem single_mark {m : Text} (h : IsMark m) : Written IsMark m [m] := by
  have hw : Written IsMark (m ++ []) [m] := .mark h rfl .nil
  simpa using hw

theorem plain_name {p : Text} (h : Identifier.isPlain p = true) :
    Written IsMark (Identifier.quotePart p) [] := by
  rw [Identifier.quotePart_plain h]
  exact single_item (.name h)

/-- Written texts with a phrase between them. -/
theorem joinWith {α : Type} {p : Text} (hp : isPhrase p = true)
    (ha : ∀ t, isApart (p ++ t) = true) {items : List α} {f : α → Text}
    {g : α → List Text} (h : ∀ a ∈ items, Written IsMark (f a) (g a)) :
    Written IsMark (Text.joinWith p (items.map f)) (items.flatMap g) := by
  induction items with
  | nil => exact .nil
  | cons a items ih =>
    have hi := ih fun b hb => h b (by simp [hb])
    cases items with
    | nil => simpa [Text.joinWith] using h a (by simp)
    | cons b items =>
      have hrest := (h a (by simp)).append (phrase_append hp hi) (ha _)
      simpa [Text.joinWith] using hrest

theorem joinWith_unmarked {α : Type} {p : Text} (hp : isPhrase p = true)
    (ha : ∀ t, isApart (p ++ t) = true) {items : List α} {f : α → Text}
    (h : ∀ a ∈ items, Written IsMark (f a) []) :
    Written IsMark (Text.joinWith p (items.map f)) [] := by
  have hw := joinWith hp ha h
  rwa [List.flatMap_eq_nil_iff.mpr fun _ _ => rfl] at hw

end Written

end FluentSql.Statement
