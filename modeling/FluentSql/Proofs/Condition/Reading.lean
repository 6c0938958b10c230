import FluentSql.Condition.Parse
import FluentSql.Proofs.Result
import FluentSql.Proofs.Text.Word
import FluentSql.Session.Basic
import Mathlib.Data.List.TakeWhile

namespace FluentSql

namespace Condition

theorem splitColumn_word {t : Text} (h : (splitColumn t).1 ≠ []) :
    Text.isWord (splitColumn t).1 = true := by
  cases t with
  | nil => exact absurd rfl h
  | cons c t =>
    simp only [splitColumn] at h ⊢
    split_ifs at h ⊢ with hc
    · have hrest : (t.takeWhile isColumnChar).all isColumnChar = true := by
        rw [List.all_eq_true]
        intro d hd
        exact List.mem_takeWhile_imp hd
      rw [Text.isWord, Bool.and_eq_true]
      exact ⟨hc, hrest⟩
    · exact absurd rfl h

/-- The column of every predicate is a word. -/
theorem Fragment.parse_word {n : Nat} {f : Fragment} {p : Predicate} (h : f.parse n = .ok p) :
    Text.isWord p.column = true := by
  unfold Fragment.parse at h
  split at h
  · simp at h
  · next c cs _ =>
    dsimp only at h
    by_cases hc : (splitColumn (c :: cs)).1.isEmpty = true
    · rw [if_pos hc] at h
      simp at h
    · rw [if_neg hc] at h
      split at h
      · simp at h
      · split_ifs at h
        obtain rfl := Except.ok.inj h
        exact splitColumn_word (by simpa using hc)

theorem parseFrom_words {n : Nat} {fs : List Fragment} {ps : List Predicate}
    (h : parseFrom n fs = .ok ps) :
    ps.length = fs.length ∧ ∀ p ∈ ps, Text.isWord p.column = true := by
  induction fs generalizing n ps with
  | nil =>
    obtain rfl := Except.ok.inj h
    simp
  | cons f fs ih =>
    rw [parseFrom] at h
    split at h
    · simp at h
    · next p hp =>
      obtain ⟨rest, hrest, rfl⟩ := map_ok h
      obtain ⟨hlength, hwords⟩ := ih hrest
      refine ⟨by simp [hlength], fun q hq => ?_⟩
      rcases List.mem_cons.mp hq with rfl | hq
      · exact Fragment.parse_word hp
      · exact hwords q hq

/-- What is accepted was read in one of the fragments. -/
theorem mem_readFrom {n : Nat} {fs : List Fragment} {p : Predicate}
    (h : p ∈ (readFrom n fs).accepted) : ∃ f ∈ fs, ∃ m, f.parse m = .ok p := by
  induction fs generalizing n with
  | nil => simp [readFrom] at h
  | cons f fs ih =>
    have hlater (hrest : p ∈ (readFrom (n + 1) fs).accepted) :
        ∃ g ∈ f :: fs, ∃ m, g.parse m = .ok p := by
      obtain ⟨g, hg, hread⟩ := ih hrest
      exact ⟨g, List.mem_cons_of_mem f hg, hread⟩
    rw [readFrom] at h
    split at h
    · next q hq =>
      rcases List.mem_cons.mp h with rfl | hrest
      · exact ⟨f, List.mem_cons_self, n, hq⟩
      · exact hlater hrest
    · exact hlater h

theorem readFrom_words (n : Nat) (fs : List Fragment) :
    ∀ p ∈ (readFrom n fs).accepted, Text.isWord p.column = true := by
  intro p hp
  obtain ⟨f, -, m, hread⟩ := mem_readFrom hp
  exact Fragment.parse_word hread

theorem fragments_ne_nil (t : Text) : fragments t ≠ [] := by
  unfold fragments
  rw [fragmentsWithin]
  split <;> simp

theorem parse_words {t : Text} {ps : List Predicate} (h : parse t = .ok ps) :
    ps ≠ [] ∧ ∀ p ∈ ps, Text.isWord p.column = true := by
  unfold parse at h
  split_ifs at h
  obtain ⟨hlength, hwords⟩ := parseFrom_words h
  refine ⟨fun hnil => fragments_ne_nil t ?_, hwords⟩
  rw [← List.length_eq_zero_iff, ← hlength, hnil, List.length_nil]

end Condition

/-- A condition that is read has a predicate at least, and the columns of all are words. -/
theorem Session.readCondition_words {policy : MalformedPolicy} {condition : Text}
    {ps : List Condition.Predicate} (h : (readCondition policy condition).1 = .ok ps) :
    ps ≠ [] ∧ ∀ p ∈ ps, Text.isWord p.column = true := by
  cases policy with
  | reject => exact Condition.parse_words h
  | skip =>
    unfold readCondition at h
    dsimp only at h
    split at h
    · simp at h
    · next r hr =>
      have hwords : ∀ p ∈ r.accepted, Text.isWord p.column = true := by
        unfold Condition.parseLenient at hr
        split_ifs at hr
        obtain rfl := Except.ok.inj hr
        exact Condition.readFrom_words 0 _
      by_cases ha : r.accepted.isEmpty = true
      · simp [ha] at h
      · rw [if_neg ha] at h
        obtain rfl := Except.ok.inj h
        exact ⟨by simpa using ha, hwords⟩

end FluentSql
