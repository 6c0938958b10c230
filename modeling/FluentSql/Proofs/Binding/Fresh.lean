import FluentSql.Binding.Basic
import FluentSql.Proofs.Statement.Grammar
import Mathlib.Data.List.Nodup

namespace FluentSql.Bindings

theorem numbered_injective {base : Text} {m n : Nat} (h : numbered base m = numbered base n) :
    m = n := by
  have ht := List.append_cancel_left h
  exact Text.decimal_injective (List.cons.inj ht).2

theorem numbered_ne_base (base : Text) (n : Nat) : numbered base n ≠ base := by
  intro h
  have hl := congrArg List.length h
  simp [numbered] at hl

theorem isTaken_iff (bs : Bindings) (name : Text) : isTaken bs name = true ↔ name ∈ bs.names := by
  simp only [isTaken, names, List.any_eq_true, decide_eq_true_eq, List.mem_map]

/-- The search passes over taken names only, and what it returns is free unless it ran out of
tries. -/
theorem freeFrom_spec (bs : Bindings) (base : Text) (tries n : Nat) :
    ∃ m, n ≤ m ∧ m ≤ n + tries ∧ freeFrom bs base tries n = numbered base m ∧
      (∀ j, n ≤ j → j < m → numbered base j ∈ bs.names) ∧
      (m < n + tries → numbered base m ∉ bs.names) := by
  induction tries generalizing n with
  | zero => exact ⟨n, Nat.le_refl _, Nat.le_refl _, rfl, fun j hj hm => by omega, fun h => by omega⟩
  | succ tries ih =>
    by_cases ht : isTaken bs (numbered base n) = true
    · obtain ⟨m, hn, hm, he, htaken, hfree⟩ := ih (n + 1)
      refine ⟨m, by omega, by omega, by simp [freeFrom, ht, he], fun j hj hjm => ?_,
        fun h => hfree (by omega)⟩
      rcases Nat.eq_or_lt_of_le hj with rfl | hlt
      · exact (isTaken_iff bs _).mp ht
      · exact htaken j hlt hjm
    · refine ⟨n, Nat.le_refl _, by omega, by simp [freeFrom, ht], fun j hj hm => by omega,
        fun _ hmem => ?_⟩
      exact ht ((isTaken_iff bs _).mpr hmem)

/-- A base and the numbered names after it, one more than there are bindings, are not all taken. -/
theorem exists_free (bs : Bindings) (base : Text) (hb : base ∈ bs.names) :
    ∃ j, 2 ≤ j ∧ j < 2 + bs.length ∧ numbered base j ∉ bs.names := by
  by_contra hall
  push Not at hall
  let candidates := base :: (List.range bs.length).map fun j => numbered base (2 + j)
  have hnodup : candidates.Nodup := by
    refine List.nodup_cons.mpr ⟨?_, List.Nodup.map ?_ List.nodup_range⟩
    · simp only [List.mem_map, not_exists, not_and]
      intro j _ h
      exact numbered_ne_base base (2 + j) h
    · intro i j h
      have := numbered_injective h
      omega
  have hsub : candidates ⊆ bs.names := by
    intro name hn
    rcases List.mem_cons.mp hn with rfl | hn
    · exact hb
    · obtain ⟨j, hj, rfl⟩ := List.mem_map.mp hn
      exact hall (2 + j) (by omega) (by have := List.mem_range.mp hj; omega)
  have hle := hnodup.length_le_of_subset hsub
  simp only [candidates, names, List.length_cons, List.length_map, List.length_range] at hle
  omega

/-- A base that is taken gets the least number from 2 on that makes it free, and that is at most one
more than there are bindings. -/
theorem freshName_taken (bs : Bindings) (base : Text) (hb : base ∈ bs.names) :
    ∃ n, 2 ≤ n ∧ n ≤ bs.length + 1 ∧ freshName bs base = numbered base n ∧
      numbered base n ∉ bs.names ∧ ∀ m, 2 ≤ m → m < n → numbered base m ∈ bs.names := by
  obtain ⟨n, hn, -, he, htaken, hfree⟩ := freeFrom_spec bs base bs.length 2
  obtain ⟨j, hj, hlt, hjfree⟩ := exists_free bs base hb
  have hnj : n ≤ j := by
    by_contra h
    exact hjfree (htaken j hj (by omega))
  refine ⟨n, hn, by omega, ?_, hfree (by omega), htaken⟩
  rw [freshName, if_pos ((isTaken_iff bs base).mpr hb), he]

theorem freshName_free (bs : Bindings) (base : Text) (hb : base ∉ bs.names) :
    freshName bs base = base := by
  rw [freshName, if_neg]
  exact fun ht => hb ((isTaken_iff bs base).mp ht)

theorem freshName_fresh (bs : Bindings) (base : Text) : freshName bs base ∉ bs.names := by
  by_cases hb : base ∈ bs.names
  · obtain ⟨n, -, -, he, hfree, -⟩ := freshName_taken bs base hb
    rwa [he]
  · rwa [freshName_free bs base hb]

theorem suffix_chars (clause : Clause) : ∀ c ∈ clause.suffix, c = '_' ∨ c.isAlphanum = true := by
  have hall : (clause.suffix.all fun c => c == '_' || c.isAlphanum) = true := by
    cases clause <;> decide
  simpa using hall

/-- Every name that a word is registered under is a placeholder. -/
theorem freshName_named (bs : Bindings) (clause : Clause) {seed : Text}
    (h : Text.isWord seed = true) : Statement.IsNamed (freshName bs (baseName clause seed)) := by
  have hbase : Text.isWord (seed ++ clause.suffix) = true :=
    Text.isWord_append h (suffix_chars clause)
  unfold freshName
  split_ifs
  · obtain ⟨m, _, _, he, _⟩ := freeFrom_spec bs (baseName clause seed) bs.length 2
    refine ⟨(seed ++ clause.suffix) ++ '_' :: Text.decimal m, Text.isWord_append hbase ?_, ?_⟩
    · intro c hc
      rcases List.mem_cons.mp hc with rfl | hc
      · exact .inl rfl
      · exact .inr (by simp [Char.isAlphanum, Text.decimal_chars m c hc])
    · rw [he]
      simp [numbered, baseName]
  · exact ⟨seed ++ clause.suffix, hbase, rfl⟩

/-- Names that are pairwise distinct stay so. -/
theorem register_nodup {bs : Bindings} (h : bs.names.Nodup) (clause : Clause) (seed : Text)
    (value : Value) : (bs.register clause seed value).2.names.Nodup := by
  have hf := freshName_fresh bs (baseName clause seed)
  rw [register, names, List.map_append, List.nodup_append]
  refine ⟨h, by simp, ?_⟩
  rintro name hn _ hm rfl
  obtain rfl : name = freshName bs (baseName clause seed) := by simpa using hm
  exact hf hn

end FluentSql.Bindings
