import FluentSql.Proofs.Condition.Reading
import FluentSql.Proofs.Session.Fragments

namespace FluentSql.Session

/-- The bindings of a session are those of its filter. -/
structure Lockstep (s : Session) : Prop where
  clauses : ∀ b ∈ s.bindings, b.clause = .filter
  nodup : s.bindings.names.Nodup
  marks : s.bindings.names = s.filterMarks

variable {s : Session}

theorem start_lockstep (config : QueryConfig) (table : Text) : (start config table).Lockstep := by
  unfold start
  split <;> exact ⟨by simp, by simp [Bindings.names], rfl⟩

theorem Lockstep.setFilter (h : s.Lockstep) (condition : Text) :
    (s.setFilter condition).1.Lockstep := by
  have hcases := s.setFilter_cases condition
  rw [removeClause_filter h.clauses] at hcases
  rcases hcases with ⟨e, he⟩ | ⟨ps, ts, bs, -, hfiltered, he⟩
  · rw [he]
    exact ⟨by simp [fail], by simp [fail, Bindings.names], rfl⟩
  · obtain ⟨new, rfl, hnames, -, hclause⟩ := hfiltered.extends_bindings
    rw [he]
    exact ⟨by simpa using hclause, hfiltered.nodup (by simp [Bindings.names]), hnames⟩

theorem Lockstep.apply (h : s.Lockstep) (c : Call) : (s.apply c).1.Lockstep := by
  cases hr : c.isRetarget with
  | true =>
    cases c with
    | retarget table => exact start_lockstep s.config table
    | _ => simp [Call.isRetarget] at hr
  | false =>
    cases c with
    | filter condition => exact h.setFilter condition
    | allowUnfiltered allow => exact ⟨h.clauses, h.nodup, h.marks⟩
    | _ =>
      obtain ⟨-, hfilter, hbindings, -, -⟩ := s.apply_keepsFilter _ hr rfl rfl
      refine ⟨hbindings ▸ h.clauses, hbindings ▸ h.nodup, ?_⟩
      rw [hbindings, h.marks, filterMarks, filterMarks, hfilter]

theorem run_lockstep (config : QueryConfig) (table : Text) (calls : List Call) :
    ((start config table).run calls).Lockstep := by
  induction calls using List.reverseRecOn with
  | nil => exact start_lockstep config table
  | append_singleton calls c ih =>
    rw [run_concat]
    exact ih.apply c

/-- A condition that is read leaves a filter, and one that fails leaves no bindings either. -/
theorem Lockstep.setFilter_nonempty (h : s.Lockstep) (condition : Text) :
    (s.setFilter condition).1.filter ≠ [] ∨
      ((s.setFilter condition).1.filter = [] ∧ (s.setFilter condition).1.bindings = [] ∧
        (s.setFilter condition).1.fault ≠ none) := by
  have hcases := s.setFilter_cases condition
  rw [removeClause_filter h.clauses] at hcases
  rcases hcases with ⟨e, he⟩ | ⟨ps, ts, bs, hps, hfiltered, he⟩
  · rw [he]
    exact .inr ⟨rfl, rfl, fail_fault _ e⟩
  · rw [he]
    exact .inl (hfiltered.ne_nil (readCondition_words hps).1)

/-- After any calls, failed ones among them, the bindings of a session are those of the placeholders
in its filter, in the same order and each under a name of its own; every clause is complete or not
there, so that no statement has a space too many. -/
theorem run_in_step (config : QueryConfig) (table : Text) (calls : List Call) :
    let s := (start config table).run calls
    (∀ b ∈ s.bindings, b.clause = .filter) ∧ s.bindings.names.Nodup ∧
      (Placeholder.occurrences s.whereClause).map (':' :: ·) = s.bindings.names ∧
      s.Fragmented ∧
      (∀ condition, let next := (s.apply (.filter condition)).1
        next.filter ≠ [] ∨ next.filter = [] ∧ next.bindings = [] ∧ next.fault ≠ none) ∧
      ∀ command t, (s.draft command).result = .ok t →
        Text.WellSpaced t.namedSql ∧ Text.WellSpaced t.compiled.sql := by
  intro s
  have hstep : s.Lockstep := run_lockstep config table calls
  have hnamed : s.WellNamed := run_wellNamed config table calls
  have hmarks := hnamed.whereClause_written.occurrences_eq
  refine ⟨hstep.clauses, hstep.nodup, ?_, hnamed.fragmented, hstep.setFilter_nonempty,
    fun command t ht => ?_⟩
  · rw [← hmarks, hstep.marks]
  · obtain ⟨bs, hdrafted, hcompiled⟩ := draft_ok ht
    have hspaced := hdrafted.spaced hnamed
    rw [(Bindings.compile_ok hcompiled).2]
    refine ⟨Text.wellSpaced_of_spacedFrom hspaced, Text.wellSpaced_of_spacedFrom ?_⟩
    rw [Bindings.spacedFrom_write, hspaced]

theorem run_in_step_update :
    let calls : List Call := [.filter "id = ".toList, .retarget "shop.users".toList,
      .filter "age >= 18, age < 65, note = null".toList, .orderBy [("name".toList, .desc)],
      .limit 10 (some 2)]
    let s := (start {} "users".toList).run calls
    ∃ t, (s.draft (.update [("city".toList, .text "Oslo".toList)])).result = .ok t ∧
      Text.WellSpaced t.compiled.sql := by
  intro calls s
  obtain ⟨t, ht⟩ : ∃ t, (s.draft (.update [("city".toList, .text "Oslo".toList)])).result = .ok t :=
    ⟨_, rfl⟩
  exact ⟨t, ht, ((run_in_step {} "users".toList calls).2.2.2.2.2 _ t ht).2⟩

end FluentSql.Session
