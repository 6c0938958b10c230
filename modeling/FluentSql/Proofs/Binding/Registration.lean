import FluentSql.Proofs.Binding.Rewriting

namespace FluentSql.Bindings

/-- A step with several lists of bindings side by side: a list is started, changed or copied. -/
inductive Move where
  | start
  | change (i : Nat) (c : Change)
  | copy (i : Nat)
  deriving DecidableEq, Repr

def move (lists : List Bindings) : Move → List Bindings
  | .start => lists ++ [[]]
  | .change i c => lists.modify i (change · c)
  | .copy i => lists ++ lists[i]?.toList

/-- The lists of bindings after a sequence of steps that begins with none. -/
def moved (moves : List Move) : List Bindings := moves.foldl move []

/-- The search for a free name has no bound of its own. It stands at a name and knows the number of
the next one, and ends after some tries at the name that it finds. -/
inductive Seeks (bs : Bindings) (base : Text) : Text → Nat → Nat → Text → Prop
  | free {name : Text} {next : Nat} : name ∉ bs.names → Seeks bs base name next 1 name
  | taken {name found : Text} {next tries : Nat} : name ∈ bs.names →
      Seeks bs base (numbered base next) (next + 1) tries found →
      Seeks bs base name next (tries + 1) found

/-- A base that is free, or else one with the least number from 2 on that makes it free. -/
inductive IsLeastFree (bs : Bindings) (base : Text) : Text → Prop
  | bare : base ∉ bs.names → IsLeastFree bs base base
  | numbered {n : Nat} : base ∈ bs.names → 2 ≤ n → numbered base n ∉ bs.names →
      (∀ m, 2 ≤ m → m < n → Bindings.numbered base m ∈ bs.names) →
      IsLeastFree bs base (Bindings.numbered base n)

variable {bs : Bindings} {base : Text}

theorem move_nodup {lists : List Bindings} (h : ∀ bs ∈ lists, bs.names.Nodup) (m : Move) :
    ∀ bs ∈ move lists m, bs.names.Nodup := by
  intro bs hbs
  cases m with
  | start =>
    rcases List.mem_append.mp hbs with hbs | hbs
    · exact h bs hbs
    · obtain rfl := List.mem_singleton.mp hbs
      exact List.nodup_nil
  | change i c =>
    obtain ⟨j, hj, rfl⟩ := List.mem_iff_getElem.mp hbs
    have hlt : j < lists.length := by simpa [move] using hj
    have hkept := h lists[j] (List.getElem_mem hlt)
    simp only [move, List.getElem_modify]
    split_ifs
    · exact change_nodup hkept c
    · exact hkept
  | copy i =>
    rcases List.mem_append.mp hbs with hbs | hbs
    · exact h bs hbs
    · exact h bs (List.mem_of_getElem? (Option.mem_toList.mp hbs))

theorem moved_nodup (moves : List Move) : ∀ bs ∈ moved moves, bs.names.Nodup := by
  induction moves using List.reverseRecOn with
  | nil => simp [moved]
  | append_singleton moves m ih =>
    rw [moved, List.foldl_append]
    exact move_nodup ih m

theorem freshName_least (bs : Bindings) (base : Text) :
    IsLeastFree bs base (freshName bs base) := by
  by_cases hb : base ∈ bs.names
  · obtain ⟨n, hn, -, he, hfree, hleast⟩ := freshName_taken bs base hb
    rw [he]
    exact .numbered hb hn hfree hleast
  · rw [freshName_free bs base hb]
    exact .bare hb

/-- Past names that are taken, the search goes on to the first one that is free. -/
theorem seeks_numbered {n : Nat} (hfree : numbered base n ∉ bs.names) (d : Nat) :
    ∀ start, start + d = n →
      (∀ m, start ≤ m → m < n → numbered base m ∈ bs.names) →
      Seeks bs base (numbered base start) (start + 1) (d + 1) (numbered base n) := by
  -- The names still to be passed over grow fewer as the search moves its start.
  induction d with
  | zero =>
    intro start hn _
    obtain rfl : start = n := hn
    exact .free hfree
  | succ d ih =>
    intro start hn htaken
    refine .taken (htaken start (Nat.le_refl _) (by omega)) ?_
    exact ih (start + 1) (by omega) fun m hm hlt => htaken m (by omega) hlt

/-- The search ends, after one try more than there are bindings at most. -/
theorem exists_seeks (bs : Bindings) (base : Text) :
    ∃ tries, tries ≤ bs.length + 1 ∧ Seeks bs base base 2 tries (freshName bs base) := by
  by_cases hb : base ∈ bs.names
  · obtain ⟨n, hn, hle, he, hfree, hleast⟩ := freshName_taken bs base hb
    have hrest := seeks_numbered hfree (n - 2) 2 (by omega) hleast
    refine ⟨n - 2 + 1 + 1, by omega, ?_⟩
    rw [he]
    exact .taken hb hrest
  · refine ⟨1, by omega, ?_⟩
    rw [freshName_free bs base hb]
    exact .free hb

theorem Seeks.unique {name found found' : Text} {next k k' : Nat}
    (h : Seeks bs base name next k found) (h' : Seeks bs base name next k' found') :
    k = k' ∧ found = found' := by
  induction h generalizing k' with
  | free hfree =>
    cases h' with
    | free _ => exact ⟨rfl, rfl⟩
    | taken htaken _ => exact absurd htaken hfree
  | taken htaken _ ih =>
    cases h' with
    | free hfree => exact absurd htaken hfree
    | taken _ hrest =>
      obtain ⟨rfl, hfound⟩ := ih hrest
      exact ⟨rfl, hfound⟩

/-- Whatever was bound, removed and copied before, the names are distinct, and a value is bound at
the end under the least free name; the search for it ends, with that name only, after at most one
try more than there are bindings. -/
theorem register_least (moves : List Move) {bs : Bindings} (h : bs ∈ moved moves)
    (clause : Clause) (seed : Text) (value : Value) :
    let base := ':' :: seed ++ clause.suffix
    bs.names.Nodup ∧ ∃ name,
      bs.register clause seed value = (name, bs ++ [⟨name, clause, value⟩]) ∧
      IsLeastFree bs base name ∧
      ∃ tries, tries ≤ bs.length + 1 ∧
        ∀ k found, Seeks bs base base 2 k found ↔ k = tries ∧ found = name := by
  intro base
  obtain ⟨tries, hle, hseeks⟩ := exists_seeks bs base
  refine ⟨moved_nodup moves bs h, freshName bs base, rfl, freshName_least bs base, tries, hle, ?_⟩
  intro k found
  constructor
  · intro hk
    exact hk.unique hseeks
  · rintro ⟨rfl, rfl⟩
    exact hseeks

theorem register_least_gap :
    let moves : List Move := [.start, .change 0 (.register .insert "age_where".toList (.int 1)),
      .change 0 (.register .filter "age".toList (.int 2)),
      .change 0 (.register .insert "age_where".toList (.int 3)), .copy 0,
      .change 1 (.removeClause .filter)]
    let bs : Bindings := [⟨":age_where".toList, .insert, .int 1⟩,
      ⟨":age_where_3".toList, .insert, .int 3⟩]
    bs ∈ moved moves ∧ freshName bs ":age_where".toList = ":age_where_2".toList ∧
      bs.names.Nodup ∧ ∃ name,
        bs.register .filter "age".toList (.int 4) = (name, bs ++ [⟨name, .filter, .int 4⟩]) ∧
        IsLeastFree bs ":age_where".toList name ∧
        ∃ tries, tries ≤ 3 ∧ ∀ k found,
          Seeks bs ":age_where".toList ":age_where".toList 2 k found ↔ k = tries ∧ found = name := by
  intro moves bs
  have hbs : bs ∈ moved moves := by decide
  exact ⟨hbs, by decide, register_least moves hbs .filter "age".toList (.int 4)⟩

end FluentSql.Bindings
