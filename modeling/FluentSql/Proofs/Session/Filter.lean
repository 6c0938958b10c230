import FluentSql.Session.Statement
import FluentSql.Proofs.Binding.Fresh
import FluentSql.Proofs.Result

namespace FluentSql

theorem Role.read_plain {role : Role} {raw : Text} {i : Identifier} (h : role.read raw = .ok i) :
    i.IsPlain := by
  unfold Role.read at h
  split at h
  · next j hj =>
    obtain rfl : j = i := by simpa using h
    exact Identifier.ofText_plain hj
  · simp at h

theorem Role.read_word (role : Role) {w : Text} (h : Text.isWord w = true) :
    role.read w = .ok ⟨[w]⟩ := by
  rw [Role.read, Identifier.ofText_word h]

theorem Role.read_of_word {role : Role} {w : Text} {i : Identifier} (h : role.read w = .ok i)
    (hw : Text.isWord w = true) : i = ⟨[w]⟩ :=
  Except.ok.inj (h.symm.trans (Role.read_word role hw))

namespace Condition.Predicate

/-- Whether a predicate asks for null, so that no value is bound for it. -/
def asksNull (p : Predicate) : Bool :=
  [.eq, .ne, .ltgt].contains p.op && (Value.ofLiteral p.value).isNull

def nullTest (p : Predicate) : Test := if p.op = .eq then .isNull else .isNotNull

/-- The values that are bound for predicates, in their order. -/
def boundValues (ps : List Predicate) : List Value :=
  (ps.filter fun p => !p.asksNull).map fun p => Value.ofLiteral p.value

theorem boundValues_null {p : Predicate} (h : p.asksNull = true) (ps : List Predicate) :
    boundValues (p :: ps) = boundValues ps := by
  simp [boundValues, h]

theorem boundValues_value {p : Predicate} (h : p.asksNull = false) (ps : List Predicate) :
    boundValues (p :: ps) = Value.ofLiteral p.value :: boundValues ps := by
  simp [boundValues, h]

end Condition.Predicate

/-- The placeholder in a term of a filter, if it has one. -/
def FilterTerm.placeholder? (t : FilterTerm) : Option Text :=
  match t.test with
  | .compare _ m => some m
  | _ => none

theorem FilterTerm.placeholder?_nullTest (column : Identifier) (p : Condition.Predicate) :
    FilterTerm.placeholder? ⟨column, p.nullTest⟩ = none := by
  unfold FilterTerm.placeholder? Condition.Predicate.nullTest
  split_ifs <;> rfl

namespace Session

open Condition (Predicate)

/-- The name that the value of a column is bound under. -/
def nextName (bs : Bindings) (clause : Clause) (column : Identifier) : Text :=
  bs.freshName (Bindings.baseName clause column.seed)

/-- How predicates become the terms of a filter, each with the bindings that are there when its turn
comes. -/
inductive Filtered : Bindings → List Predicate → List FilterTerm → Bindings → Prop
  | nil {bs : Bindings} : Filtered bs [] [] bs
  | null {bs bs' : Bindings} {p : Predicate} {ps : List Predicate} {column : Identifier}
      {ts : List FilterTerm} : Role.column.read p.column = .ok column → p.asksNull = true →
      Filtered bs ps ts bs' → Filtered bs (p :: ps) (⟨column, p.nullTest⟩ :: ts) bs'
  | value {bs bs' : Bindings} {p : Predicate} {ps : List Predicate} {column : Identifier}
      {ts : List FilterTerm} : Role.column.read p.column = .ok column → p.asksNull = false →
      Filtered (bs ++ [⟨nextName bs .filter column, .filter, Value.ofLiteral p.value⟩]) ps ts bs' →
      Filtered bs (p :: ps) (⟨column, .compare p.op (nextName bs .filter column)⟩ :: ts) bs'

theorem term_eq (bs : Bindings) (p : Predicate) : term bs p =
    (Role.column.read p.column).map fun column =>
      if p.asksNull then (⟨column, p.nullTest⟩, bs)
      else (⟨column, .compare p.op (nextName bs .filter column)⟩,
        bs ++ [⟨nextName bs .filter column, .filter, Value.ofLiteral p.value⟩]) := by
  obtain ⟨c, op, v⟩ := p
  unfold term Predicate.asksNull Predicate.nullTest
  cases Role.column.read c with
  | error e => rfl
  | ok column =>
    generalize Value.ofLiteral v = value
    cases op <;> cases value <;> rfl

theorem terms_cons (bs : Bindings) (p : Predicate) (ps : List Predicate) :
    terms bs (p :: ps) = term bs p >>= fun r => (terms r.2 ps).map fun q => (r.1 :: q.1, q.2) := by
  rw [terms]
  cases term bs p <;> rfl

theorem terms_filtered {bs bs' : Bindings} {ps : List Predicate} {ts : List FilterTerm}
    (h : terms bs ps = .ok (ts, bs')) : Filtered bs ps ts bs' := by
  induction ps generalizing bs ts with
  | nil =>
    obtain ⟨rfl, rfl⟩ : [] = ts ∧ bs = bs' := by simpa [terms] using h
    exact .nil
  | cons p ps ih =>
    rw [terms_cons, term_eq] at h
    obtain ⟨t, ht, h⟩ := bind_ok h
    obtain ⟨r, hr, he⟩ := map_ok h
    obtain ⟨column, hc, rfl⟩ := map_ok ht
    obtain ⟨rfl, rfl⟩ := Prod.mk.inj he
    by_cases hn : p.asksNull = true
    · rw [if_pos hn] at hr ⊢
      exact .null hc hn (ih hr)
    · rw [if_neg hn] at hr ⊢
      exact .value hc (by simpa using hn) (ih hr)

namespace Filtered

variable {bs bs' : Bindings} {ps : List Predicate} {ts : List FilterTerm}

/-- A filter adds a binding for each of its placeholders, in their order, with the values of the
predicates that do not ask for null. -/
theorem extends_bindings (h : Filtered bs ps ts bs') : ∃ new : Bindings, bs' = bs ++ new ∧
    new.names = ts.filterMap FilterTerm.placeholder? ∧
    new.map Binding.value = Predicate.boundValues ps ∧ ∀ b ∈ new, b.clause = .filter := by
  induction h with
  | nil => exact ⟨[], by simp [Bindings.names, Predicate.boundValues]⟩
  | null hc hn _ ih =>
    obtain ⟨new, rfl, hnames, hvalues, hclause⟩ := ih
    refine ⟨new, rfl, ?_, hvalues.trans (Predicate.boundValues_null hn _).symm, hclause⟩
    rw [hnames, List.filterMap_cons, FilterTerm.placeholder?_nullTest]
  | @value bs _ p _ column _ hc hn _ ih =>
    obtain ⟨new, rfl, hnames, hvalues, hclause⟩ := ih
    let b : Binding := ⟨nextName bs .filter column, .filter, Value.ofLiteral p.value⟩
    refine ⟨b :: new, by simp [b], ?_, ?_, ?_⟩
    · rw [List.filterMap_cons, ← hnames]
      rfl
    · rw [Predicate.boundValues_value hn, ← hvalues]
      rfl
    · intro c hc
      rcases List.mem_cons.mp hc with rfl | hc
      · rfl
      · exact hclause c hc

theorem nodup (h : Filtered bs ps ts bs') (hn : bs.names.Nodup) : bs'.names.Nodup := by
  induction h with
  | nil => exact hn
  | null _ _ _ ih => exact ih hn
  | value _ _ _ ih => exact ih (Bindings.register_nodup hn ..)

theorem length_eq (h : Filtered bs ps ts bs') : ts.length = ps.length := by
  induction h with
  | nil => rfl
  | null _ _ _ ih => simp [ih]
  | value _ _ _ ih => simp [ih]

theorem ne_nil (h : Filtered bs ps ts bs') (hp : ps ≠ []) : ts ≠ [] := by
  cases h with
  | nil => exact absurd rfl hp
  | null => simp
  | value => simp

end Filtered

/-- How the values of columns are bound for a clause, each under a name of its own. -/
inductive Assigned (clause : Clause) :
    Bindings → List (Text × Value) → List (Identifier × Text) → Bindings → Prop
  | nil {bs : Bindings} : Assigned clause bs [] [] bs
  | cons {bs bs' : Bindings} {c : Text} {v : Value} {rest : List (Text × Value)}
      {column : Identifier} {columns : List (Identifier × Text)} :
      Role.column.read c = .ok column →
      Assigned clause (bs ++ [⟨nextName bs clause column, clause, v⟩]) rest columns bs' →
      Assigned clause bs ((c, v) :: rest) ((column, nextName bs clause column) :: columns) bs'

theorem bindColumns_cons (clause : Clause) (bs : Bindings) (c : Text) (v : Value)
    (rest : List (Text × Value)) :
    bindColumns clause bs ((c, v) :: rest) = Role.column.read c >>= fun column =>
      (bindColumns clause (bs ++ [⟨nextName bs clause column, clause, v⟩]) rest).map fun r =>
        ((column, nextName bs clause column) :: r.1, r.2) := by
  rw [bindColumns]
  cases Role.column.read c <;> rfl

theorem bindColumns_assigned {clause : Clause} {bs bs' : Bindings} {values : List (Text × Value)}
    {columns : List (Identifier × Text)} (h : bindColumns clause bs values = .ok (columns, bs')) :
    Assigned clause bs values columns bs' := by
  induction values generalizing bs columns with
  | nil =>
    obtain ⟨rfl, rfl⟩ : [] = columns ∧ bs = bs' := by simpa [bindColumns] using h
    exact .nil
  | cons value values ih =>
    obtain ⟨c, v⟩ := value
    rw [bindColumns_cons] at h
    obtain ⟨column, hc, h⟩ := bind_ok h
    obtain ⟨r, hr, he⟩ := map_ok h
    obtain ⟨rfl, rfl⟩ := Prod.mk.inj he
    exact .cons hc (ih hr)

namespace Assigned

variable {clause : Clause} {bs bs' : Bindings} {values : List (Text × Value)}
  {columns : List (Identifier × Text)}

/-- Columns add a binding each, in their order. -/
theorem extends_bindings (h : Assigned clause bs values columns bs') : ∃ new : Bindings,
    bs' = bs ++ new ∧ new.names = columns.map Prod.snd ∧
    new.map Binding.value = values.map Prod.snd := by
  induction h with
  | nil => exact ⟨[], by simp [Bindings.names]⟩
  | @cons bs _ c v _ column _ hc _ ih =>
    obtain ⟨new, rfl, hnames, hvalues⟩ := ih
    let b : Binding := ⟨nextName bs clause column, clause, v⟩
    refine ⟨b :: new, by simp [b], ?_, by simp [b, hvalues]⟩
    rw [List.map_cons, ← hnames]
    rfl

theorem nodup (h : Assigned clause bs values columns bs') (hn : bs.names.Nodup) :
    bs'.names.Nodup := by
  induction h with
  | nil => exact hn
  | cons _ _ ih => exact ih (Bindings.register_nodup hn ..)

theorem ne_nil (h : Assigned clause bs values columns bs') (hv : values ≠ []) : columns ≠ [] := by
  cases h with
  | nil => exact absurd rfl hv
  | cons => simp

theorem columns_read (h : Assigned clause bs values columns bs') :
    List.Forall₂ (fun value column => Role.column.read value.1 = .ok column) values
      (columns.map Prod.fst) := by
  induction h with
  | nil => exact .nil
  | cons hc _ ih => exact .cons hc ih

theorem column_read (h : Assigned clause bs values columns bs') :
    ∀ value ∈ values, ∃ column, Role.column.read value.1 = .ok column := by
  induction h with
  | nil => simp
  | cons hc _ ih => exact List.forall_mem_cons.mpr ⟨⟨_, hc⟩, ih⟩

end Assigned

/-- Columns are bound if all of their names can be read. -/
theorem bindColumns_builds (clause : Clause) (bs : Bindings) {values : List (Text × Value)}
    (h : ∀ value ∈ values, ∃ column, Role.column.read value.1 = .ok column) :
    ∃ r, bindColumns clause bs values = .ok r := by
  induction values generalizing bs with
  | nil => exact ⟨_, rfl⟩
  | cons value values ih =>
    obtain ⟨⟨column, hc⟩, hrest⟩ := List.forall_mem_cons.mp h
    obtain ⟨r, hr⟩ := ih (bs ++ [⟨nextName bs clause column, clause, value.2⟩]) hrest
    refine ⟨((column, nextName bs clause column) :: r.1, r.2), ?_⟩
    rw [bindColumns_cons, hc]
    change (bindColumns clause _ values).map _ = _
    rw [hr]
    rfl

end Session

end FluentSql
