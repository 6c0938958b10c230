import FluentSql.Proofs.Binding.Labels
import FluentSql.Proofs.Session.Drafts

namespace FluentSql

open Condition (Predicate)

/-- Predicates that differ in their values only, and not in whether these are null. -/
structure Condition.Predicate.Alike (p q : Predicate) : Prop where
  column : p.column = q.column
  op : p.op = q.op
  isNull : (Value.ofLiteral p.value).isNull = (Value.ofLiteral q.value).isNull

theorem Condition.Predicate.Alike.refl (p : Predicate) : p.Alike p := ⟨rfl, rfl, rfl⟩

/-- Calls that are the same, or filter by conditions that are both rejected or read alike. -/
inductive Call.Alike (policy : MalformedPolicy) : Call → Call → Prop
  | filter {c d : Text} :
      Agree (List.Forall₂ Predicate.Alike) (Session.readCondition policy c).1
        (Session.readCondition policy d).1 → Alike policy (.filter c) (.filter d)
  | same (c : Call) : Alike policy c c

/-- Commands that differ in the values of their columns only. -/
inductive Command.Alike : Command → Command → Prop
  | insert {vs ws : List (Text × Value)} : vs.map Prod.fst = ws.map Prod.fst →
      Alike (.insert vs) (.insert ws)
  | update {vs ws : List (Text × Value)} : vs.map Prod.fst = ws.map Prod.fst →
      Alike (.update vs) (.update ws)
  | same (c : Command) : Alike c c

/-- Statements that differ in their values only. -/
structure Statement.Alike (t u : Statement) : Prop where
  tag : t.tag = u.tag
  namedSql : t.namedSql = u.namedSql
  sql : t.compiled.sql = u.compiled.sql
  names : t.compiled.names = u.compiled.names

namespace Session

/-- Sessions that differ in the values that they bind only, and in why they failed. -/
inductive Alike (s : Session) : Session → Prop
  | intro {bs : Bindings} {fault : Option Error} : s.bindings.labels = bs.labels →
      s.fault.isSome = fault.isSome → Alike s { s with bindings := bs, fault := fault }

theorem Alike.refl (s : Session) : s.Alike s := .intro rfl rfl

theorem fail_alike {s t : Session} (h : s.Alike t) (e f : Error) : (s.fail e).Alike (t.fail f) := by
  obtain ⟨hl, _⟩ := h
  exact .intro hl (by simp [fail])

variable {bs cs : Bindings}

/-- Terms that are alike, with bindings that are. -/
def SameTerms {α : Type} (r q : α × Bindings) : Prop := r.1 = q.1 ∧ r.2.labels = q.2.labels

theorem nextName_congr (h : bs.labels = cs.labels) (clause : Clause) (column : Identifier) :
    nextName bs clause column = nextName cs clause column :=
  Bindings.freshName_congr (Bindings.names_of_labels h) _

theorem term_alike (h : bs.labels = cs.labels) {p q : Predicate} (hp : p.Alike q) :
    Agree SameTerms (term bs p) (term cs q) := by
  obtain ⟨c, op, v⟩ := p
  obtain ⟨_, _, w⟩ := q
  obtain ⟨rfl, rfl, hn⟩ := hp
  have hasks : Predicate.asksNull ⟨c, op, v⟩ = Predicate.asksNull ⟨c, op, w⟩ :=
    congrArg ([Comparison.eq, .ne, .ltgt].contains op && ·) hn
  rw [term_eq, term_eq, hasks]
  refine (Agree.refl (fun _ => rfl) _).map fun column _ he => ?_
  subst he
  have hname := nextName_congr h .filter column
  split_ifs
  · exact ⟨rfl, h⟩
  · rw [hname]
    exact ⟨rfl, Bindings.labels_concat h rfl⟩

theorem terms_alike {ps qs : List Predicate} (hp : List.Forall₂ Predicate.Alike ps qs)
    (h : bs.labels = cs.labels) : Agree SameTerms (terms bs ps) (terms cs qs) := by
  induction hp generalizing bs cs with
  | nil => exact .ok ⟨rfl, h⟩
  | cons hpq _ ih =>
    rw [terms_cons, terms_cons]
    refine (term_alike h hpq).bind fun r q hr => ?_
    refine (ih hr.2).map fun r' q' hr' => ?_
    exact ⟨congrArg₂ List.cons hr.1 hr'.1, hr'.2⟩

theorem bindColumns_alike {clause : Clause} {vs ws : List (Text × Value)}
    (hv : vs.map Prod.fst = ws.map Prod.fst) (h : bs.labels = cs.labels) :
    Agree SameTerms (bindColumns clause bs vs) (bindColumns clause cs ws) := by
  induction vs generalizing bs cs ws with
  | nil =>
    cases ws with
    | nil => exact .ok ⟨rfl, h⟩
    | cons w ws => simp at hv
  | cons v vs ih =>
    cases ws with
    | nil => simp at hv
    | cons w ws =>
      obtain ⟨c, v⟩ := v
      obtain ⟨_, w⟩ := w
      obtain ⟨rfl, hrest⟩ := List.cons.inj hv
      rw [bindColumns_cons, bindColumns_cons]
      refine (Agree.refl (fun _ => rfl) _).bind fun column _ he => ?_
      subst he
      rw [nextName_congr h clause column]
      have hl : Bindings.labels (bs ++ [⟨nextName cs clause column, clause, v⟩]) =
          Bindings.labels (cs ++ [⟨nextName cs clause column, clause, w⟩]) :=
        Bindings.labels_concat h rfl
      refine (ih hrest hl).map fun r q hr => ?_
      exact ⟨congrArg (List.cons _) hr.1, hr.2⟩

theorem clear_alike {s t : Session} (h : s.Alike t) :
    Alike { s with filter := [], bindings := s.bindings.removeClause .filter }
      { t with filter := [], bindings := t.bindings.removeClause .filter } := by
  obtain ⟨hl, hf⟩ := h
  exact .intro (s := { s with filter := [], bindings := s.bindings.removeClause .filter })
    (Bindings.labels_removeClause hl .filter) hf

theorem setFilter_alike {s t : Session} (h : s.Alike t) {c d : Text}
    (hc : Agree (List.Forall₂ Predicate.Alike) (readCondition s.config.malformed c).1
      (readCondition s.config.malformed d).1) :
    (s.setFilter c).1.Alike (t.setFilter d).1 := by
  have hcleared := clear_alike h
  obtain ⟨hl, hf⟩ := h
  have hkept := Bindings.labels_removeClause hl .filter
  unfold setFilter
  dsimp only
  generalize (readCondition s.config.malformed c).1 = r at hc ⊢
  generalize (readCondition s.config.malformed d).1 = q at hc ⊢
  cases hc with
  | error => exact fail_alike hcleared _ _
  | @ok ps qs hpq =>
    dsimp only
    have hterms := terms_alike hpq hkept
    revert hterms
    generalize terms (s.bindings.removeClause .filter) ps = r
    generalize terms (Bindings.removeClause _ .filter) qs = q
    intro hterms
    cases hterms with
    | error => exact fail_alike hcleared _ _
    | @ok r q hr =>
      obtain ⟨filter, new⟩ := r
      obtain ⟨_, _⟩ := q
      obtain ⟨rfl, hl⟩ := hr
      exact .intro (s := { s with filter := filter, bindings := new }) hl hf

/-- A call that reads no condition does the same to both sessions. -/
theorem apply_same_alike {s t : Session} (h : s.Alike t) (c : Call) (hc : c.condition? = none) :
    (s.apply c).1.Alike (t.apply c).1 := by
  obtain ⟨hl, hf⟩ := h
  cases c with
  | filter => simp [Call.condition?] at hc
  | retarget table => exact .refl _
  | groupBy columns =>
    dsimp only [apply]
    unfold setGroupBy
    cases Column.readAll columns with
    | ok cs => exact .intro (s := { s with groupBy := cs }) hl hf
    | error e => exact fail_alike (.intro hl hf) e e
  | orderBy columns =>
    dsimp only [apply]
    unfold setOrderBy
    cases readOrder columns with
    | ok terms => exact .intro (s := { s with orderBy := terms }) hl hf
    | error e => exact fail_alike (.intro hl hf) e e
  | limit count page =>
    dsimp only [apply]
    unfold setLimit
    cases page with
    | none => exact .intro (s := { s with limit := some count }) hl hf
    | some p =>
      dsimp only
      split_ifs
      · exact .intro (s := { s with
          limit := some count, offset := some (min maxOffset ((p - 1) * count)) }) hl hf
      · exact .intro (s := { s with limit := some count }) hl hf
  | offset rows => exact .intro (s := { s with offset := some rows }) hl hf
  | primaryKey column =>
    dsimp only [apply]
    unfold setPrimaryKey
    cases Role.primaryKey.read column with
    | ok name => exact .intro (s := { s with primaryKey := some name }) hl hf
    | error e => exact fail_alike (.intro hl hf) e e
  | allowUnfiltered allow => exact .intro (s := { s with unfiltered := some allow }) hl hf

/-- Alike calls keep sessions alike. -/
theorem apply_alike {s t : Session} (h : s.Alike t) {c d : Call}
    (hc : c.Alike s.config.malformed d) : (s.apply c).1.Alike (t.apply d).1 := by
  cases hc with
  | filter hcondition => exact setFilter_alike h hcondition
  | same =>
    cases hcondition : c.condition? with
    | none => exact apply_same_alike h c hcondition
    | some condition =>
      cases c with
      | filter condition =>
        refine setFilter_alike h (Agree.refl (fun ps => ?_) _)
        exact List.forall₂_same.mpr fun p _ => .refl p
      | _ => simp [Call.condition?] at hcondition

theorem start_config (config : QueryConfig) (table : Text) :
    (start config table).config = config := by
  unfold start
  split <;> rfl

theorem setFilter_config (s : Session) (condition : Text) :
    (s.setFilter condition).1.config = s.config := by
  unfold setFilter
  dsimp only
  split
  · rfl
  · split <;> rfl

theorem apply_config (s : Session) (c : Call) : (s.apply c).1.config = s.config := by
  cases c with
  | retarget table => exact start_config s.config table
  | filter condition => exact s.setFilter_config condition
  | allowUnfiltered allow => rfl
  | _ => exact (s.apply_keepsFilter _ rfl rfl rfl).config

/-- Runs of alike calls end in alike sessions. -/
theorem run_alike {s t : Session} (h : s.Alike t) {calls others : List Call}
    (hc : List.Forall₂ (Call.Alike s.config.malformed) calls others) :
    (s.run calls).Alike (t.run others) := by
  generalize hp : s.config.malformed = policy at hc
  induction hc generalizing s t with
  | nil => exact h
  | @cons c d _ _ hcd _ ih =>
    have hstep := apply_alike h (hp ▸ hcd)
    exact ih hstep (by rw [apply_config, hp])

theorem target_alike {s t : Session} (h : s.Alike t) : Agree (· = ·) s.target t.target := by
  obtain ⟨_, hf⟩ := h
  unfold target
  cases hs : s.fault with
  | some e =>
    rw [hs] at hf
    obtain ⟨f, rfl⟩ := Option.isSome_iff_exists.mp hf.symm
    exact .error
  | none =>
    rw [hs] at hf
    obtain rfl := Option.isNone_iff_eq_none.mp (Option.isSome_eq_false_iff.mp hf.symm)
    cases s.table with
    | some table => exact .ok rfl
    | none => exact .error

theorem finish_alike (h : bs.labels = cs.labels) (tag sql : Text) :
    Agree Statement.Alike (finish tag sql bs) (finish tag sql cs) := by
  have hcompile := Bindings.compile_congr (Bindings.names_of_labels h) sql
  unfold finish
  generalize bs.compile sql = r at hcompile ⊢
  generalize cs.compile sql = q at hcompile ⊢
  cases hcompile with
  | error => exact .error
  | ok hc => exact .ok ⟨rfl, rfl, hc.1, hc.2⟩

theorem select_alike {s t : Session} (h : s.Alike t) (columns : List Text) :
    Agree Statement.Alike (s.select columns) (t.select columns) := by
  refine (target_alike h).bind fun table _ he => ?_
  obtain ⟨hl, _⟩ := h
  subst he
  refine (Agree.refl (fun _ => rfl) _).bind fun cs _ he => ?_
  subst he
  exact finish_alike hl _ _

theorem single_alike {s t : Session} (h : s.Alike t) : s.single.Alike t.single := by
  obtain ⟨hl, hf⟩ := h
  unfold single
  dsimp only
  split_ifs
  · exact .intro (s := { s with limit := some 1 }) hl hf
  · exact .intro hl hf

theorem insert_alike {s t : Session} (h : s.Alike t) {vs ws : List (Text × Value)}
    (hv : vs.map Prod.fst = ws.map Prod.fst) :
    Agree Statement.Alike (s.insert vs) (t.insert ws) := by
  refine (target_alike h).bind fun table _ he => ?_
  obtain ⟨hl, _⟩ := h
  subst he
  have hempty : vs.isEmpty = ws.isEmpty := by
    simpa using congrArg List.isEmpty hv
  rw [hempty]
  split_ifs
  · exact .error
  · refine (bindColumns_alike hv hl).bind fun r q hr => ?_
    obtain ⟨columns, bs⟩ := r
    obtain ⟨_, cs⟩ := q
    obtain ⟨rfl, hb⟩ := hr
    exact finish_alike hb _ _

theorem guarded_alike {s t : Session} (h : s.Alike t) (write : Write) (table : Identifier)
    {x y : Except Error Statement} (hx : Agree Statement.Alike x y) :
    Agree Statement.Alike (s.guarded write table x).result (t.guarded write table y).result := by
  have hguard : t.guard write table = s.guard write table := by
    obtain ⟨_, _⟩ := h
    rfl
  unfold guarded
  rw [hguard]
  cases s.guard write table with
  | error e => exact .error
  | ok events => exact hx

theorem update_alike {s t : Session} (h : s.Alike t) {vs ws : List (Text × Value)}
    (hv : vs.map Prod.fst = ws.map Prod.fst) :
    Agree Statement.Alike (s.update vs).result (t.update ws).result := by
  have htarget := target_alike h
  have hempty : vs.isEmpty = ws.isEmpty := by
    simpa using congrArg List.isEmpty hv
  unfold update
  generalize s.target = x at htarget ⊢
  generalize t.target = y at htarget ⊢
  cases htarget with
  | error => exact .error
  | @ok table _ he =>
    subst he
    dsimp only
    rw [hempty]
    split_ifs
    · exact .error
    · refine guarded_alike h .update table ?_
      obtain ⟨hl, _⟩ := h
      refine (bindColumns_alike hv hl).bind fun r q hr => ?_
      obtain ⟨columns, bs⟩ := r
      obtain ⟨_, cs⟩ := q
      obtain ⟨rfl, hb⟩ := hr
      exact finish_alike hb _ _

theorem delete_alike {s t : Session} (h : s.Alike t) :
    Agree Statement.Alike s.delete.result t.delete.result := by
  have htarget := target_alike h
  unfold delete
  generalize s.target = x at htarget ⊢
  generalize t.target = y at htarget ⊢
  cases htarget with
  | error => exact .error
  | @ok table _ he =>
    subst he
    refine guarded_alike h .delete table ?_
    obtain ⟨hl, _⟩ := h
    exact finish_alike hl _ _

theorem aggregate_alike {s t : Session} (h : s.Alike t) (f : Aggregate) (column : Option Text) :
    Agree Statement.Alike (s.aggregate f column) (t.aggregate f column) := by
  rw [aggregate_eq, aggregate_eq]
  refine (target_alike h).bind fun table _ he => ?_
  obtain ⟨hl, _⟩ := h
  subst he
  refine (Agree.refl (fun _ => rfl) _).bind fun c _ he => ?_
  subst he
  exact finish_alike hl _ _

/-- Alike commands of alike sessions make alike statements, or both make none. -/
theorem draft_alike {s t : Session} (h : s.Alike t) {c d : Command} (hc : c.Alike d) :
    Agree Statement.Alike (s.draft c).result (t.draft d).result := by
  cases hc with
  | insert hv => exact insert_alike h hv
  | update hv => exact update_alike h hv
  | same =>
    cases c with
    | select columns => exact select_alike h columns
    | selectOne columns =>
      have hone := select_alike (single_alike h) columns
      rwa [← selectOne_eq, ← selectOne_eq] at hone
    | insert values => exact insert_alike h rfl
    | update values => exact update_alike h rfl
    | delete => exact delete_alike h
    | aggregate f column => exact aggregate_alike h f column

/-- No value has an influence on the text of a statement: two runs that differ in values only, and
not in which of them a condition takes for null, make statements that differ in their parameters
only, or both make none. -/
theorem text_independent (config : QueryConfig) (table : Text) {calls others : List Call}
    {command other : Command} (hc : List.Forall₂ (Call.Alike config.malformed) calls others)
    (ho : command.Alike other) :
    Agree Statement.Alike (((start config table).run calls).draft command).result
      (((start config table).run others).draft other).result := by
  have hcalls : List.Forall₂ (Call.Alike (start config table).config.malformed) calls others := by
    rwa [start_config]
  exact draft_alike (run_alike (.refl _) hcalls) ho

theorem text_independent_update :
    let run := fun condition : String =>
      (start {} "users".toList).run [.filter condition.toList, .limit 5 none]
    let x := (run "a = 1, b = null").draft (.update [("c".toList, .bool true)])
    let y := (run "a = '2 OR 1 = 1; --', b = NULL").draft (.update [("c".toList, .null)])
    ∃ t u, x.result = .ok t ∧ y.result = .ok u ∧ t.Alike u := by
  intro run x y
  obtain ⟨t, ht⟩ : ∃ t, x.result = .ok t := ⟨_, rfl⟩
  obtain ⟨u, hu⟩ : ∃ u, y.result = .ok u := ⟨_, rfl⟩
  have hread : Agree (List.Forall₂ Predicate.Alike)
      (readCondition .reject "a = 1, b = null".toList).1
      (readCondition .reject "a = '2 OR 1 = 1; --', b = NULL".toList).1 :=
    .ok (.cons ⟨rfl, rfl, rfl⟩ (.cons ⟨rfl, rfl, rfl⟩ .nil))
  have hxy : Agree Statement.Alike x.result y.result :=
    text_independent {} "users".toList (.cons (.filter hread) (.cons (.same _) .nil)) (.update rfl)
  rw [ht, hu] at hxy
  cases hxy with
  | ok h => exact ⟨t, u, ht, hu, h⟩

end Session

end FluentSql
