import FluentSql.Proofs.Session.History

namespace FluentSql

/-- A term whose column needs no quotes and whose placeholder is a word. -/
structure FilterTerm.WellNamed (t : FilterTerm) : Prop where
  column : t.column.IsPlain
  placeholder : ∀ m ∈ t.placeholder?, Statement.IsNamed m

def Column.IsPlain : Column → Prop
  | .all => True
  | .named i => i.IsPlain

theorem Column.read_plain {raw : Text} {c : Column} (h : Column.read raw = .ok c) : c.IsPlain := by
  unfold Column.read at h
  split_ifs at h with ha
  · obtain rfl : Column.all = c := by simpa using h
    trivial
  · obtain ⟨i, hi, rfl⟩ := map_ok h
    exact Role.read_plain hi

theorem Column.readAll_plain {raws : List Text} {cs : List Column}
    (h : Column.readAll raws = .ok cs) : ∀ c ∈ cs, c.IsPlain := by
  induction raws generalizing cs with
  | nil =>
    obtain rfl : [] = cs := by simpa [Column.readAll] using h
    simp
  | cons raw raws ih =>
    rw [Column.readAll] at h
    split at h
    · simp at h
    · next c hc =>
      obtain ⟨rest, hr, rfl⟩ := map_ok h
      intro d hd
      rcases List.mem_cons.mp hd with rfl | hd
      · exact Column.read_plain hc
      · exact ih hr d hd

namespace Session

open Condition (Predicate)

theorem readOrder_plain {columns : List (Text × Direction)} {terms : List (Identifier × Direction)}
    (h : readOrder columns = .ok terms) : ∀ o ∈ terms, o.1.IsPlain := by
  induction columns generalizing terms with
  | nil =>
    obtain rfl : [] = terms := by simpa [readOrder] using h
    simp
  | cons column columns ih =>
    obtain ⟨c, d⟩ := column
    rw [readOrder] at h
    split at h
    · simp at h
    · next i hi =>
      obtain ⟨rest, hr, rfl⟩ := map_ok h
      intro o ho
      rcases List.mem_cons.mp ho with rfl | ho
      · exact Role.read_plain hi
      · exact ih hr o ho

theorem Filtered.wellNamed {bs bs' : Bindings} {ps : List Predicate} {ts : List FilterTerm}
    (h : Filtered bs ps ts bs') : ∀ t ∈ ts, t.WellNamed := by
  induction h with
  | nil => simp
  | @null _ _ p _ column _ hc _ _ ih =>
    intro t ht
    rcases List.mem_cons.mp ht with rfl | ht
    · refine ⟨Role.read_plain hc, fun m hm => ?_⟩
      simp [FilterTerm.placeholder?_nullTest] at hm
    · exact ih t ht
  | @value bs _ p _ column _ hc _ _ ih =>
    have hplain := Role.read_plain hc
    intro t ht
    rcases List.mem_cons.mp ht with rfl | ht
    · refine ⟨hplain, fun m hm => ?_⟩
      obtain rfl : nextName bs .filter column = m := by simpa [FilterTerm.placeholder?] using hm
      exact Bindings.freshName_named bs .filter (Identifier.seed_word hplain)
    · exact ih t ht

/-- Columns that need no quotes, with placeholders that are words. -/
def NamedColumns (columns : List (Identifier × Text)) : Prop :=
  ∀ c ∈ columns, c.1.IsPlain ∧ Statement.IsNamed c.2

theorem NamedColumns.plain {columns : List (Identifier × Text)} (h : NamedColumns columns) :
    ∀ i ∈ columns.map Prod.fst, i.IsPlain := by
  intro i hi
  obtain ⟨c, hc, rfl⟩ := List.mem_map.mp hi
  exact (h c hc).1

theorem NamedColumns.named {columns : List (Identifier × Text)} (h : NamedColumns columns) :
    ∀ m ∈ columns.map Prod.snd, Statement.IsNamed m := by
  intro m hm
  obtain ⟨c, hc, rfl⟩ := List.mem_map.mp hm
  exact (h c hc).2

theorem Assigned.namedColumns {clause : Clause} {bs bs' : Bindings} {values : List (Text × Value)}
    {columns : List (Identifier × Text)} (h : Assigned clause bs values columns bs') :
    NamedColumns columns := by
  induction h with
  | nil => simp [NamedColumns]
  | @cons bs _ _ _ _ column _ hc _ ih =>
    have hplain := Role.read_plain hc
    intro d hd
    rcases List.mem_cons.mp hd with rfl | hd
    · exact ⟨hplain, Bindings.freshName_named bs clause (Identifier.seed_word hplain)⟩
    · exact ih d hd

/-- A session in which every name that was given is plain. -/
structure WellNamed (s : Session) : Prop where
  table : ∀ i ∈ s.table, i.IsPlain
  filter : ∀ t ∈ s.filter, t.WellNamed
  groupBy : ∀ c ∈ s.groupBy, c.IsPlain
  orderBy : ∀ o ∈ s.orderBy, o.1.IsPlain
  primaryKey : ∀ i ∈ s.primaryKey, i.IsPlain

theorem start_wellNamed (config : QueryConfig) (table : Text) :
    (start config table).WellNamed := by
  unfold start
  split
  · next name hn =>
    refine ⟨fun i hi => ?_, by simp, by simp, by simp, by simp⟩
    obtain rfl : name = i := by simpa using hi
    exact Role.read_plain hn
  · exact ⟨by simp, by simp, by simp, by simp, by simp⟩

theorem WellNamed.fail {s : Session} (h : s.WellNamed) (e : Error) : (s.fail e).WellNamed :=
  ⟨h.table, h.filter, h.groupBy, h.orderBy, h.primaryKey⟩

theorem WellNamed.setFilter {s : Session} (h : s.WellNamed) (condition : Text) :
    (s.setFilter condition).1.WellNamed := by
  have hcleared : WellNamed { s with
      filter := [], bindings := s.bindings.removeClause .filter } :=
    ⟨h.table, by simp, h.groupBy, h.orderBy, h.primaryKey⟩
  rcases s.setFilter_cases condition with ⟨e, he⟩ | ⟨ps, ts, bs, -, hfiltered, he⟩
  · rw [he]
    exact hcleared.fail e
  · rw [he]
    exact ⟨h.table, hfiltered.wellNamed, h.groupBy, h.orderBy, h.primaryKey⟩

theorem WellNamed.setLimit {s : Session} (h : s.WellNamed) (count : Nat) (page : Option Nat) :
    (s.setLimit count page).WellNamed := by
  unfold Session.setLimit
  split
  · split_ifs <;> exact ⟨h.table, h.filter, h.groupBy, h.orderBy, h.primaryKey⟩
  · exact ⟨h.table, h.filter, h.groupBy, h.orderBy, h.primaryKey⟩

/-- No fluent call brings a name into a session that is not plain. -/
theorem WellNamed.apply {s : Session} (h : s.WellNamed) (c : Call) : (s.apply c).1.WellNamed := by
  cases c with
  | retarget table => exact start_wellNamed s.config table
  | filter condition => exact h.setFilter condition
  | groupBy columns =>
    change (s.setGroupBy columns).WellNamed
    unfold setGroupBy
    split
    · next cs hcs => exact ⟨h.table, h.filter, Column.readAll_plain hcs, h.orderBy, h.primaryKey⟩
    · exact h.fail _
  | orderBy columns =>
    change (s.setOrderBy columns).WellNamed
    unfold setOrderBy
    split
    · next terms ht => exact ⟨h.table, h.filter, h.groupBy, readOrder_plain ht, h.primaryKey⟩
    · exact h.fail _
  | limit count page => exact h.setLimit count page
  | offset rows => exact ⟨h.table, h.filter, h.groupBy, h.orderBy, h.primaryKey⟩
  | primaryKey column =>
    change (s.setPrimaryKey column).WellNamed
    unfold setPrimaryKey
    split
    · next name hn =>
      refine ⟨h.table, h.filter, h.groupBy, h.orderBy, fun i hi => ?_⟩
      obtain rfl : name = i := by simpa using hi
      exact Role.read_plain hn
    · exact h.fail _
  | allowUnfiltered allow => exact ⟨h.table, h.filter, h.groupBy, h.orderBy, h.primaryKey⟩

theorem run_wellNamed (config : QueryConfig) (table : Text) (calls : List Call) :
    ((start config table).run calls).WellNamed := by
  induction calls using List.reverseRecOn with
  | nil => exact start_wellNamed config table
  | append_singleton calls c ih =>
    rw [run_concat]
    exact ih.apply c

end Session

end FluentSql
