import FluentSql.Proofs.Binding.Rewriting
import FluentSql.Proofs.Session.Failure
import FluentSql.Proofs.Session.Values

namespace FluentSql

open Condition (Predicate)
open Statement

/-- A statement whose placeholders are all bound can be compiled. -/
theorem Statement.Written.compiles {bs : Bindings} {sql : Text} {ms : List Text}
    (hw : Written IsNamed sql ms) (hm : ∀ m ∈ ms, m ∈ bs.names) :
    ∃ c, bs.compile sql = .ok c := by
  refine (Bindings.compile_ok_iff bs sql).mpr fun pre n ho => hm _ ?_
  rw [hw.occurrences_eq]
  exact List.mem_map.mpr ⟨n, Placeholder.mem_occurrences.mpr ⟨pre, ho⟩, rfl⟩

namespace Session

variable {s : Session} {ps : List Predicate} {table : Identifier}

/-- The filter as statements have it, every value at its number. -/
def sentFilter (s : Session) : Text := s.bindings.write s.whereClause

/-- The values of the filter as they are sent. -/
def sentValues (s : Session) : List Value := s.bindings.map fun b => b.value.sanitized

/-- How a write picks its rows: by the filter alone, or, where there are bounds, as the rows that
the filter and the bounds select. -/
def sentRows (s : Session) (table : Identifier) : Text := rowsOf table s.sentFilter s.bounds

theorem Reads.sentFilter_eq (h : s.Reads ps) : s.sentFilter = Predicate.numberedWhere ps := by
  have hwhere := h.write_whereClause []
  rwa [List.append_nil] at hwhere

theorem Reads.sentRows_eq (h : s.Reads ps) (table : Identifier) :
    s.sentRows table = s.numberedFilter table ps := by
  rw [sentRows, numberedFilter, h.sentFilter_eq]

theorem Reads.sentValues_eq (h : s.Reads ps) :
    s.sentValues = (Predicate.boundValues ps).map Value.sanitized := by
  rw [← h.values_eq, List.map_map]
  rfl

/-- A call other than a retarget leaves the table as it is. -/
theorem apply_table (s : Session) {c : Call} (h : c.isRetarget = false) :
    (s.apply c).1.table = s.table := by
  cases c with
  | retarget => simp [Call.isRetarget] at h
  | filter condition =>
    change (s.setFilter condition).1.table = s.table
    rcases s.setFilter_cases condition with ⟨e, he⟩ | ⟨ps, ts, bs, -, -, he⟩
    · rw [he]
      rfl
    · rw [he]
  | groupBy columns =>
    change (s.setGroupBy columns).table = s.table
    unfold setGroupBy
    split <;> rfl
  | orderBy columns =>
    change (s.setOrderBy columns).table = s.table
    unfold setOrderBy
    split <;> rfl
  | limit count page =>
    change (s.setLimit count page).table = s.table
    unfold setLimit
    split
    · split_ifs <;> rfl
    · rfl
  | offset rows => rfl
  | primaryKey column =>
    change (s.setPrimaryKey column).table = s.table
    unfold setPrimaryKey
    split <;> rfl
  | allowUnfiltered allow => rfl

/-- A session that has not failed has a table. -/
theorem run_target (config : QueryConfig) (table : Text) (calls : List Call)
    (hf : ((start config table).run calls).fault = none) :
    ∃ target, ((start config table).run calls).target = .ok target := by
  have hstart (config : QueryConfig) (table : Text) (h : (start config table).fault = none) :
      ∃ target, (start config table).table = some target := by
    unfold start at h ⊢
    split at h
    · exact ⟨_, rfl⟩
    · cases h
  suffices htable : ∃ target, ((start config table).run calls).table = some target by
    obtain ⟨target, ht⟩ := htable
    refine ⟨target, ?_⟩
    rw [Session.target, hf, ht]
  induction calls using List.reverseRecOn with
  | nil => exact hstart config table hf
  | append_singleton calls c ih =>
    rw [run_concat] at hf ⊢
    cases hr : c.isRetarget with
    | true =>
      cases c with
      | retarget again => exact hstart _ again hf
      | _ => simp [Call.isRetarget] at hr
    | false =>
      rw [apply_fault, hr] at hf
      rw [apply_table _ hr]
      exact ih (Option.or_eq_none_iff.mp hf).1

/-- The statements of a session name their rows by one filter, with the same values at the same
numbers. -/
structure SameRows (s : Session) (table : Identifier) : Prop where
  select : ∃ t, (s.draft (.select [])).result = .ok t ∧
    t.compiled.sql = "SELECT * FROM ".toList ++ table.toSql ++ s.sentFilter ++ s.bounds ∧
    t.compiled.params = s.sentValues
  delete : ∀ t, (s.draft .delete).result = .ok t →
    t.compiled.sql = "DELETE FROM ".toList ++ table.toSql ++ s.sentRows table ∧
    t.compiled.params = s.sentValues
  update : ∀ values t, (s.draft (.update values)).result = .ok t → ∃ columns,
    List.Forall₂ (fun value column => Role.column.read value.1 = .ok column) values columns ∧
    t.compiled.sql = "UPDATE ".toList ++ table.toSql ++ " SET ".toList ++
      commaList (numberedColumns (s.sentValues.length + 1) columns) ++ s.sentRows table ∧
    t.compiled.params = s.sentValues ++ values.map fun value => value.2.sanitized
  aggregate : ∀ f column t, (s.draft (.aggregate f column)).result = .ok t → ∃ c,
    argument column = .ok c ∧
    t.compiled.sql = "SELECT ".toList ++ f.toSql ++ '(' :: c.toSql ++
      ") AS total FROM ".toList ++ table.toSql ++ s.sentFilter ++ s.groupClause ∧
    t.compiled.params = s.sentValues

/-- A statement whose text compiles is made. -/
theorem finish_builds {tag sql : Text} {bs : Bindings} (h : ∃ c, bs.compile sql = .ok c) :
    ∃ t, finish tag sql bs = .ok t := by
  obtain ⟨c, hc⟩ := h
  exact ⟨⟨tag, sql, c⟩, by rw [finish, hc]⟩

theorem Reads.select_builds (h : s.Reads ps) (ht : s.target = .ok table) {columns : List Text}
    {cs : List Column} (hcs : Column.readAll columns = .ok cs) :
    ∃ t, (s.draft (.select columns)).result = .ok t := by
  have hhead : Written IsNamed (selectHead table cs) [] :=
    selectHead_written (h.wellNamed.target ht) (Column.readAll_plain hcs)
  have hw := h.wellNamed.where_written hhead h.wellNamed.bounds_written s.isApart_bounds
  have hselect : s.select columns =
      finish "select".toList (selectHead table cs ++ s.whereClause ++ s.bounds) s.bindings := by
    unfold Session.select
    rw [ht, hcs]
    rfl
  change ∃ t, s.select columns = .ok t
  rw [hselect]
  exact finish_builds (hw.compiles fun m hm => h.names_eq ▸ hm)

/-- Every row can be selected, with any columns that can be read. -/
theorem Reads.select_sent (h : s.Reads ps) (ht : s.target = .ok table) {columns : List Text}
    {cs : List Column} (hcs : Column.readAll columns = .ok cs) :
    ∃ t, (s.draft (.select columns)).result = .ok t ∧
      t.compiled.sql = selectHead table cs ++ s.sentFilter ++ s.bounds ∧
      t.compiled.params = s.sentValues := by
  obtain ⟨t, hok⟩ := h.select_builds ht hcs
  obtain ⟨bs, hd, hc⟩ := draft_ok hok
  obtain ⟨_, _, ho, hcolumns, hcarries⟩ := h.placed hd rfl hc
  obtain rfl := Except.ok.inj (ho.symm.trans ht)
  obtain rfl := Except.ok.inj (hcolumns.symm.trans hcs)
  rw [h.sentFilter_eq, h.sentValues_eq]
  exact ⟨t, hok, hcarries.sql_eq, hcarries.params_eq⟩

theorem Reads.sameRows (h : s.Reads ps) (ht : s.target = .ok table) : s.SameRows table := by
  have hplaced {command : Command} {t : Statement} (hok : (s.draft command).result = .ok t) :
      s.Placed ps t command := by
    obtain ⟨bs, hd, hc⟩ := draft_ok hok
    exact h.placed hd rfl hc
  have hsame {other : Identifier} (ho : s.target = .ok other) : other = table :=
    Except.ok.inj (ho.symm.trans ht)
  have hall : Column.readAll [] = .ok [] := rfl
  refine ⟨h.select_sent ht hall, fun t hok => ?_, fun values t hok => ?_, fun f column t hok => ?_⟩
  · obtain ⟨_, ho, hcarries⟩ := hplaced hok
    obtain rfl := hsame ho
    rw [h.sentRows_eq, h.sentValues_eq]
    exact ⟨hcarries.sql_eq, hcarries.params_eq⟩
  · obtain ⟨_, columns, ho, hcolumns, hcarries⟩ := hplaced hok
    obtain rfl := hsame ho
    refine ⟨columns, hcolumns, ?_, ?_⟩
    · rw [h.sentRows_eq, h.sentValues_eq, List.length_map]
      exact hcarries.sql_eq
    · rw [hcarries.params_eq, h.sentValues_eq, List.map_append, List.map_map]
      rfl
  · obtain ⟨_, c, ho, hc, hcarries⟩ := hplaced hok
    obtain rfl := hsame ho
    rw [h.sentFilter_eq, h.sentValues_eq]
    exact ⟨c, hc, hcarries.sql_eq, hcarries.params_eq⟩

/-- What a session selects is what it updates, deletes and counts: after any calls that did not
fail, its statements have one filter, with the same values at the same numbers, and a write has the
bounds of the selection as well. -/
theorem rows_shared (config : QueryConfig) (table : Text) (calls : List Call)
    (hf : ((start config table).run calls).fault = none) :
    ∃ target, ((start config table).run calls).target = .ok target ∧
      ((start config table).run calls).SameRows target := by
  obtain ⟨target, ht⟩ := run_target config table calls hf
  obtain ⟨ps, -, hreads⟩ := run_reads config table calls hf
  exact ⟨target, ht, hreads.sameRows ht⟩

theorem rows_shared_update :
    let calls : List Call := [.filter "age >= 18, note = null, age < 65".toList,
      .orderBy [("name".toList, .desc)], .limit 10 (some 2)]
    let s := (start {} "users".toList).run calls
    s.fault = none ∧ ∃ t, (s.draft (.update [("age".toList, .int 7)])).result = .ok t ∧
      t.compiled.sql = "UPDATE \"users\" SET \"age\" = $3".toList ++ s.sentRows ⟨["users".toList]⟩ ∧
      s.sentRows ⟨["users".toList]⟩ = " WHERE ctid IN (SELECT ctid FROM \"users\"".toList ++
        " WHERE \"age\" >= $1 AND \"note\" IS NULL AND \"age\" < $2".toList ++
        " ORDER BY \"name\" DESC LIMIT 10 OFFSET 10)".toList := by
  intro calls s
  have hf : s.fault = none := rfl
  obtain ⟨target, ht, hrows⟩ := rows_shared {} "users".toList calls hf
  obtain rfl : ⟨["users".toList]⟩ = target := Except.ok.inj ht
  obtain ⟨t, hok⟩ : ∃ t, (s.draft (.update [("age".toList, .int 7)])).result = .ok t := ⟨_, rfl⟩
  obtain ⟨columns, hcolumns, hsql, -⟩ := hrows.update _ t hok
  refine ⟨hf, t, hok, ?_, by decide +kernel⟩
  cases hcolumns with
  | @cons _ column _ _ hc hrest =>
    cases hrest
    obtain rfl : ⟨["age".toList]⟩ = column := Except.ok.inj hc
    have hset : "UPDATE ".toList ++ Identifier.toSql ⟨["users".toList]⟩ ++ " SET ".toList ++
        commaList (numberedColumns (s.sentValues.length + 1) [⟨["age".toList]⟩]) =
          "UPDATE \"users\" SET \"age\" = $3".toList := by
      decide +kernel
    exact hsql.trans (congrArg (· ++ s.sentRows ⟨["users".toList]⟩) hset)

end Session

end FluentSql
