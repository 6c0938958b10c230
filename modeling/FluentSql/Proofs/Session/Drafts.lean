import FluentSql.Proofs.Result
import FluentSql.Proofs.Session.Clauses

namespace FluentSql

open Statement

namespace Session

/-- The session that one row is selected from. -/
def single (s : Session) : Session := if s.limit.isNone then s.setLimit 1 none else s

theorem selectOne_eq (s : Session) (columns : List Text) :
    s.selectOne columns = s.single.select columns := by
  unfold selectOne single
  split_ifs <;> rfl

/-- What an aggregate is taken of. -/
def argument : Option Text → Except Error Column
  | none => .ok .all
  | some c => (Role.column.read c).map .named

def columnList (cs : List Column) : Text :=
  if cs.isEmpty then ['*'] else commaList (cs.map Column.toSql)

def selectHead (table : Identifier) (cs : List Column) : Text :=
  "SELECT ".toList ++ columnList cs ++ " FROM ".toList ++ table.toSql

def insertHead (table : Identifier) (columns : List Identifier) : Text :=
  "INSERT INTO ".toList ++ table.toSql ++ " (".toList ++
    commaList (columns.map Identifier.toSql) ++ ") VALUES (".toList

def updateHead (table : Identifier) : Text := "UPDATE ".toList ++ table.toSql ++ " SET ".toList

def deleteHead (table : Identifier) : Text := "DELETE FROM ".toList ++ table.toSql

def aggregateHead (table : Identifier) (f : Aggregate) (c : Column) : Text :=
  "SELECT ".toList ++ f.toSql ++ '(' :: c.toSql ++ ") AS total FROM ".toList ++ table.toSql

/-- The text that a command is written as, with the bindings that it is compiled with. -/
inductive Drafted : Session → Command → Text → Bindings → Prop
  | select {s : Session} {columns : List Text} {table : Identifier} {cs : List Column} :
      s.target = .ok table → Column.readAll columns = .ok cs →
      Drafted s (.select columns) (selectHead table cs ++ s.whereClause ++ s.bounds) s.bindings
  | selectOne {s : Session} {columns : List Text} {sql : Text} {bs : Bindings} :
      Drafted s.single (.select columns) sql bs → Drafted s (.selectOne columns) sql bs
  | insert {s : Session} {values : List (Text × Value)} {table : Identifier}
      {columns : List (Identifier × Text)} {bs : Bindings} :
      s.target = .ok table → values ≠ [] → Assigned .insert s.bindings values columns bs →
      Drafted s (.insert values)
        (insertHead table (columns.map Prod.fst) ++ commaList (columns.map Prod.snd) ++
          ") RETURNING ".toList ++ s.primaryKeySql) bs
  | update {s : Session} {values : List (Text × Value)} {table : Identifier}
      {columns : List (Identifier × Text)} {bs : Bindings} :
      s.target = .ok table → values ≠ [] → s.filter ≠ [] ∨ s.mayWriteUnfiltered = true →
      Assigned .set s.bindings values columns bs →
      Drafted s (.update values)
        (updateHead table ++ commaList (columns.map fun c => c.1.toSql ++ " = ".toList ++ c.2) ++
          s.writeFilter table) bs
  | delete {s : Session} {table : Identifier} :
      s.target = .ok table → s.filter ≠ [] ∨ s.mayWriteUnfiltered = true →
      Drafted s .delete (deleteHead table ++ s.writeFilter table) s.bindings
  | aggregate {s : Session} {f : Aggregate} {column : Option Text} {table : Identifier}
      {c : Column} : s.target = .ok table → argument column = .ok c →
      Drafted s (.aggregate f column)
        (aggregateHead table f c ++ s.whereClause ++ s.groupClause) s.bindings

variable {s : Session} {t : Statement}

theorem target_ok {table : Identifier} (h : s.target = .ok table) :
    s.fault = none ∧ s.table = some table := by
  unfold target at h
  split at h
  · simp at h
  · next hf =>
    split at h
    · next name hn =>
      obtain rfl : name = table := by simpa using h
      exact ⟨hf, hn⟩
    · simp at h

theorem single_keeps (s : Session) : s.single.fault = s.fault ∧ s.single.target = s.target ∧
    s.single.filter = s.filter ∧ s.single.bindings = s.bindings := by
  unfold single
  split_ifs <;> exact ⟨rfl, rfl, rfl, rfl⟩

/-- Nothing is drafted from a session that has failed. -/
theorem Drafted.fault {command : Command} {sql : Text} {bs : Bindings}
    (h : Drafted s command sql bs) : s.fault = none := by
  induction h with
  | select ht _ => exact (target_ok ht).1
  | selectOne _ ih => exact (single_keeps _).1.symm.trans ih
  | insert ht _ _ => exact (target_ok ht).1
  | update ht _ _ _ => exact (target_ok ht).1
  | delete ht _ => exact (target_ok ht).1
  | aggregate ht _ => exact (target_ok ht).1

theorem guard_ok {write : Write} {table : Identifier} {events : List Event}
    (h : s.guard write table = .ok events) : s.filter ≠ [] ∨ s.mayWriteUnfiltered = true := by
  unfold guard at h
  split_ifs at h with hf hu
  · left
    simpa using hf
  · exact .inr hu

theorem finish_ok {tag sql : Text} {bs : Bindings} (h : finish tag sql bs = .ok t) :
    t.namedSql = sql ∧ bs.compile sql = .ok t.compiled := by
  unfold finish at h
  split at h
  · next compiled hc =>
    obtain rfl : Statement.mk tag sql compiled = t := by simpa using h
    exact ⟨rfl, hc⟩
  · simp at h

theorem guarded_ok {write : Write} {table : Identifier} {statement : Except Error Statement}
    (h : (s.guarded write table statement).result = .ok t) :
    (s.filter ≠ [] ∨ s.mayWriteUnfiltered = true) ∧ statement = .ok t := by
  unfold guarded at h
  split at h
  · simp at h
  · next events hg => exact ⟨guard_ok hg, h⟩

theorem select_ok {columns : List Text} (h : s.select columns = .ok t) :
    ∃ bs, Drafted s (.select columns) t.namedSql bs ∧
      bs.compile t.namedSql = .ok t.compiled := by
  obtain ⟨table, ht, h⟩ := bind_ok h
  obtain ⟨cs, hcs, h⟩ := bind_ok h
  obtain ⟨hsql, hc⟩ := finish_ok h
  rw [hsql]
  exact ⟨s.bindings, .select ht hcs, hc⟩

theorem insert_ok {values : List (Text × Value)} (h : s.insert values = .ok t) :
    ∃ bs, Drafted s (.insert values) t.namedSql bs ∧
      bs.compile t.namedSql = .ok t.compiled := by
  obtain ⟨table, ht, h⟩ := bind_ok h
  split_ifs at h with hv
  obtain ⟨⟨columns, bs⟩, hb, h⟩ := bind_ok h
  obtain ⟨hsql, hc⟩ := finish_ok h
  have hnames : columns.map (fun c => c.1.toSql) = (columns.map Prod.fst).map Identifier.toSql := by
    rw [List.map_map]
    rfl
  refine ⟨bs, ?_, ?_⟩
  · rw [hsql, hnames]
    exact .insert ht (by simpa using hv) (bindColumns_assigned hb)
  · rw [hsql]
    exact hc

theorem update_ok {values : List (Text × Value)} (h : (s.update values).result = .ok t) :
    ∃ bs, Drafted s (.update values) t.namedSql bs ∧
      bs.compile t.namedSql = .ok t.compiled := by
  unfold update at h
  split at h
  · simp at h
  · next table ht =>
    split_ifs at h with hv
    obtain ⟨hg, h⟩ := guarded_ok h
    obtain ⟨⟨columns, bs⟩, hb, h⟩ := bind_ok h
    obtain ⟨hsql, hc⟩ := finish_ok h
    rw [hsql]
    exact ⟨bs, .update ht (by simpa using hv) hg (bindColumns_assigned hb), hc⟩

theorem delete_ok (h : s.delete.result = .ok t) :
    ∃ bs, Drafted s .delete t.namedSql bs ∧ bs.compile t.namedSql = .ok t.compiled := by
  unfold delete at h
  split at h
  · simp at h
  · next table ht =>
    obtain ⟨hg, h⟩ := guarded_ok h
    obtain ⟨hsql, hc⟩ := finish_ok h
    rw [hsql]
    exact ⟨s.bindings, .delete ht hg, hc⟩

theorem aggregate_eq (s : Session) (f : Aggregate) (column : Option Text) :
    s.aggregate f column = s.target >>= fun table => argument column >>= fun c =>
      finish f.tag
        ("SELECT ".toList ++ f.toSql ++ '(' :: c.toSql ++ ") AS total FROM ".toList ++
          table.toSql ++ s.whereClause ++ s.groupClause)
        s.bindings := by
  cases column with
  | none => rfl
  | some raw =>
    unfold aggregate argument
    dsimp only
    cases Role.column.read raw <;> rfl

theorem aggregate_ok {f : Aggregate} {column : Option Text} (h : s.aggregate f column = .ok t) :
    ∃ bs, Drafted s (.aggregate f column) t.namedSql bs ∧
      bs.compile t.namedSql = .ok t.compiled := by
  rw [aggregate_eq] at h
  obtain ⟨table, ht, h⟩ := bind_ok h
  obtain ⟨c, hc, h⟩ := bind_ok h
  obtain ⟨hsql, hcompile⟩ := finish_ok h
  rw [hsql]
  exact ⟨s.bindings, .aggregate ht hc, hcompile⟩

/-- Every statement is made in one of six ways. -/
theorem draft_ok {command : Command} (h : (s.draft command).result = .ok t) :
    ∃ bs, Drafted s command t.namedSql bs ∧ bs.compile t.namedSql = .ok t.compiled := by
  cases command with
  | select columns => exact select_ok h
  | selectOne columns =>
    have hs : s.single.select columns = .ok t := (s.selectOne_eq columns).symm.trans h
    obtain ⟨bs, hd, hc⟩ := select_ok hs
    exact ⟨bs, .selectOne hd, hc⟩
  | insert values => exact insert_ok h
  | update values => exact update_ok h
  | delete => exact delete_ok h
  | aggregate f column => exact aggregate_ok h

end Session

end FluentSql
