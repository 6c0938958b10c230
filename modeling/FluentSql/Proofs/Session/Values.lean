import FluentSql.Proofs.Condition.Reading
import FluentSql.Proofs.Session.Numbered

namespace FluentSql

open Condition (Predicate)
open Statement

/-- What a statement carries: its compiled text, the values for it in the order of their numbers,
and the numbers in the order in which they stand in the text, each in the place of its name. -/
structure Statement.Carries (t : Statement) (sql : Text) (values : List Value) (order : List Nat) :
    Prop where
  sql_eq : t.compiled.sql = sql
  params_eq : t.compiled.params = values.map Value.sanitized
  order_eq : Placeholder.numbers t.compiled.sql = order
  names_nodup : t.compiled.names.Nodup
  length_eq : t.compiled.names.length = t.compiled.params.length
  names_eq : order.map (fun n => t.compiled.names[n - 1]?) =
    (Placeholder.occurrences t.namedSql).map fun w => some (':' :: w)

/-- A statement whose placeholders are the last names of its bindings carries their values. -/
theorem Bindings.compile_carries {pre new : Bindings} {t : Statement} {ms : List Text}
    (hc : (pre ++ new).compile t.namedSql = .ok t.compiled) (hw : Written IsNamed t.namedSql ms)
    (hn : (names (pre ++ new)).Nodup) (hm : ∀ m, m ∈ ms ↔ m ∈ new.names) :
    t.Carries (new.write t.namedSql) (new.map Binding.value)
      ((Placeholder.occurrences t.namedSql).map new.position) := by
  have hcompiled := (compile_ok hc).2
  rw [referenced_tail hw hn hm] at hcompiled
  have hnodup : new.names.Nodup := by
    rw [names_append, List.nodup_append] at hn
    exact hn.2.1
  rw [hw.occurrences_eq] at hm
  refine ⟨?_, ?_, ?_, ?_, ?_, ?_⟩
  · rw [hcompiled]
  · rw [hcompiled, List.map_map]
    rfl
  · rw [hcompiled]
    exact hw.numbers_write new
  · rw [hcompiled]
    exact hnodup
  · simp [hcompiled, names]
  · rw [hcompiled, List.map_map]
    refine List.map_congr_left fun w hmem => getElem?_position ?_
    exact (hm _).mp (List.mem_map.mpr ⟨w, hmem, rfl⟩)

/-- If the placeholders are those names in their order, the numbers are in order as well. -/
theorem Bindings.compile_carries_all {pre new : Bindings} {t : Statement}
    (hc : (pre ++ new).compile t.namedSql = .ok t.compiled)
    (hw : Written IsNamed t.namedSql new.names) (hn : (names (pre ++ new)).Nodup) :
    t.Carries (new.write t.namedSql) (new.map Binding.value) (List.range' 1 new.length) := by
  have hcarries := compile_carries hc hw hn fun _ => Iff.rfl
  have hnew : (names ([] ++ new ++ [])).Nodup := by
    rw [names_append, List.nodup_append] at hn
    simpa using hn.2.1
  have hmarks := hw.occurrences_eq
  have hlength : new.length = (Placeholder.occurrences t.namedSql).length := by
    simpa [names] using congrArg List.length hmarks
  have hpositions := positions_block hnew hmarks
  simp only [List.nil_append, List.append_nil, List.length_nil, Nat.zero_add] at hpositions
  rwa [hpositions, ← hlength] at hcarries

namespace Session

variable {s : Session} {bs : Bindings} {ps : List Predicate} {table : Identifier}
  {columns : List (Identifier × Text)} {values : List (Text × Value)} {t : Statement}

/-- Where the values of a command stand in its statement: those of the filter at the numbers from 1
on, and those of a write after them; an insert leaves the filter out. -/
def Placed (s : Session) (ps : List Predicate) (t : Statement) : Command → Prop
  | .select columns => ∃ table cs, s.target = .ok table ∧ Column.readAll columns = .ok cs ∧
      t.Carries (selectHead table cs ++ Predicate.numberedWhere ps ++ s.bounds)
        (Predicate.boundValues ps) (List.range' 1 (Predicate.boundValues ps).length)
  | .selectOne columns => ∃ table cs, s.target = .ok table ∧ Column.readAll columns = .ok cs ∧
      t.Carries (selectHead table cs ++ Predicate.numberedWhere ps ++ s.single.bounds)
        (Predicate.boundValues ps) (List.range' 1 (Predicate.boundValues ps).length)
  | .insert values => ∃ table columns, s.target = .ok table ∧
      List.Forall₂ (fun value column => Role.column.read value.1 = .ok column) values columns ∧
      t.Carries
        (insertHead table columns ++
          commaList ((List.range' 1 values.length).map Placeholder.numeral) ++
          ") RETURNING ".toList ++ s.primaryKeySql)
        (values.map Prod.snd) (List.range' 1 values.length)
  | .update values => ∃ table columns, s.target = .ok table ∧
      List.Forall₂ (fun value column => Role.column.read value.1 = .ok column) values columns ∧
      t.Carries
        (updateHead table ++
          commaList (numberedColumns ((Predicate.boundValues ps).length + 1) columns) ++
          s.numberedFilter table ps)
        (Predicate.boundValues ps ++ values.map Prod.snd)
        (List.range' ((Predicate.boundValues ps).length + 1) values.length ++
          List.range' 1 (Predicate.boundValues ps).length)
  | .delete => ∃ table, s.target = .ok table ∧
      t.Carries (deleteHead table ++ s.numberedFilter table ps) (Predicate.boundValues ps)
        (List.range' 1 (Predicate.boundValues ps).length)
  | .aggregate f column => ∃ table c, s.target = .ok table ∧ argument column = .ok c ∧
      t.Carries (aggregateHead table f c ++ Predicate.numberedWhere ps ++ s.groupClause)
        (Predicate.boundValues ps) (List.range' 1 (Predicate.boundValues ps).length)

/-- A statement that has the placeholders of the filter and no others carries its values. -/
theorem Reads.carries (h : s.Reads ps) (hc : s.bindings.compile t.namedSql = .ok t.compiled)
    (hw : Written IsNamed t.namedSql s.filterMarks) :
    t.Carries (s.bindings.write t.namedSql) (Predicate.boundValues ps)
      (List.range' 1 (Predicate.boundValues ps).length) := by
  have hcompile : Bindings.compile ([] ++ s.bindings) t.namedSql = .ok t.compiled := hc
  rw [← h.names_eq] at hw
  rw [← h.length_eq, ← h.values_eq]
  exact Bindings.compile_carries_all hcompile hw h.nodup

theorem Reads.carries_where (h : s.Reads ps) {head tail : Text}
    (hc : s.bindings.compile t.namedSql = .ok t.compiled)
    (hsql : t.namedSql = head ++ s.whereClause ++ tail) (hh : Written IsNamed head [])
    (ht : Written IsNamed tail []) (ha : isApart tail = true) :
    t.Carries (head ++ Predicate.numberedWhere ps ++ tail) (Predicate.boundValues ps)
      (List.range' 1 (Predicate.boundValues ps).length) := by
  have hw := h.wellNamed.where_written hh ht ha
  rw [← h.write_where hh ht ha, ← hsql]
  exact h.carries hc (hsql ▸ hw)

theorem Reads.carries_delete (h : s.Reads ps) (ht : table.IsPlain)
    (hc : s.bindings.compile t.namedSql = .ok t.compiled)
    (hsql : t.namedSql = deleteHead table ++ s.writeFilter table) :
    t.Carries (deleteHead table ++ s.numberedFilter table ps) (Predicate.boundValues ps)
      (List.range' 1 (Predicate.boundValues ps).length) := by
  have hw := h.wellNamed.delete_written ht
  rw [← h.write_delete ht, ← hsql]
  exact h.carries hc (hsql ▸ hw)

/-- The bindings of the filter are there when an insert is compiled, but it refers to none of
them. -/
theorem Reads.carries_insert (h : s.Reads ps) (ht : table.IsPlain)
    (hb : Assigned .insert s.bindings values columns bs)
    (hc : bs.compile t.namedSql = .ok t.compiled)
    (hsql : t.namedSql = insertHead table (columns.map Prod.fst) ++
      commaList (columns.map Prod.snd) ++ ") RETURNING ".toList ++ s.primaryKeySql) :
    t.Carries
      (insertHead table (columns.map Prod.fst) ++
        commaList ((List.range' 1 values.length).map Placeholder.numeral) ++
        ") RETURNING ".toList ++ s.primaryKeySql)
      (values.map Prod.snd) (List.range' 1 values.length) := by
  have hcolumns := hb.namedColumns
  have hnodup := hb.nodup h.nodup
  obtain ⟨new, rfl, hnames, hvalues⟩ := hb.extends_bindings
  have hnew : new.names.Nodup := by
    rw [Bindings.names_append, List.nodup_append] at hnodup
    exact hnodup.2.1
  have hlength : new.length = values.length := by
    simpa using congrArg List.length hvalues
  have hcount : columns.length = values.length := by
    simpa [Bindings.names, hlength] using (congrArg List.length hnames).symm
  have hw := h.wellNamed.insert_written ht hcolumns
  rw [← hsql, ← hnames] at hw
  rw [← hcount, ← h.wellNamed.write_insert ht hcolumns hnew hnames, ← hsql, hcount, ← hlength,
    ← hvalues]
  exact Bindings.compile_carries_all hc hw hnodup

/-- The placeholders of the columns come first in an update, and have the numbers after those of the
filter. -/
theorem Reads.update_order (h : s.Reads ps) {new : Bindings}
    (hn : (Bindings.names (s.bindings ++ new)).Nodup)
    (hw : Written IsNamed t.namedSql (new.names ++ s.bindings.names)) :
    (Placeholder.occurrences t.namedSql).map (Bindings.position (s.bindings ++ new)) =
      List.range' ((Predicate.boundValues ps).length + 1) new.length ++
        List.range' 1 (Predicate.boundValues ps).length := by
  obtain ⟨ws, vs, hocc, hws, hvs⟩ := List.map_eq_append_iff.mp hw.occurrences_eq.symm
  have hblock : (Bindings.names (s.bindings ++ new ++ [])).Nodup := by simpa using hn
  have hset := Bindings.positions_block hblock hws.symm
  have hwhere : vs.map (Bindings.position ([] ++ s.bindings ++ new)) = List.range' 1 vs.length :=
    Bindings.positions_block hn hvs.symm
  have hwsLength : ws.length = new.length := by
    simpa [Bindings.names] using congrArg List.length hws
  have hvsLength : vs.length = s.bindings.length := by
    simpa [Bindings.names] using congrArg List.length hvs
  rw [List.append_nil, hwsLength] at hset
  rw [List.nil_append, hvsLength] at hwhere
  rw [hocc, List.map_append, hset, hwhere, h.length_eq]

theorem Reads.carries_update (h : s.Reads ps) (ht : table.IsPlain)
    (hb : Assigned .set s.bindings values columns bs)
    (hc : bs.compile t.namedSql = .ok t.compiled)
    (hsql : t.namedSql = updateHead table ++
      commaList (columns.map fun c => c.1.toSql ++ " = ".toList ++ c.2) ++ s.writeFilter table) :
    t.Carries
      (updateHead table ++
        commaList (numberedColumns ((Predicate.boundValues ps).length + 1)
          (columns.map Prod.fst)) ++ s.numberedFilter table ps)
      (Predicate.boundValues ps ++ values.map Prod.snd)
      (List.range' ((Predicate.boundValues ps).length + 1) values.length ++
        List.range' 1 (Predicate.boundValues ps).length) := by
  have hcolumns := hb.namedColumns
  have hnodup := hb.nodup h.nodup
  obtain ⟨new, rfl, hnames, hvalues⟩ := hb.extends_bindings
  have hlength : new.length = values.length := by
    simpa using congrArg List.length hvalues
  have hw := h.wellNamed.update_written ht hcolumns
  rw [← hsql, ← hnames, ← h.names_eq] at hw
  have hcompile : Bindings.compile ([] ++ (s.bindings ++ new)) t.namedSql = .ok t.compiled := hc
  have hcarries := Bindings.compile_carries hcompile hw hnodup fun m => by
    rw [Bindings.names_append, List.mem_append, List.mem_append, or_comm]
  rw [h.update_order hnodup hw, hlength, List.map_append, h.values_eq, hvalues] at hcarries
  rw [← h.write_update ht hcolumns hnodup hnames, ← hsql]
  exact hcarries

theorem Reads.single (h : s.Reads ps) : s.single.Reads ps := by
  obtain ⟨_, _, hfilter, hbindings⟩ := s.single_keeps
  exact ⟨h.wellNamed.single, hfilter ▸ hbindings ▸ h.filtered, h.words⟩

/-- However a command is written, its values are where they belong. -/
theorem Reads.placed (h : s.Reads ps) {command : Command} {sql : Text}
    (hd : Drafted s command sql bs) (hsql : t.namedSql = sql)
    (hc : bs.compile t.namedSql = .ok t.compiled) : s.Placed ps t command := by
  cases hd with
  | @select _ _ table cs ht hcs =>
    have hhead := selectHead_written (M := IsNamed) (h.wellNamed.target ht)
      (Column.readAll_plain hcs)
    exact ⟨table, cs, ht, hcs,
      h.carries_where hc hsql hhead h.wellNamed.bounds_written s.isApart_bounds⟩
  | selectOne hs =>
    obtain ⟨_, htarget, _, _⟩ := s.single_keeps
    cases hs with
    | @select _ _ table cs ht hcs =>
      have hone := h.single
      have hhead := selectHead_written (M := IsNamed) (hone.wellNamed.target ht)
        (Column.readAll_plain hcs)
      exact ⟨table, cs, htarget.symm.trans ht, hcs,
        hone.carries_where hc hsql hhead hone.wellNamed.bounds_written s.single.isApart_bounds⟩
  | @insert _ _ table columns _ ht _ hb =>
    exact ⟨table, columns.map Prod.fst, ht, hb.columns_read,
      h.carries_insert (h.wellNamed.target ht) hb hc hsql⟩
  | @update _ _ table columns _ ht _ _ hb =>
    exact ⟨table, columns.map Prod.fst, ht, hb.columns_read,
      h.carries_update (h.wellNamed.target ht) hb hc hsql⟩
  | @delete _ table ht _ => exact ⟨table, ht, h.carries_delete (h.wellNamed.target ht) hc hsql⟩
  | @aggregate _ f _ table c ht ha =>
    have hhead := aggregateHead_written (M := IsNamed) (h.wellNamed.target ht) f (argument_plain ha)
    exact ⟨table, c, ht, ha,
      h.carries_where hc hsql hhead h.wellNamed.groupClause_written s.isApart_groupClause⟩

theorem lastPredicates_words {config : QueryConfig} {calls : List Call}
    (h : Call.lastPredicates config calls = .ok ps) : ∀ p ∈ ps, Text.isWord p.column = true := by
  unfold Call.lastPredicates at h
  split at h
  · exact (readCondition_words h).2
  · obtain rfl := Except.ok.inj h
    simp

theorem run_reads (config : QueryConfig) (table : Text) (calls : List Call)
    (hf : ((start config table).run calls).fault = none) :
    ∃ ps, Call.lastPredicates config calls = .ok ps ∧
      ((start config table).run calls).Reads ps := by
  obtain ⟨ps, hps, hfiltered⟩ := (run_remembers config table calls).predicates hf
  exact ⟨ps, hps, run_wellNamed config table calls, hfiltered, lastPredicates_words hps⟩

end Session

end FluentSql
