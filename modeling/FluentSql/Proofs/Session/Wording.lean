import FluentSql.Proofs.Session.Drafts
import FluentSql.Proofs.Statement.Harmless

namespace FluentSql

open Statement

namespace Session

variable {M : Text → Prop} {s : Session} {table : Identifier} {cs : List Column}
  {columns : List (Identifier × Text)}

theorem columnList_written (h : ∀ c ∈ cs, c.IsPlain) : Written M (columnList cs) [] := by
  unfold columnList
  split_ifs
  · exact Written.phrase (by decide)
  · exact commaList_unmarked fun c hc => (h c hc).written

theorem selectHead_written (ht : table.IsPlain) (h : ∀ c ∈ cs, c.IsPlain) :
    Written M (selectHead table cs) [] := by
  have hfrom : Written M (" FROM ".toList ++ table.toSql) [] :=
    .phrase_append (by decide) ht.written
  have hlist := (columnList_written h).append hfrom rfl
  unfold selectHead
  rw [List.append_assoc, List.append_assoc]
  exact .phrase_append (by decide) hlist

theorem deleteHead_written (ht : table.IsPlain) : Written M (deleteHead table) [] :=
  .phrase_append (by decide) ht.written

theorem aggregateHead_written (ht : table.IsPlain) (f : Aggregate) {c : Column} (h : c.IsPlain) :
    Written M (aggregateHead table f c) [] := by
  have hfrom : Written M (") AS total FROM ".toList ++ table.toSql) [] :=
    .phrase_append (by decide) ht.written
  have hargument := h.written.append hfrom rfl
  have hcall : Written M (f.toSql ++ (['('] ++ (c.toSql ++ (") AS total FROM ".toList ++
      table.toSql)))) [] := .word f.toSql_mem (.word (by decide) hargument)
  unfold aggregateHead
  rw [List.append_assoc, List.append_assoc, List.append_assoc]
  exact .phrase_append (by decide) hcall

theorem insertColumns_written (ht : table.IsPlain) {columns : List Identifier}
    (h : ∀ i ∈ columns, i.IsPlain) :
    Written M ("INSERT INTO ".toList ++ table.toSql ++ " (".toList ++
      commaList (columns.map Identifier.toSql)) [] := by
  have hcolumns : Written M (commaList (columns.map Identifier.toSql)) [] :=
    commaList_unmarked fun i hi => (h i hi).written
  have hlist : Written M (" (".toList ++ commaList (columns.map Identifier.toSql)) [] :=
    .phrase_append (by decide) hcolumns
  rw [List.append_assoc, List.append_assoc]
  exact .phrase_append (by decide) (ht.written.append hlist rfl)

theorem isPhrase_values : isPhrase ") VALUES (".toList = true := by decide

theorem insertHead_append (ht : table.IsPlain) {columns : List Identifier}
    (h : ∀ i ∈ columns, i.IsPlain) {t : Text} {ms : List Text} (hw : Written M t ms) :
    Written M (insertHead table columns ++ t) ms := by
  unfold insertHead
  rw [List.append_assoc]
  exact (insertColumns_written ht h).append (.phrase_append isPhrase_values hw) rfl

theorem write_insertHead (bs : Bindings) (ht : table.IsPlain) {columns : List Identifier}
    (h : ∀ i ∈ columns, i.IsPlain) (t : Text) :
    bs.write (insertHead table columns ++ t) = insertHead table columns ++ bs.write t := by
  have hcolumns := insertColumns_written (M := IsNamed) ht h
  unfold insertHead
  rw [List.append_assoc, hcolumns.write_append bs rfl, hcolumns.write_unmarked,
    write_phrase bs isPhrase_values, ← List.append_assoc]

theorem insertTail_written (hs : s.WellNamed) :
    Written M (") RETURNING ".toList ++ s.primaryKeySql) [] :=
  .phrase_append (by decide) hs.primaryKeySql_written

theorem updateTarget_written (ht : table.IsPlain) :
    Written M ("UPDATE ".toList ++ table.toSql) [] := .phrase_append (by decide) ht.written

theorem isPhrase_set : isPhrase " SET ".toList = true := by decide

theorem updateHead_append (ht : table.IsPlain) {t : Text} {ms : List Text} (hw : Written M t ms) :
    Written M (updateHead table ++ t) ms := by
  unfold updateHead
  rw [List.append_assoc]
  exact (updateTarget_written ht).append (.phrase_append isPhrase_set hw) rfl

theorem write_updateHead (bs : Bindings) (ht : table.IsPlain) (t : Text) :
    bs.write (updateHead table ++ t) = updateHead table ++ bs.write t := by
  have htarget := updateTarget_written (M := IsNamed) ht
  unfold updateHead
  rw [List.append_assoc, htarget.write_append bs rfl, htarget.write_unmarked,
    write_phrase bs isPhrase_set, ← List.append_assoc]

theorem isPhrase_assign : isPhrase " = ".toList = true := by decide

theorem marks_written (h : NamedColumns columns) :
    Written IsNamed (commaList (columns.map Prod.snd)) (columns.map Prod.snd) := by
  have hmarks := commaList_written (f := Prod.snd) (g := fun c => [c.2]) fun c hc =>
    Written.single_mark (h c hc).2
  rwa [← List.map_eq_flatMap] at hmarks

theorem assignment_written {c : Identifier × Text} (h : c.1.IsPlain ∧ IsNamed c.2) :
    Written IsNamed (c.1.toSql ++ " = ".toList ++ c.2) [c.2] := by
  have hvalue : Written IsNamed (" = ".toList ++ c.2) [c.2] :=
    .phrase_append isPhrase_assign (.single_mark h.2)
  rw [List.append_assoc]
  exact h.1.written.append hvalue rfl

theorem assignments_written (h : NamedColumns columns) :
    Written IsNamed (commaList (columns.map fun c => c.1.toSql ++ " = ".toList ++ c.2))
      (columns.map Prod.snd) := by
  rw [List.map_eq_flatMap (f := Prod.snd)]
  exact commaList_written fun c hc => assignment_written (h c hc)

theorem WellNamed.target (h : s.WellNamed) (ht : s.target = .ok table) : table.IsPlain :=
  h.table table (target_ok ht).2

theorem WellNamed.single (h : s.WellNamed) : s.single.WellNamed := by
  unfold Session.single
  split_ifs
  · exact h.setLimit 1 none
  · exact h

theorem argument_plain {column : Option Text} {c : Column} (h : argument column = .ok c) :
    c.IsPlain := by
  cases column with
  | none =>
    obtain rfl : Column.all = c := by simpa [argument] using h
    trivial
  | some raw =>
    obtain ⟨i, hi, rfl⟩ := map_ok h
    exact Role.read_plain hi

/-- A statement with the filter between texts without placeholders. -/
theorem WellNamed.where_written (hs : s.WellNamed) {head tail : Text}
    (hh : Written IsNamed head []) (ht : Written IsNamed tail []) (ha : isApart tail = true) :
    Written IsNamed (head ++ s.whereClause ++ tail) s.filterMarks := by
  have hw := (hh.append hs.whereClause_written s.isApart_whereClause).append ht ha
  rwa [List.nil_append, List.append_nil] at hw

theorem WellNamed.insert_written (hs : s.WellNamed) (ht : table.IsPlain)
    (hc : NamedColumns columns) :
    Written IsNamed
      (insertHead table (columns.map Prod.fst) ++ commaList (columns.map Prod.snd) ++
        ") RETURNING ".toList ++ s.primaryKeySql)
      (columns.map Prod.snd) := by
  have hlist := (marks_written hc).append (insertTail_written hs) rfl
  rw [List.append_nil] at hlist
  rw [List.append_assoc, List.append_assoc]
  exact insertHead_append ht hc.plain hlist

theorem WellNamed.update_written (hs : s.WellNamed) (ht : table.IsPlain)
    (hc : NamedColumns columns) :
    Written IsNamed
      (updateHead table ++ commaList (columns.map fun c => c.1.toSql ++ " = ".toList ++ c.2) ++
        s.writeFilter table)
      (columns.map Prod.snd ++ s.filterMarks) := by
  have hlist := (assignments_written hc).append (hs.writeFilter_written ht)
    (s.isApart_writeFilter table)
  rw [List.append_assoc]
  exact updateHead_append ht hlist

theorem WellNamed.delete_written (hs : s.WellNamed) (ht : table.IsPlain) :
    Written IsNamed (deleteHead table ++ s.writeFilter table) s.filterMarks :=
  (deleteHead_written ht).append (hs.writeFilter_written ht) (s.isApart_writeFilter table)

/-- Whatever a command is given, its text is written with the vocabulary, numerals, plain names and
placeholders. -/
theorem Drafted.written {command : Command} {sql : Text} {bs : Bindings}
    (h : Drafted s command sql bs) (hs : s.WellNamed) : ∃ ms, Written IsNamed sql ms := by
  induction h with
  | select ht hcs =>
    have hhead := selectHead_written (M := IsNamed) (hs.target ht) (Column.readAll_plain hcs)
    exact ⟨_, hs.where_written hhead hs.bounds_written (isApart_bounds _)⟩
  | selectOne _ ih => exact ih hs.single
  | insert ht _ hb => exact ⟨_, hs.insert_written (hs.target ht) hb.namedColumns⟩
  | update ht _ _ hb => exact ⟨_, hs.update_written (hs.target ht) hb.namedColumns⟩
  | delete ht _ => exact ⟨_, hs.delete_written (hs.target ht)⟩
  | @aggregate _ f _ _ _ ht hc =>
    have hhead := aggregateHead_written (M := IsNamed) (hs.target ht) f (argument_plain hc)
    exact ⟨_, hs.where_written hhead hs.groupClause_written (isApart_groupClause _)⟩

end Session

/-- No name and no condition can escape its quotes: after any calls, a statement consists of the
vocabulary, numerals, plain names in double quotes and placeholders, and so it is harmless; every
name that can be read at all is plain. -/
theorem statement_contained (config : QueryConfig) (table : Text) (calls : List Call)
    (command : Command) :
    (∀ t, (((Session.start config table).run calls).draft command).result = .ok t →
      (∃ ms, Written IsNamed t.namedSql ms) ∧ (∃ ms, Written IsNumbered t.compiled.sql ms) ∧
        Harmless t.namedSql ∧ Harmless t.compiled.sql) ∧
      ∀ raw i, Identifier.ofText raw = .ok i → i.IsPlain := by
  refine ⟨fun t h => ?_, fun _ _ h => Identifier.ofText_plain h⟩
  obtain ⟨bs, hd, hc⟩ := Session.draft_ok h
  obtain ⟨ms, hw⟩ := hd.written (Session.run_wellNamed config table calls)
  have hn := hw.numbered (bs.referenced t.namedSql)
  rw [(Bindings.compile_ok hc).2]
  exact ⟨⟨ms, hw⟩, ⟨_, hn⟩, hw.harmless fun _ => IsNamed.enclosed,
    hn.harmless fun _ => IsNumbered.enclosed⟩

theorem statement_contained_delete : ∃ t,
    (((Session.start {} "shop.users".toList).run
      [.filter "name = '\"; DROP TABLE users; --'".toList, .limit 5 none]).draft .delete).result =
        .ok t ∧ Harmless t.compiled.sql :=
  ⟨_, rfl, ((statement_contained {} "shop.users".toList
    [.filter "name = '\"; DROP TABLE users; --'".toList, .limit 5 none] .delete).1 _ rfl).2.2.2⟩

end FluentSql
