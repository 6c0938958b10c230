import FluentSql.Proofs.Binding.Position
import FluentSql.Proofs.Session.Wording

namespace FluentSql

open Condition (Predicate)
open Statement

/-- The placeholder with a number. -/
def Placeholder.numeral (n : Nat) : Text := '$' :: Text.decimal n

namespace Condition.Predicate

/-- A predicate with its value at a number; without one, if it asks for null. -/
def numbered (n : Nat) (p : Predicate) : Text :=
  '"' :: p.column ++ '"' :: ' ' ::
    (if p.asksNull then p.nullTest.toSql else p.op.token ++ ' ' :: Placeholder.numeral n)

/-- Predicates with their values at numbers in a row. -/
def numberedFrom : Nat → List Predicate → List Text
  | _, [] => []
  | n, p :: ps => p.numbered n :: numberedFrom (if p.asksNull then n else n + 1) ps

def numberedWhere (ps : List Predicate) : Text :=
  if ps.isEmpty then []
  else " WHERE ".toList ++ Text.joinWith " AND ".toList (numberedFrom 1 ps)

end Condition.Predicate

namespace Session

/-- A comparison keeps its column and operator, and has a number in place of the name. -/
theorem write_compare (bs : Bindings) {column : Identifier} (hc : column.IsPlain) (op : Comparison)
    {w : Text} (hw : Text.isWord w = true) :
    bs.write (FilterTerm.toSql ⟨column, .compare op (':' :: w)⟩) =
      column.toSql ++ ' ' :: (op.token ++ ' ' :: Placeholder.numeral (bs.position w)) := by
  have hmark : bs.write (':' :: w) = Placeholder.numeral (bs.position w) := by
    have hm := write_mark bs hw (t := []) rfl
    rw [List.append_nil] at hm
    exact hm.trans (List.append_nil _)
  have htest : bs.write ([' '] ++ (op.token ++ ([' '] ++ ':' :: w))) =
      [' '] ++ (op.token ++ ([' '] ++ Placeholder.numeral (bs.position w))) := by
    rw [write_word bs (by decide), write_word bs op.token_mem, write_word bs (by decide), hmark]
  change bs.write (column.toSql ++ ([' '] ++ (op.token ++ ([' '] ++ ':' :: w)))) = _
  rw [hc.written.write_append bs rfl, hc.written.write_unmarked, htest]
  rfl

variable {s : Session} {bs bs' post : Bindings} {ps : List Predicate} {ts : List FilterTerm}
  {table : Identifier} {columns : List (Identifier × Text)}

/-- Numbering the terms of a filter gives every value the number after those before it. -/
theorem Filtered.write_terms (h : Filtered bs ps ts bs')
    (hw : ∀ p ∈ ps, Text.isWord p.column = true) :
    ts.map (fun t => Bindings.write (bs' ++ post) t.toSql) =
      Predicate.numberedFrom (bs.length + 1) ps := by
  induction h with
  | nil => rfl
  | @null bs bs' p ps column ts hc hnull hrest ih =>
    have hword := hw p (by simp)
    obtain rfl := Role.read_of_word hc hword
    have hwritten := ((Filtered.null hc hnull hrest).wellNamed _ List.mem_cons_self).written
    rw [FilterTerm.placeholder?_nullTest] at hwritten
    have hterm : Bindings.write (bs' ++ post) (FilterTerm.toSql ⟨⟨[p.column]⟩, p.nullTest⟩) =
        p.numbered (bs.length + 1) := by
      rw [hwritten.write_unmarked, Predicate.numbered, if_pos hnull]
      simp [FilterTerm.toSql, Identifier.toSql, Text.joinWith,
        Identifier.quotePart_plain (Identifier.isPlain_of_isWord hword)]
    rw [List.map_cons, hterm, ih fun q hq => hw q (by simp [hq]), Predicate.numberedFrom,
      if_pos hnull]
  | @value bs bs' p ps column ts hc hvalue hrest ih =>
    have hword := hw p (by simp)
    have hplain := Role.read_plain hc
    obtain rfl := Role.read_of_word hc hword
    obtain ⟨w, hw', hname⟩ :=
      Bindings.freshName_named bs .filter (Identifier.seed_word hplain)
    obtain ⟨new, rfl, _⟩ := hrest.extends_bindings
    have hposition : Bindings.position (bs ++ [⟨nextName bs .filter ⟨[p.column]⟩, .filter,
        Value.ofLiteral p.value⟩] ++ new ++ post) w = bs.length + 1 := by
      rw [List.append_assoc, List.append_assoc, List.singleton_append]
      exact Bindings.position_append hname (Bindings.freshName_fresh bs _)
    have hterm : Bindings.write (bs ++ [⟨nextName bs .filter ⟨[p.column]⟩, .filter,
        Value.ofLiteral p.value⟩] ++ new ++ post)
          (FilterTerm.toSql ⟨⟨[p.column]⟩, .compare p.op (nextName bs .filter ⟨[p.column]⟩)⟩) =
        p.numbered (bs.length + 1) := by
      rw [nextName, hname, write_compare _ hplain p.op hw', ← hname, ← nextName, hposition,
        Predicate.numbered, if_neg (by simp [hvalue])]
      simp [Identifier.toSql, Text.joinWith,
        Identifier.quotePart_plain (Identifier.isPlain_of_isWord hword)]
    rw [List.map_cons, hterm, ih fun q hq => hw q (by simp [hq]), Predicate.numberedFrom,
      if_neg (by simp [hvalue]), List.length_append, List.length_singleton]

/-- A filter and its predicates, with all the names that they take plain. -/
structure Reads (s : Session) (ps : List Predicate) : Prop where
  wellNamed : s.WellNamed
  filtered : Filtered [] ps s.filter s.bindings
  words : ∀ p ∈ ps, Text.isWord p.column = true

namespace Reads

theorem write_whereClause (h : s.Reads ps) (post : Bindings) :
    Bindings.write (s.bindings ++ post) s.whereClause = Predicate.numberedWhere ps := by
  have hlength := h.filtered.length_eq
  unfold whereClause Predicate.numberedWhere
  by_cases he : s.filter = []
  · have hps : ps = [] := by
      rw [he] at hlength
      exact List.length_eq_zero_iff.mp hlength.symm
    simp only [he, hps, List.isEmpty_nil, if_true]
    rfl
  · have hps : ps ≠ [] := by
      rintro rfl
      exact he (List.length_eq_zero_iff.mp hlength)
    rw [if_neg (by simpa using he), if_neg (by simpa using hps),
      write_phrase _ (by decide),
      Written.write_joinWith _ (by decide) (fun _ => rfl)
        fun t ht => (h.wellNamed.filter t ht).written,
      h.filtered.write_terms h.words]
    rfl

theorem names_eq (h : s.Reads ps) : s.bindings.names = s.filterMarks := by
  obtain ⟨new, hnew, hnames, _⟩ := h.filtered.extends_bindings
  rw [hnew, List.nil_append, hnames]
  rfl

theorem values_eq (h : s.Reads ps) : s.bindings.map Binding.value = Predicate.boundValues ps := by
  obtain ⟨new, hnew, _, hvalues, _⟩ := h.filtered.extends_bindings
  rw [hnew, List.nil_append, hvalues]

theorem length_eq (h : s.Reads ps) : s.bindings.length = (Predicate.boundValues ps).length := by
  rw [← h.values_eq, List.length_map]

theorem nodup (h : s.Reads ps) : s.bindings.names.Nodup := h.filtered.nodup .nil

end Reads

/-- The filter of a write, with its values at their numbers. -/
def numberedFilter (s : Session) (table : Identifier) (ps : List Predicate) : Text :=
  rowsOf table (Predicate.numberedWhere ps) s.bounds

theorem Reads.write_writeFilter (h : s.Reads ps) (ht : table.IsPlain)
    (post : Bindings) :
    Bindings.write (s.bindings ++ post) (s.writeFilter table) = s.numberedFilter table ps := by
  unfold writeFilter numberedFilter rowsOf
  split_ifs
  · exact h.write_whereClause post
  · have hrows := rowSelection_written (M := IsNamed) ht
    have hwhere := h.wellNamed.whereClause_written
    have hbounds := h.wellNamed.bounds_written (M := IsNamed)
    have hclose : Bindings.write (s.bindings ++ post) [')'] = [')'] := rfl
    have hlast : isApart (s.bounds ++ [')']) = true := isApart_append s.isApart_bounds rfl
    have hbody : isApart (s.whereClause ++ (s.bounds ++ [')'])) = true :=
      isApart_append s.isApart_whereClause hlast
    simp only [List.append_assoc (s.whereClause), List.append_assoc
      (" WHERE ctid IN (SELECT ctid FROM ".toList ++ table.toSql),
      List.append_assoc (Predicate.numberedWhere ps)]
    rw [hrows.write_append _ hbody, hrows.write_unmarked, hwhere.write_append _ hlast,
      h.write_whereClause, hbounds.write_append _ rfl, hbounds.write_unmarked, hclose]

/-- The columns of a write, each with the number of its value. -/
def numberedColumns (n : Nat) (columns : List Identifier) : List Text :=
  List.zipWith (fun i n => i.toSql ++ " = ".toList ++ Placeholder.numeral n) columns
    (List.range' n columns.length)

/-- Numbering the placeholders of columns gives them numbers in a row. -/
theorem NamedColumns.write_marks (h : NamedColumns columns) {pre new : Bindings}
    (hn : (Bindings.names (pre ++ new ++ post)).Nodup) (hm : new.names = columns.map Prod.snd) :
    columns.map (fun c => Bindings.write (pre ++ new ++ post) c.2) =
      (List.range' (pre.length + 1) columns.length).map Placeholder.numeral := by
  have hnumbers := Bindings.write_names hn fun m hmem => h.named m (hm ▸ hmem)
  have hlength : new.length = columns.length := by
    simpa [Bindings.names] using congrArg List.length hm
  rw [hm, List.map_map, hlength] at hnumbers
  exact hnumbers

theorem NamedColumns.write_list (h : NamedColumns columns) (bs : Bindings) :
    bs.write (commaList (columns.map Prod.snd)) = commaList (columns.map fun c => bs.write c.2) :=
  Written.write_joinWith bs (by decide) (fun _ => rfl) fun c hc => .single_mark (h c hc).2

/-- Numbering assignments keeps their columns. -/
theorem NamedColumns.write_assignments (h : NamedColumns columns) {n : Nat}
    (hn : columns.map (fun c => bs.write c.2) =
      (List.range' n columns.length).map Placeholder.numeral) :
    bs.write (commaList (columns.map fun c => c.1.toSql ++ " = ".toList ++ c.2)) =
      commaList (numberedColumns n (columns.map Prod.fst)) := by
  have hlist := Written.write_joinWith bs (p := [',', ' ']) (by decide) (fun _ => rfl)
    fun c hc => assignment_written (h c hc)
  have heach : columns.map (fun c => bs.write (c.1.toSql ++ " = ".toList ++ c.2)) =
      List.zipWith (fun i m => i.toSql ++ " = ".toList ++ m) (columns.map Prod.fst)
        (columns.map fun c => bs.write c.2) := by
    rw [List.zipWith_map, List.zipWith_self]
    refine List.map_congr_left fun c hc => ?_
    have hplain := (h c hc).1.written (M := IsNamed)
    rw [List.append_assoc, hplain.write_append bs rfl, hplain.write_unmarked,
      write_phrase bs isPhrase_assign, ← List.append_assoc]
  rw [commaList, hlist, heach, hn, List.zipWith_map_right, numberedColumns, List.length_map,
    commaList]

/-- Of a statement that is written around the filter, only the filter changes. -/
theorem Reads.write_where (h : s.Reads ps) {head tail : Text} (hh : Written IsNamed head [])
    (ht : Written IsNamed tail []) (ha : isApart tail = true) :
    s.bindings.write (head ++ s.whereClause ++ tail) =
      head ++ Predicate.numberedWhere ps ++ tail := by
  have hwhere := h.write_whereClause []
  have hbody : isApart (s.whereClause ++ tail) = true := isApart_append s.isApart_whereClause ha
  rw [List.append_nil] at hwhere
  rw [List.append_assoc, hh.write_append _ hbody, hh.write_unmarked,
    h.wellNamed.whereClause_written.write_append _ ha, hwhere, ht.write_unmarked,
    List.append_assoc]

theorem Reads.write_delete (h : s.Reads ps) (ht : table.IsPlain) :
    s.bindings.write (deleteHead table ++ s.writeFilter table) =
      deleteHead table ++ s.numberedFilter table ps := by
  have hhead := deleteHead_written (M := IsNamed) ht
  have hfilter := h.write_writeFilter ht []
  rw [List.append_nil] at hfilter
  rw [hhead.write_append _ (s.isApart_writeFilter table), hhead.write_unmarked, hfilter]

theorem WellNamed.write_insert (hs : s.WellNamed) (ht : table.IsPlain) (hc : NamedColumns columns)
    (hn : bs.names.Nodup) (hm : bs.names = columns.map Prod.snd) :
    bs.write (insertHead table (columns.map Prod.fst) ++ commaList (columns.map Prod.snd) ++
        ") RETURNING ".toList ++ s.primaryKeySql) =
      insertHead table (columns.map Prod.fst) ++
        commaList ((List.range' 1 columns.length).map Placeholder.numeral) ++
        ") RETURNING ".toList ++ s.primaryKeySql := by
  have hblock : (Bindings.names ([] ++ bs ++ [])).Nodup := by simpa using hn
  have hnumbers := hc.write_marks hblock hm
  have htail := insertTail_written (M := IsNamed) hs
  rw [List.nil_append, List.append_nil, List.length_nil, Nat.zero_add] at hnumbers
  rw [List.append_assoc, List.append_assoc, write_insertHead bs ht hc.plain,
    (marks_written hc).write_append bs rfl, hc.write_list, hnumbers, htail.write_unmarked,
    ← List.append_assoc, ← List.append_assoc]

theorem Reads.write_update (h : s.Reads ps) (ht : table.IsPlain) (hc : NamedColumns columns)
    {new : Bindings} (hn : (Bindings.names (s.bindings ++ new)).Nodup)
    (hm : new.names = columns.map Prod.snd) :
    Bindings.write (s.bindings ++ new)
        (updateHead table ++ commaList (columns.map fun c => c.1.toSql ++ " = ".toList ++ c.2) ++
          s.writeFilter table) =
      updateHead table ++
        commaList (numberedColumns ((Predicate.boundValues ps).length + 1)
          (columns.map Prod.fst)) ++ s.numberedFilter table ps := by
  have hblock : (Bindings.names (s.bindings ++ new ++ [])).Nodup := by simpa using hn
  have hnumbers := hc.write_marks hblock hm
  rw [List.append_nil, h.length_eq] at hnumbers
  rw [List.append_assoc, write_updateHead _ ht,
    (assignments_written hc).write_append _ (s.isApart_writeFilter table),
    hc.write_assignments hnumbers, h.write_writeFilter ht, List.append_assoc]

end Session

end FluentSql
