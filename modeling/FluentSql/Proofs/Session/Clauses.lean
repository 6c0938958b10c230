import FluentSql.Proofs.Session.WellNamed

namespace FluentSql

open Statement

variable {M : Text → Prop}

theorem Identifier.IsPlain.written {i : Identifier} (h : i.IsPlain) : Written M i.toSql [] := by
  have hparts : ∀ p ∈ i.parts, Written M (quotePart p) [] := fun p hp => .plain_name (h.plain p hp)
  exact Written.joinWith_unmarked (by decide) (fun _ => rfl) hparts

theorem Column.IsPlain.written {c : Column} (h : c.IsPlain) : Written M c.toSql [] := by
  cases c with
  | all => exact Written.phrase (by decide)
  | named i => exact Identifier.IsPlain.written h

theorem Direction.toSql_written (d : Direction) : Written M d.toSql [] := by
  cases d
  · exact Written.phrase (by decide)
  · exact Written.phrase (by decide)

theorem Aggregate.toSql_mem (f : Aggregate) : f.toSql ∈ vocabulary := by
  cases f <;> decide

theorem Comparison.token_mem (op : Comparison) : op.token ∈ vocabulary := by
  cases op <;> decide

/-- A test writes its placeholder, if it has one, and nothing else that comes from a caller. -/
theorem FilterTerm.WellNamed.written {t : FilterTerm} (h : t.WellNamed) :
    Written IsNamed t.toSql t.placeholder?.toList := by
  obtain ⟨column, test⟩ := t
  have hcolumn : Written IsNamed column.toSql [] := h.column.written
  cases test with
  | isNull =>
    have htest : Written IsNamed " IS NULL".toList [] := .phrase (by decide)
    exact hcolumn.append htest rfl
  | isNotNull =>
    have htest : Written IsNamed " IS NOT NULL".toList [] := .phrase (by decide)
    exact hcolumn.append htest rfl
  | compare op m =>
    have hmark : Written IsNamed m [m] := .single_mark (h.placeholder m rfl)
    have htest : Written IsNamed ([' '] ++ (op.token ++ ([' '] ++ m))) [m] :=
      .word (by decide) (.word op.token_mem (.word (by decide) hmark))
    exact hcolumn.append htest rfl

namespace Session

/-- Items with commas between them. -/
theorem commaList_written {α : Type} {items : List α} {f : α → Text} {g : α → List Text}
    (h : ∀ a ∈ items, Written M (f a) (g a)) :
    Written M (commaList (items.map f)) (items.flatMap g) :=
  Written.joinWith (by decide) (fun _ => rfl) h

theorem commaList_unmarked {α : Type} {items : List α} {f : α → Text}
    (h : ∀ a ∈ items, Written M (f a) []) : Written M (commaList (items.map f)) [] :=
  Written.joinWith_unmarked (by decide) (fun _ => rfl) h

/-- A clause of the items that it is about, behind its keyword; nothing, if there are none. -/
def clauseOf (keyword separator : Text) (items : List Text) : Text :=
  if items.isEmpty then [] else ' ' :: (keyword ++ ' ' :: Text.joinWith separator items)

theorem isApart_clauseOf (keyword separator : Text) (items : List Text) :
    isApart (clauseOf keyword separator items) = true := by
  unfold clauseOf
  split_ifs <;> rfl

section Written

variable {α : Type} {keyword separator : Text} {items : List α} {f : α → Text}

/-- A clause has the placeholders of its items. -/
theorem clauseOf_written {g : α → List Text} (hk : isPhrase (' ' :: (keyword ++ [' '])) = true)
    (hs : isPhrase separator = true) (ha : ∀ t, isApart (separator ++ t) = true)
    (h : ∀ a ∈ items, Written M (f a) (g a)) :
    Written M (clauseOf keyword separator (items.map f)) (items.flatMap g) := by
  unfold clauseOf
  split_ifs with he
  · obtain rfl : items = [] := by simpa using he
    exact .nil
  · have hclause := Written.phrase_append hk (Written.joinWith hs ha h)
    simpa using hclause

/-- Where the items have no placeholders, neither does a list of them. -/
theorem listClause_written (hk : isPhrase (' ' :: (keyword ++ [' '])) = true)
    (h : ∀ a ∈ items, Written M (f a) []) :
    Written M (clauseOf keyword ", ".toList (items.map f)) [] := by
  have hw : Written M (clauseOf keyword ", ".toList (items.map f)) (items.flatMap fun _ => []) :=
    clauseOf_written hk (by decide) (fun _ => rfl) h
  rwa [List.flatMap_eq_nil_iff.mpr fun _ _ => rfl] at hw

end Written

/-- The placeholders of the filter, in the order of its terms. -/
def filterMarks (s : Session) : List Text := s.filter.filterMap FilterTerm.placeholder?

variable {s : Session}

theorem whereClause_eq (s : Session) : s.whereClause =
    clauseOf "WHERE".toList " AND ".toList (s.filter.map FilterTerm.toSql) := by
  rw [whereClause, clauseOf, List.isEmpty_map]
  rfl

theorem groupClause_eq (s : Session) : s.groupClause =
    clauseOf "GROUP BY".toList ", ".toList (s.groupBy.map Column.toSql) := by
  rw [groupClause, clauseOf, List.isEmpty_map]
  rfl

theorem orderClause_eq (s : Session) : s.orderClause =
    clauseOf "ORDER BY".toList ", ".toList
      (s.orderBy.map fun t => t.1.toSql ++ ' ' :: t.2.toSql) := by
  rw [orderClause, clauseOf, List.isEmpty_map]
  rfl

theorem limitClause_eq (s : Session) : s.limitClause =
    clauseOf "LIMIT".toList ", ".toList (s.limit.toList.map Text.decimal) := by
  unfold limitClause
  cases s.limit <;> rfl

theorem offsetClause_eq (s : Session) : s.offsetClause =
    clauseOf "OFFSET".toList ", ".toList (s.offset.toList.map Text.decimal) := by
  unfold offsetClause
  cases s.offset <;> rfl

theorem isApart_whereClause (s : Session) : isApart s.whereClause = true := by
  rw [whereClause_eq]
  exact isApart_clauseOf _ _ _

theorem isApart_groupClause (s : Session) : isApart s.groupClause = true := by
  rw [groupClause_eq]
  exact isApart_clauseOf _ _ _

/-- The clauses after the filter, each with what the session has for it. -/
def boundsText (s : Session) : Text :=
  clauseOf "GROUP BY".toList ", ".toList (s.groupBy.map Column.toSql) ++
    clauseOf "ORDER BY".toList ", ".toList
      (s.orderBy.map fun t => t.1.toSql ++ ' ' :: t.2.toSql) ++
    clauseOf "LIMIT".toList ", ".toList (s.limit.toList.map Text.decimal) ++
    clauseOf "OFFSET".toList ", ".toList (s.offset.toList.map Text.decimal)

theorem bounds_eq (s : Session) : s.bounds = s.boundsText := by
  rw [bounds, groupClause_eq, orderClause_eq, limitClause_eq, offsetClause_eq, boundsText]

theorem isApart_bounds (s : Session) : isApart s.bounds = true := by
  have hapart := isApart_clauseOf
  rw [bounds_eq]
  exact isApart_append (isApart_append (isApart_append (hapart _ _ _) (hapart _ _ _))
    (hapart _ _ _)) (hapart _ _ _)

/-- The rows that a write is on: those of its filter or, where there are bounds, those that a
selection with the filter and the bounds finds. -/
def rowsOf (table : Identifier) (filter bounds : Text) : Text :=
  if bounds.isEmpty then filter
  else " WHERE ctid IN (SELECT ctid FROM ".toList ++ table.toSql ++ filter ++ bounds ++ [')']

theorem writeFilter_eq (s : Session) (table : Identifier) :
    s.writeFilter table = rowsOf table s.whereClause s.boundsText := by
  rw [writeFilter, rowsOf, bounds_eq]

theorem isApart_writeFilter (s : Session) (table : Identifier) :
    isApart (s.writeFilter table) = true := by
  unfold writeFilter
  split_ifs
  · exact s.isApart_whereClause
  · rfl

theorem rowSelection_written {table : Identifier} (ht : table.IsPlain) :
    Written M (" WHERE ctid IN (SELECT ctid FROM ".toList ++ table.toSql) [] :=
  .phrase_append (by decide) ht.written

namespace WellNamed

theorem whereClause_written (h : s.WellNamed) : Written IsNamed s.whereClause s.filterMarks := by
  rw [whereClause_eq, filterMarks, List.filterMap_eq_flatMap_toList]
  exact clauseOf_written (by decide) (by decide) (fun _ => rfl) fun t ht =>
    (h.filter t ht).written

theorem groupClause_written (h : s.WellNamed) : Written M s.groupClause [] := by
  rw [groupClause_eq]
  exact listClause_written (by decide) fun c hc => (h.groupBy c hc).written

theorem orderTerm_written (h : s.WellNamed) {t : Identifier × Direction} (ht : t ∈ s.orderBy) :
    Written M (t.1.toSql ++ ' ' :: t.2.toSql) [] := by
  have hdirection : Written M ([' '] ++ t.2.toSql) [] := .word (by decide) t.2.toSql_written
  exact (h.orderBy t ht).written.append hdirection rfl

theorem bounds_written (h : s.WellNamed) : Written M s.bounds [] := by
  have hapart := isApart_clauseOf
  have hgroup : Written M s.groupClause [] := h.groupClause_written
  rw [groupClause_eq] at hgroup
  have horder : Written M (clauseOf "ORDER BY".toList ", ".toList
      (s.orderBy.map fun t => t.1.toSql ++ ' ' :: t.2.toSql)) [] :=
    listClause_written (by decide) fun t ht => h.orderTerm_written ht
  have hcount {keyword : Text} (hk : isPhrase (' ' :: (keyword ++ [' '])) = true)
      (count : Option Nat) :=
    listClause_written (M := M) hk fun n (_ : n ∈ count.toList) => .single_item (.numeral n)
  rw [bounds_eq]
  exact ((hgroup.append horder (hapart _ _ _)).append (hcount (by decide) s.limit)
    (hapart _ _ _)).append (hcount (by decide) s.offset) (hapart _ _ _)

theorem primaryKeySql_written (h : s.WellNamed) : Written M s.primaryKeySql [] := by
  unfold primaryKeySql
  split
  · next name hn => exact (h.primaryKey name hn).written
  · exact .single_item (.name (p := "id".toList) rfl)

/-- Bounds go behind the filter, into the selection of the rows that are written. -/
theorem writeFilter_written (h : s.WellNamed) {table : Identifier} (ht : table.IsPlain) :
    Written IsNamed (s.writeFilter table) s.filterMarks := by
  unfold writeFilter
  split_ifs
  · exact h.whereClause_written
  · have hhead := rowSelection_written (M := IsNamed) ht
    have hbody := (hhead.append h.whereClause_written s.isApart_whereClause).append
      h.bounds_written s.isApart_bounds
    have hclose : Written IsNamed [')'] [] := .phrase (by decide)
    simpa using hbody.append hclose rfl

end WellNamed

end Session

end FluentSql
