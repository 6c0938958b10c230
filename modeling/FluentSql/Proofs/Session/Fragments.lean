import FluentSql.Proofs.Binding.Rewriting
import FluentSql.Proofs.Session.Wording
import FluentSql.Proofs.Text.Spacing

namespace FluentSql

open Text (IsSolid spacedFrom spacedFrom_append spaced_append spacedFrom_solid spacedFrom_joinWith)

/-- A plain name as statements have it. -/
def IsName (t : Text) : Prop := ∃ i : Identifier, i.IsPlain ∧ t = i.toSql

def IsColumn (t : Text) : Prop := t = ['*'] ∨ IsName t

def IsNumeral (t : Text) : Prop := ∃ n, t = Text.decimal n

inductive IsPredicate : Text → Prop
  | isNull {n : Text} : IsName n → IsPredicate (n ++ " IS NULL".toList)
  | isNotNull {n : Text} : IsName n → IsPredicate (n ++ " IS NOT NULL".toList)
  | compare {n m : Text} (op : Comparison) : IsName n → Statement.IsNamed m →
      IsPredicate (n ++ ' ' :: (op.token ++ ' ' :: m))

inductive IsOrder : Text → Prop
  | mk {n : Text} (d : Direction) : IsName n → IsOrder (n ++ ' ' :: d.toSql)

/-- One or more items with a separator between them. -/
def IsList (separator : Text) (IsItem : Text → Prop) (t : Text) : Prop :=
  ∃ items : List Text, items ≠ [] ∧ (∀ i ∈ items, IsItem i) ∧ t = Text.joinWith separator items

/-- Nothing, or one complete clause: a space, a keyword, a space and what the keyword is about. -/
def IsFragment (keyword : Text) (IsBody : Text → Prop) (t : Text) : Prop :=
  t = [] ∨ ∃ body, IsBody body ∧ t = ' ' :: (keyword ++ ' ' :: body)

section Spacing

variable {t : Text}

theorem space_notMem {p : Char → Bool} (hp : p ' ' = false) (h : ∀ c ∈ t, p c = true) :
    ' ' ∉ t := by
  intro hm
  rw [h ' ' hm] at hp
  cases hp

theorem isSolid_decimal (n : Nat) : IsSolid (Text.decimal n) :=
  ⟨by simp [Text.decimal], space_notMem rfl (Text.decimal_chars n)⟩

theorem Statement.IsNamed.solid (h : Statement.IsNamed t) : IsSolid t := by
  obtain ⟨w, hw, rfl⟩ := h
  have hspace : ' ' ∉ w := space_notMem rfl (Placeholder.isNameChar_of_word hw)
  exact ⟨by simp, by simp [hspace]⟩

theorem IsName.spaced (h : IsName t) : spacedFrom true t = true := by
  obtain ⟨i, hi, rfl⟩ := h
  refine spacedFrom_joinWith (fun _ => Text.spacedFrom_false) (by simpa using hi.nonempty)
    fun p hp => ?_
  obtain ⟨q, hq, rfl⟩ := List.mem_map.mp hp
  have hspace : ' ' ∉ q := space_notMem rfl (Identifier.isPlain_chars (hi.plain q hq))
  rw [Identifier.quotePart_plain (hi.plain q hq)]
  exact spacedFrom_solid ⟨by simp, by simp [hspace]⟩ true

theorem Identifier.IsPlain.spaced {i : Identifier} (h : i.IsPlain) :
    spacedFrom true i.toSql = true := IsName.spaced ⟨i, h, rfl⟩

theorem IsColumn.spaced (h : IsColumn t) : spacedFrom true t = true := by
  rcases h with rfl | h
  · rfl
  · exact h.spaced

theorem IsNumeral.spaced (h : IsNumeral t) : spacedFrom true t = true := by
  obtain ⟨n, rfl⟩ := h
  exact spacedFrom_solid (isSolid_decimal n) true

theorem IsPredicate.spaced (h : IsPredicate t) : spacedFrom true t = true := by
  cases h with
  | isNull hn => rw [spacedFrom_append hn.spaced]; rfl
  | isNotNull hn => rw [spacedFrom_append hn.spaced]; rfl
  | @compare n m op hn hm =>
    have hmark := spacedFrom_solid hm.solid true
    rw [spacedFrom_append hn.spaced]
    cases op <;> exact hmark

theorem IsOrder.spaced (h : IsOrder t) : spacedFrom true t = true := by
  obtain ⟨d, hn⟩ := h
  rw [spacedFrom_append hn.spaced]
  cases d <;> rfl

theorem IsList.spaced {separator : Text} {IsItem : Text → Prop} (h : IsList separator IsItem t)
    (hs : ∀ t, spacedFrom true t = true → spacedFrom false (separator ++ t) = true)
    (hi : ∀ t, IsItem t → spacedFrom true t = true) : spacedFrom true t = true := by
  obtain ⟨items, hne, hitems, rfl⟩ := h
  exact spacedFrom_joinWith hs hne fun i hm => hi i (hitems i hm)

theorem IsFragment.spaced {keyword : Text} {IsBody : Text → Prop} (h : IsFragment keyword IsBody t)
    (hk : spacedFrom true keyword = true) (hb : ∀ t, IsBody t → spacedFrom true t = true) :
    spacedFrom false t = true := by
  rcases h with rfl | ⟨body, hbody, rfl⟩
  · rfl
  · have hclause : spacedFrom true (keyword ++ ' ' :: body) = true := by
      rw [spacedFrom_append hk]
      exact hb body hbody
    exact hclause

end Spacing

namespace Placeholder

/-- However placeholders are written, the spacing around them stays. -/
theorem spacedFrom_spell {f g : Text → Text} {ps : List Piece}
    (hf : ∀ n, .name n ∈ ps → IsSolid (f n)) (hg : ∀ n, .name n ∈ ps → IsSolid (g n)) (b : Bool) :
    spacedFrom b (spell f ps) = spacedFrom b (spell g ps) := by
  induction ps generalizing b with
  | nil => rfl
  | cons p ps ih =>
    have hrest := ih (fun n hn => hf n (by simp [hn])) fun n hn => hg n (by simp [hn])
    cases p with
    | char c => simp only [spell_cons_char, spacedFrom, hrest]
    | name n =>
      rw [spell_cons_name, spell_cons_name, spacedFrom_append (spacedFrom_solid (hf n (by simp)) b),
        spacedFrom_append (spacedFrom_solid (hg n (by simp)) b), hrest]

end Placeholder

theorem Bindings.spacedFrom_write (bs : Bindings) (sql : Text) (b : Bool) :
    spacedFrom b (bs.write sql) = spacedFrom b sql := by
  have hcovers := Placeholder.covers_pieces sql
  have hname : ∀ n, .name n ∈ Placeholder.pieces sql → IsSolid (':' :: n) := by
    intro n hn
    obtain ⟨l, r, hps⟩ := List.append_of_mem hn
    have hoccurs := (hcovers.occurs _ n).mpr ⟨l, r, hps, rfl⟩
    exact Statement.IsNamed.solid ⟨n, hoccurs.word, rfl⟩
  have hnumber : ∀ n, .name n ∈ Placeholder.pieces sql →
      IsSolid (byNumber bs.position n) := by
    intro n _
    have hdigits := isSolid_decimal (bs.position n)
    exact ⟨by simp [byNumber], by simp [byNumber, hdigits.2]⟩
  rw [write_eq_spell, Placeholder.spacedFrom_spell hnumber hname, hcovers.text]

theorem Column.IsPlain.column {c : Column} (h : c.IsPlain) : IsColumn c.toSql := by
  cases c with
  | all => exact .inl rfl
  | named i => exact .inr ⟨i, h, rfl⟩

theorem FilterTerm.WellNamed.predicate {t : FilterTerm} (h : t.WellNamed) :
    IsPredicate t.toSql := by
  obtain ⟨column, test⟩ := t
  have hname : IsName column.toSql := ⟨column, h.column, rfl⟩
  cases test with
  | isNull => exact .isNull hname
  | isNotNull => exact .isNotNull hname
  | compare op m => exact .compare op hname (h.placeholder m rfl)

namespace Session

variable {s : Session}

theorem isFragment_list {keyword separator : Text} {IsItem : Text → Prop} {α : Type} {xs : List α}
    {f : α → Text} (h : ∀ x ∈ xs, IsItem (f x)) :
    IsFragment keyword (IsList separator IsItem) (clauseOf keyword separator (xs.map f)) := by
  unfold clauseOf
  split_ifs with he
  · exact .inl rfl
  · refine .inr ⟨_, ⟨xs.map f, by simpa using he, ?_, rfl⟩, rfl⟩
    intro i hi
    obtain ⟨x, hx, rfl⟩ := List.mem_map.mp hi
    exact h x hx

theorem isFragment_numeral (keyword separator : Text) (count : Option Nat) :
    IsFragment keyword IsNumeral
      (clauseOf keyword separator (count.toList.map Text.decimal)) := by
  cases count with
  | none => exact .inl rfl
  | some n => exact .inr ⟨_, ⟨n, rfl⟩, rfl⟩

/-- Each of the texts that a session adds to its statements is a clause or nothing. -/
structure Fragmented (s : Session) : Prop where
  filter : IsFragment "WHERE".toList (IsList " AND ".toList IsPredicate) s.whereClause
  groupBy : IsFragment "GROUP BY".toList (IsList [',', ' '] IsColumn) s.groupClause
  orderBy : IsFragment "ORDER BY".toList (IsList [',', ' '] IsOrder) s.orderClause
  limit : IsFragment "LIMIT".toList IsNumeral s.limitClause
  offset : IsFragment "OFFSET".toList IsNumeral s.offsetClause

theorem WellNamed.fragmented (h : s.WellNamed) : s.Fragmented where
  filter := s.whereClause_eq ▸ isFragment_list fun t ht => (h.filter t ht).predicate
  groupBy := s.groupClause_eq ▸ isFragment_list fun c hc => (h.groupBy c hc).column
  orderBy := s.orderClause_eq ▸ isFragment_list fun o ho => .mk o.2 ⟨o.1, h.orderBy o ho, rfl⟩
  limit := s.limitClause_eq ▸ isFragment_numeral _ _ s.limit
  offset := s.offsetClause_eq ▸ isFragment_numeral _ _ s.offset

namespace Fragmented

theorem where_spaced (h : s.Fragmented) : spacedFrom false s.whereClause = true :=
  h.filter.spaced rfl fun _ hb => hb.spaced (fun _ ht => ht) fun _ => IsPredicate.spaced

theorem group_spaced (h : s.Fragmented) : spacedFrom false s.groupClause = true :=
  h.groupBy.spaced rfl fun _ hb => hb.spaced (fun _ ht => ht) fun _ => IsColumn.spaced

theorem bounds_spaced (h : s.Fragmented) : spacedFrom false s.bounds = true := by
  have horder : spacedFrom false s.orderClause = true :=
    h.orderBy.spaced rfl fun _ hb => hb.spaced (fun _ ht => ht) fun _ => IsOrder.spaced
  have hlimit : spacedFrom false s.limitClause = true :=
    h.limit.spaced rfl fun _ => IsNumeral.spaced
  have hoffset : spacedFrom false s.offsetClause = true :=
    h.offset.spaced rfl fun _ => IsNumeral.spaced
  exact spaced_append (spaced_append (spaced_append h.group_spaced horder) hlimit) hoffset

theorem writeFilter_spaced (h : s.Fragmented) {table : Identifier} (ht : table.IsPlain) :
    spacedFrom false (s.writeFilter table) = true := by
  have hrows : spacedFrom false
      (" WHERE ctid IN (SELECT ctid FROM ".toList ++ table.toSql) = true := ht.spaced
  have hclose : spacedFrom false [')'] = true := rfl
  unfold writeFilter
  split_ifs
  · exact h.where_spaced
  · exact spaced_append (spaced_append (spaced_append hrows h.where_spaced) h.bounds_spaced) hclose

end Fragmented

theorem commaList_spaced {α : Type} {xs : List α} {f : α → Text} (hne : xs ≠ [])
    (h : ∀ x ∈ xs, spacedFrom true (f x) = true) :
    spacedFrom true (commaList (xs.map f)) = true := by
  have hcomma : ∀ t, spacedFrom true t = true → spacedFrom false ([',', ' '] ++ t) = true :=
    fun _ ht => ht
  refine spacedFrom_joinWith hcomma (by simpa using hne) fun i hi => ?_
  obtain ⟨x, hx, rfl⟩ := List.mem_map.mp hi
  exact h x hx

theorem primaryKey_spaced (h : s.WellNamed) : spacedFrom true s.primaryKeySql = true := by
  unfold primaryKeySql
  split
  · next name hn => exact (h.primaryKey name hn).spaced
  · rfl

section Statements

variable {table : Identifier} {columns : List (Identifier × Text)}

theorem selectHead_spaced (ht : table.IsPlain) {cs : List Column} (h : ∀ c ∈ cs, c.IsPlain) :
    spacedFrom true (selectHead table cs) = true := by
  have hlist : spacedFrom true (columnList cs) = true := by
    unfold columnList
    split_ifs with he
    · rfl
    · exact commaList_spaced (by simpa using he) fun c hc => (h c hc).column.spaced
  have hselect : spacedFrom true ("SELECT ".toList ++ columnList cs) = true := hlist
  have hfrom : spacedFrom false (" FROM ".toList ++ table.toSql) = true := ht.spaced
  unfold selectHead
  rw [List.append_assoc]
  exact spaced_append hselect hfrom

theorem aggregateHead_spaced (ht : table.IsPlain) (f : Aggregate) {c : Column} (h : c.IsPlain) :
    spacedFrom true (aggregateHead table f c) = true := by
  have hfunction : spacedFrom true ("SELECT ".toList ++ f.toSql) = true := by
    cases f <;> rfl
  have hcolumn : spacedFrom false c.toSql = true := Text.spacedFrom_false h.column.spaced
  have hargument : spacedFrom false ('(' :: c.toSql) = true := hcolumn
  have hfrom : spacedFrom false (") AS total FROM ".toList ++ table.toSql) = true := ht.spaced
  unfold aggregateHead
  rw [List.append_assoc]
  exact spaced_append (spaced_append hfunction hargument) hfrom

theorem insert_spaced (hs : s.WellNamed) (ht : table.IsPlain) (hne : columns ≠ [])
    (hc : NamedColumns columns) :
    spacedFrom true (insertHead table (columns.map Prod.fst) ++ commaList (columns.map Prod.snd) ++
      ") RETURNING ".toList ++ s.primaryKeySql) = true := by
  have hinto : spacedFrom true ("INSERT INTO ".toList ++ table.toSql) = true := ht.spaced
  have hnames : spacedFrom false
      (commaList ((columns.map Prod.fst).map Identifier.toSql)) = true :=
    Text.spacedFrom_false (commaList_spaced (by simpa using hne) fun i hi => (hc.plain i hi).spaced)
  have hopen : spacedFrom false
      (" (".toList ++ commaList ((columns.map Prod.fst).map Identifier.toSql)) = true := hnames
  have hmarks : spacedFrom false (commaList (columns.map Prod.snd)) = true :=
    Text.spacedFrom_false
      (commaList_spaced hne fun c h => spacedFrom_solid (hc c h).2.solid true)
  have hvalues : spacedFrom false
      (") VALUES (".toList ++ commaList (columns.map Prod.snd)) = true := hmarks
  have hreturning : spacedFrom false (") RETURNING ".toList ++ s.primaryKeySql) = true :=
    primaryKey_spaced hs
  have hall := spaced_append (spaced_append (spaced_append hinto hopen) hvalues) hreturning
  simp only [← List.append_assoc] at hall
  exact hall

theorem update_spaced (ht : table.IsPlain) (hne : columns ≠ []) (hc : NamedColumns columns)
    (hw : spacedFrom false (s.writeFilter table) = true) :
    spacedFrom true (updateHead table ++
      commaList (columns.map fun c => c.1.toSql ++ " = ".toList ++ c.2) ++
        s.writeFilter table) = true := by
  have hitems : spacedFrom true
      (commaList (columns.map fun c => c.1.toSql ++ " = ".toList ++ c.2)) = true := by
    refine commaList_spaced hne fun c h => ?_
    have hvalue : spacedFrom false (" = ".toList ++ c.2) = true :=
      spacedFrom_solid (hc c h).2.solid true
    rw [List.append_assoc]
    exact spaced_append (hc c h).1.spaced hvalue
  have hupdate : spacedFrom true ("UPDATE ".toList ++ table.toSql) = true := ht.spaced
  have hset : spacedFrom false (" SET ".toList ++
      commaList (columns.map fun c => c.1.toSql ++ " = ".toList ++ c.2)) = true := hitems
  have hall := spaced_append (spaced_append hupdate hset) hw
  simp only [← List.append_assoc] at hall
  exact hall

/-- Whatever a command is given, its text is put together with single spaces. -/
theorem Drafted.spaced {command : Command} {sql : Text} {bs : Bindings}
    (h : Drafted s command sql bs) (hs : s.WellNamed) : spacedFrom true sql = true := by
  induction h with
  | select ht hcs =>
    have hhead := selectHead_spaced (hs.target ht) (Column.readAll_plain hcs)
    exact spaced_append (spaced_append hhead hs.fragmented.where_spaced) hs.fragmented.bounds_spaced
  | selectOne _ ih => exact ih hs.single
  | insert ht hv hb => exact insert_spaced hs (hs.target ht) (hb.ne_nil hv) hb.namedColumns
  | update ht hv _ hb =>
    have hfilter := hs.fragmented.writeFilter_spaced (hs.target ht)
    exact update_spaced (hs.target ht) (hb.ne_nil hv) hb.namedColumns hfilter
  | @delete s table ht _ =>
    have hdelete : spacedFrom true (deleteHead table) = true := (hs.target ht).spaced
    exact spaced_append hdelete (hs.fragmented.writeFilter_spaced (hs.target ht))
  | @aggregate s f _ _ _ ht hc =>
    have hhead := aggregateHead_spaced (hs.target ht) f (argument_plain hc)
    exact spaced_append (spaced_append hhead hs.fragmented.where_spaced) hs.fragmented.group_spaced

end Statements

end Session

end FluentSql
