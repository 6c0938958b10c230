import FluentSql.Proofs.Session.Values
import FluentSql.Session.Perform

namespace FluentSql

open Condition (Predicate)

/-- Whether a term tests what a predicate says: its column for null, or by its comparison with a
placeholder that its value is bound to. -/
def FilterTerm.Tests (bs : Bindings) (p : Predicate) (t : FilterTerm) : Prop :=
  t.column = ⟨[p.column]⟩ ∧
    if p.asksNull then t.test = p.nullTest
    else ∃ m, t.test = .compare p.op m ∧ ⟨m, .filter, Value.ofLiteral p.value⟩ ∈ bs

def Command.isWrite : Command → Bool
  | update _ => true
  | delete => true
  | _ => false

namespace Session

/-- What a policy accepts of a condition: all of its predicates, or those that can be read. -/
def Accepts (policy : MalformedPolicy) (condition : Text) (ps : List Predicate) : Prop :=
  match policy with
  | .reject => Condition.parse condition = .ok ps
  | .skip => ∃ r, Condition.parseLenient condition = .ok r ∧ r.accepted = ps

/-- The filter joins the predicates that are accepted of the last condition, and there is one at
least. -/
structure Confined (config : QueryConfig) (calls : List Call) (s : Session) (ps : List Predicate)
    (filter : Text) : Prop where
  accepted : ∃ condition, Call.lastCondition? calls = some condition ∧
    Accepts config.malformed condition ps
  nonempty : ps ≠ []
  tests : List.Forall₂ (FilterTerm.Tests s.bindings) ps s.filter
  text : filter = " WHERE ".toList ++ Text.joinWith " AND ".toList (s.filter.map FilterTerm.toSql)

/-- There is no condition, and writes without one are permitted. -/
structure Unconfined (config : QueryConfig) (calls : List Call) (ps : List Predicate)
    (filter : Text) : Prop where
  condition : Call.lastCondition? calls = none
  permitted : (Call.lastPermission? calls).getD (config.unfiltered == .allow) = true
  predicates : ps = []
  text : filter = []

/-- A write ends in the rows that it is on, as it is written and as it is sent; the columns that an
update sets come before them. -/
def Writes (s : Session) (table : Identifier) (ps : List Predicate) (filter : Text)
    (t : Statement) : Command → Prop
  | .update values => ∃ columns : List (Identifier × Text),
      List.Forall₂ (fun value column => Role.column.read value.1 = .ok column) values
        (columns.map Prod.fst) ∧ NamedColumns columns ∧
      t.namedSql = updateHead table ++
        commaList (columns.map fun c => c.1.toSql ++ " = ".toList ++ c.2) ++
        rowsOf table filter s.boundsText ∧
      t.compiled.sql = updateHead table ++
        commaList (numberedColumns ((Predicate.boundValues ps).length + 1)
          (columns.map Prod.fst)) ++
        rowsOf table (Predicate.numberedWhere ps) s.boundsText
  | .delete =>
      t.namedSql = deleteHead table ++ rowsOf table filter s.boundsText ∧
      t.compiled.sql = deleteHead table ++
        rowsOf table (Predicate.numberedWhere ps) s.boundsText
  | _ => False

theorem Filtered.tests {bs bs' : Bindings} {ps : List Predicate} {ts : List FilterTerm}
    (h : Filtered bs ps ts bs') (hw : ∀ p ∈ ps, Text.isWord p.column = true) :
    List.Forall₂ (FilterTerm.Tests bs') ps ts := by
  induction h with
  | nil => exact .nil
  | @null bs _ p _ column _ hc hn _ ih =>
    obtain rfl := Role.read_of_word hc (hw p (by simp))
    refine .cons ⟨rfl, ?_⟩ (ih fun q hq => hw q (by simp [hq]))
    rw [if_pos hn]
  | @value bs _ p _ column _ hc hn hrest ih =>
    obtain rfl := Role.read_of_word hc (hw p (by simp))
    refine .cons ⟨rfl, ?_⟩ (ih fun q hq => hw q (by simp [hq]))
    obtain ⟨new, rfl, _⟩ := hrest.extends_bindings
    rw [if_neg (by simp [hn])]
    exact ⟨_, rfl, by simp⟩

theorem readCondition_accepts {policy : MalformedPolicy} {condition : Text} {ps : List Predicate}
    (h : (readCondition policy condition).1 = .ok ps) : Accepts policy condition ps := by
  cases policy with
  | reject => exact h
  | skip =>
    unfold readCondition at h
    dsimp only at h
    split at h
    · cases h
    · next r hr =>
      refine ⟨r, hr, ?_⟩
      by_cases ha : r.accepted.isEmpty = true
      · simp [ha] at h
      · rw [if_neg ha] at h
        exact Except.ok.inj h

variable {config : QueryConfig} {calls : List Call} {s : Session} {ps : List Predicate}

theorem Remembers.permitted (h : Remembers config calls s) : s.mayWriteUnfiltered =
    (Call.lastPermission? calls).getD (config.unfiltered == .allow) := by
  rw [mayWriteUnfiltered, h.config_eq, h.permission]

/-- A write that the guard lets pass has a filter from the last condition, or needs none. -/
theorem Remembers.confined_or_unconfined (h : Remembers config calls s)
    (hps : Call.lastPredicates config calls = .ok ps) (hr : s.Reads ps)
    (hg : s.filter ≠ [] ∨ s.mayWriteUnfiltered = true) :
    Confined config calls s ps s.whereClause ∨ Unconfined config calls ps s.whereClause := by
  unfold Call.lastPredicates at hps
  cases hc : Call.lastCondition? calls with
  | some condition =>
    rw [hc] at hps
    obtain ⟨hne, hwords⟩ := readCondition_words hps
    have hfilter : s.filter ≠ [] := hr.filtered.ne_nil hne
    refine .inl ⟨⟨condition, hc, readCondition_accepts hps⟩, hne, hr.filtered.tests hwords, ?_⟩
    unfold whereClause
    rw [if_neg (by simpa using hfilter)]
  | none =>
    rw [hc] at hps
    obtain rfl := Except.ok.inj hps
    have hfilter : s.filter = [] := List.length_eq_zero_iff.mp hr.filtered.length_eq
    refine .inr ⟨hc, ?_, rfl, by simp [whereClause, hfilter]⟩
    rcases hg with hg | hg
    · exact absurd hfilter hg
    · exact h.permitted.symm.trans hg

theorem numberedFilter_eq (s : Session) (table : Identifier) (ps : List Predicate) :
    s.numberedFilter table ps = rowsOf table (Predicate.numberedWhere ps) s.boundsText := by
  rw [numberedFilter, bounds_eq]

/-- A write that is drafted has passed the guard, and its filter stands where its rows are named. -/
theorem Reads.writes (h : s.Reads ps) {command : Command} {bs : Bindings} {t : Statement}
    (hw : command.isWrite = true) (hd : Drafted s command t.namedSql bs)
    (hc : bs.compile t.namedSql = .ok t.compiled) :
    (s.filter ≠ [] ∨ s.mayWriteUnfiltered = true) ∧
      ∃ table, s.target = .ok table ∧ s.Writes table ps s.whereClause t command := by
  generalize hsql : t.namedSql = sql at hd
  cases hd with
  | @update _ _ table columns _ ht _ hg hb =>
    have hcarries := h.carries_update (h.wellNamed.target ht) hb hc hsql
    rw [numberedFilter_eq] at hcarries
    rw [writeFilter_eq] at hsql
    exact ⟨hg, table, ht, columns, hb.columns_read, hb.namedColumns, hsql, hcarries.sql_eq⟩
  | @delete _ table ht hg =>
    have hcarries := h.carries_delete (h.wellNamed.target ht) hc hsql
    rw [numberedFilter_eq] at hcarries
    rw [writeFilter_eq] at hsql
    exact ⟨hg, table, ht, hsql, hcarries.sql_eq⟩
  | _ => simp [Command.isWrite] at hw

/-- A command that makes no statement never reaches the client. -/
theorem perform_error {command : Command} {e : Error} (h : (s.draft command).result = .error e)
    {σ : Type} (client : Client σ) (state : σ) :
    s.perform client command state = ⟨.error e, (s.draft command).events, state⟩ := by
  unfold perform
  dsimp only
  rw [h]

/-- No write reaches rows that it was not meant for: after any calls, an update or delete that is
made is on the rows of the last condition, or is permitted to do without one; bounds pick among
those rows and never stand in for a condition. Any other fails, and the client is never called. -/
theorem write_confined (config : QueryConfig) (table : Text) (calls : List Call)
    (command : Command) (hw : command.isWrite = true) :
    let s := (start config table).run calls
    (∃ t name ps filter, (s.draft command).result = .ok t ∧ s.target = .ok name ∧
      s.Writes name ps filter t command ∧
      (Confined config calls s ps filter ∨ Unconfined config calls ps filter)) ∨
    ∃ e, (s.draft command).result = .error e ∧ ∀ {σ : Type} (client : Client σ) (state : σ),
      s.perform client command state = ⟨.error e, (s.draft command).events, state⟩ := by
  intro s
  cases h : (s.draft command).result with
  | ok t =>
    obtain ⟨bs, hd, hc⟩ := draft_ok h
    obtain ⟨ps, hps, hreads⟩ := run_reads config table calls hd.fault
    obtain ⟨hg, name, ht, hwrites⟩ := hreads.writes hw hd hc
    have hr : Remembers config calls s := run_remembers config table calls
    exact .inl ⟨t, name, ps, s.whereClause, rfl, ht, hwrites,
      hr.confined_or_unconfined hps hreads hg⟩
  | error e => exact .inr ⟨e, rfl, fun client state => perform_error h client state⟩

theorem write_confined_delete :
    let calls : List Call := [.allowUnfiltered true, .retarget "orders".toList,
      .filter "id = 5, note != null".toList, .limit 3 none]
    let s := (start {} "users".toList).run calls
    ∃ t ps filter, (s.draft .delete).result = .ok t ∧ Confined {} calls s ps filter ∧
      t.namedSql = "DELETE FROM \"orders\" WHERE ctid IN (SELECT ctid FROM \"orders\" ".toList ++
        "WHERE \"id\" = :id_where AND \"note\" IS NOT NULL LIMIT 3)".toList ∧
      t.compiled.sql = "DELETE FROM \"orders\" WHERE ctid IN (SELECT ctid FROM \"orders\" ".toList ++
        "WHERE \"id\" = $1 AND \"note\" IS NOT NULL LIMIT 3)".toList := by
  intro calls s
  obtain ⟨t, ht⟩ : ∃ t, (s.draft .delete).result = .ok t := ⟨_, rfl⟩
  rcases write_confined {} "users".toList calls .delete rfl with
    ⟨u, name, ps, filter, hu, hname, ⟨hnamed, hsent⟩, hc | hc⟩ | ⟨e, he, _⟩
  · obtain rfl : ⟨["orders".toList]⟩ = name := Except.ok.inj hname
    obtain ⟨condition, hcondition, haccepts⟩ := hc.accepted
    obtain rfl : "id = 5, note != null".toList = condition := Option.some.inj hcondition
    obtain rfl : [⟨"id".toList, .eq, "5".toList⟩, ⟨"note".toList, .ne, "null".toList⟩] = ps :=
      Except.ok.inj haccepts
    have htext := hc.text
    subst htext
    exact ⟨u, _, _, hu, hc, hnamed.trans (by decide +kernel), hsent.trans (by decide +kernel)⟩
  · exact absurd hc.condition (by decide)
  · exact absurd (ht.symm.trans he) (by simp)

end Session

end FluentSql
