import FluentSql.Proofs.Condition.Reading
import FluentSql.Proofs.Session.History

namespace FluentSql

/-- The error of a reading that fails. -/
def errorOf? {ε α : Type} : Except ε α → Option ε
  | .error e => some e
  | .ok _ => none

namespace Call

def table? : Call → Option Text
  | retarget table => some table
  | _ => none

/-- The error of a call that fails. It depends on the call and the configuration, and on nothing
that was called before. -/
def fault? (config : QueryConfig) : Call → Option Error
  | retarget table => errorOf? (Role.table.read table)
  | filter condition =>
    (errorOf? (Session.readCondition config.malformed condition).1).map Error.condition
  | groupBy columns => errorOf? (Column.readAll columns)
  | orderBy columns => errorOf? (Session.readOrder columns)
  | primaryKey column => errorOf? (Role.primaryKey.read column)
  | _ => none

/-- The table that the query was last started against. -/
def lastTable (table : Text) (calls : List Call) : Text :=
  (calls.reverse.findSome? table?).getD table

/-- The call that last started the query, and the calls since then in their order. -/
def sinceStart (table : Text) (calls : List Call) : List Call :=
  .retarget (lastTable table calls) :: (recent calls).reverse

/-- The error of the first of these calls that fails. -/
def firstFault? (config : QueryConfig) (table : Text) (calls : List Call) : Option Error :=
  (sinceStart table calls).findSome? (fault? config)

theorem sinceStart_retarget (table again : Text) (calls : List Call) :
    sinceStart table (calls ++ [.retarget again]) = [.retarget again] := by
  have hlast : lastTable table (calls ++ [.retarget again]) = again := by
    rw [lastTable, List.reverse_append]
    rfl
  rw [sinceStart, hlast, recent_retarget]
  rfl

theorem sinceStart_concat (table : Text) (calls : List Call) {c : Call}
    (h : c.isRetarget = false) :
    sinceStart table (calls ++ [c]) = sinceStart table calls ++ [c] := by
  have hc : c.table? = none := by
    cases c with
    | retarget => simp [isRetarget] at h
    | _ => rfl
  have hlast : lastTable table (calls ++ [c]) = lastTable table calls := by
    simp [lastTable, hc]
  rw [sinceStart, sinceStart, hlast, recent_concat calls h, List.reverse_cons, List.cons_append]

end Call

namespace Session

theorem terms_words (bs : Bindings) {ps : List Condition.Predicate}
    (h : ∀ p ∈ ps, Text.isWord p.column = true) : ∃ r, terms bs ps = .ok r := by
  induction ps generalizing bs with
  | nil => exact ⟨_, rfl⟩
  | cons p ps ih =>
    have hp : Role.column.read p.column = .ok ⟨[p.column]⟩ := Role.read_word _ (h p (by simp))
    have hterm : ∃ t, term bs p = .ok t := by
      rw [term_eq, hp]
      exact ⟨_, rfl⟩
    obtain ⟨t, ht⟩ := hterm
    obtain ⟨r, hr⟩ := ih t.2 fun q hq => h q (by simp [hq])
    rw [terms_cons, ht]
    change ∃ r', (terms t.2 ps).map _ = .ok r'
    rw [hr]
    exact ⟨_, rfl⟩

theorem start_fault (config : QueryConfig) (table : Text) :
    (start config table).fault = Call.fault? config (.retarget table) := by
  change _ = errorOf? (Role.table.read table)
  unfold start
  cases Role.table.read table <;> rfl

/-- A condition that is read becomes the filter. -/
theorem setFilter_ok (s : Session) {condition : Text} {ps : List Condition.Predicate}
    (h : (readCondition s.config.malformed condition).1 = .ok ps) : ∃ ts bs,
      terms (s.bindings.removeClause .filter) ps = .ok (ts, bs) ∧
      (s.setFilter condition).1 = { s with filter := ts, bindings := bs } := by
  obtain ⟨r, hterms⟩ := terms_words (s.bindings.removeClause .filter) (readCondition_words h).2
  refine ⟨r.1, r.2, hterms, ?_⟩
  unfold setFilter
  simp only [h, hterms]

/-- A filter fails with its condition only: the columns of a condition that is read are names. -/
theorem setFilter_fault (s : Session) (condition : Text) :
    (s.setFilter condition).1.fault =
      s.fault.or (Call.fault? s.config (.filter condition)) := by
  unfold setFilter Call.fault?
  dsimp only
  cases hr : (readCondition s.config.malformed condition).1 with
  | error e => rfl
  | ok ps =>
    obtain ⟨r, hterms⟩ :=
      terms_words (s.bindings.removeClause .filter) (readCondition_words hr).2
    simp [hterms, errorOf?]

/-- A call adds its own error to a session that has none; starting anew forgets the one there was. -/
theorem apply_fault (s : Session) (c : Call) : (s.apply c).1.fault =
    if c.isRetarget then c.fault? s.config else s.fault.or (c.fault? s.config) := by
  cases c with
  | retarget table => exact start_fault s.config table
  | filter condition => exact s.setFilter_fault condition
  | groupBy columns =>
    change (s.setGroupBy columns).fault = s.fault.or (errorOf? (Column.readAll columns))
    unfold setGroupBy
    cases Column.readAll columns with
    | ok => exact (Option.or_none).symm
    | error e => rfl
  | orderBy columns =>
    change (s.setOrderBy columns).fault = s.fault.or (errorOf? (readOrder columns))
    unfold setOrderBy
    cases readOrder columns with
    | ok => exact (Option.or_none).symm
    | error e => rfl
  | primaryKey column =>
    change (s.setPrimaryKey column).fault = s.fault.or (errorOf? (Role.primaryKey.read column))
    unfold setPrimaryKey
    cases Role.primaryKey.read column with
    | ok => exact (Option.or_none).symm
    | error e => rfl
  | limit count page =>
    have hlimit : (s.setLimit count page).fault = s.fault := by
      unfold setLimit
      cases page with
      | none => rfl
      | some p =>
        dsimp only
        split_ifs <;> rfl
    exact hlimit.trans Option.or_none.symm
  | offset rows => exact Option.or_none.symm
  | allowUnfiltered allow => exact Option.or_none.symm

/-- After any calls, a session holds the error of the first that failed since the query was last
started. -/
theorem run_fault (config : QueryConfig) (table : Text) (calls : List Call) :
    ((start config table).run calls).fault = Call.firstFault? config table calls := by
  induction calls using List.reverseRecOn with
  | nil =>
    rw [Call.firstFault?, Call.sinceStart, Call.lastTable]
    simp [run, Call.recent, start_fault]
  | append_singleton calls c ih =>
    have hconfig := (run_remembers config table calls).config_eq
    rw [run_concat, apply_fault, ih, hconfig]
    cases hr : c.isRetarget with
    | true =>
      cases c with
      | retarget again => simp [Call.firstFault?, Call.sinceStart_retarget]
      | _ => simp [Call.isRetarget] at hr
    | false =>
      rw [Call.firstFault?, Call.firstFault?, Call.sinceStart_concat table calls hr,
        List.findSome?_append]
      simp

end Session

end FluentSql
