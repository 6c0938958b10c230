import FluentSql.Proofs.Session.Filter
import Mathlib.Data.List.Induction

namespace FluentSql

namespace Call

def isRetarget : Call → Bool
  | retarget _ => true
  | _ => false

def condition? : Call → Option Text
  | filter condition => some condition
  | _ => none

def permission? : Call → Option Bool
  | allowUnfiltered allow => some allow
  | _ => none

/-- The calls since the query was last started, the latest first. -/
def recent (calls : List Call) : List Call := calls.reverse.takeWhile fun c => !c.isRetarget

/-- What the last filter call since then was given. -/
def lastCondition? (calls : List Call) : Option Text := (recent calls).findSome? condition?

/-- What the last permission since then was. -/
def lastPermission? (calls : List Call) : Option Bool := (recent calls).findSome? permission?

/-- What the policy reads in the last condition; nothing, if there is none. -/
def lastPredicates (config : QueryConfig) (calls : List Call) :
    Except Condition.Fault (List Condition.Predicate) :=
  match lastCondition? calls with
  | some condition => (Session.readCondition config.malformed condition).1
  | none => .ok []

theorem recent_retarget (calls : List Call) (table : Text) :
    recent (calls ++ [.retarget table]) = [] := by
  simp [recent, isRetarget]

theorem recent_concat (calls : List Call) {c : Call} (h : c.isRetarget = false) :
    recent (calls ++ [c]) = c :: recent calls := by
  simp [recent, h]

end Call

namespace Session

theorem run_concat (s : Session) (calls : List Call) (c : Call) :
    s.run (calls ++ [c]) = ((s.run calls).apply c).1 := by
  simp [run]

theorem fail_fault (s : Session) (e : Error) : (s.fail e).fault ≠ none := by
  unfold fail
  cases s.fault <;> simp

/-- What a call leaves of a session that it does not start, filter or permit anew. -/
structure KeepsFilter (s t : Session) : Prop where
  config : t.config = s.config
  filter : t.filter = s.filter
  bindings : t.bindings = s.bindings
  unfiltered : t.unfiltered = s.unfiltered
  fault : t.fault = none → s.fault = none

theorem fail_keepsFilter (s : Session) (e : Error) : s.KeepsFilter (s.fail e) :=
  ⟨rfl, rfl, rfl, rfl, fun h => absurd h (s.fail_fault e)⟩

theorem apply_keepsFilter (s : Session) (c : Call) (hr : c.isRetarget = false)
    (hc : c.condition? = none) (hp : c.permission? = none) : s.KeepsFilter (s.apply c).1 := by
  cases c with
  | retarget => simp [Call.isRetarget] at hr
  | filter => simp [Call.condition?] at hc
  | allowUnfiltered => simp [Call.permission?] at hp
  | groupBy columns =>
    change s.KeepsFilter (s.setGroupBy columns)
    unfold setGroupBy
    split
    · exact ⟨rfl, rfl, rfl, rfl, id⟩
    · exact s.fail_keepsFilter _
  | orderBy columns =>
    change s.KeepsFilter (s.setOrderBy columns)
    unfold setOrderBy
    split
    · exact ⟨rfl, rfl, rfl, rfl, id⟩
    · exact s.fail_keepsFilter _
  | limit count page =>
    change s.KeepsFilter (s.setLimit count page)
    unfold setLimit
    split
    · split_ifs <;> exact ⟨rfl, rfl, rfl, rfl, id⟩
    · exact ⟨rfl, rfl, rfl, rfl, id⟩
  | offset rows => exact ⟨rfl, rfl, rfl, rfl, id⟩
  | primaryKey column =>
    change s.KeepsFilter (s.setPrimaryKey column)
    unfold setPrimaryKey
    split
    · exact ⟨rfl, rfl, rfl, rfl, id⟩
    · exact s.fail_keepsFilter _

/-- What a session remembers of the calls that led to it. -/
structure Remembers (config : QueryConfig) (calls : List Call) (s : Session) : Prop where
  config_eq : s.config = config
  clauses : ∀ b ∈ s.bindings, b.clause = .filter
  permission : s.unfiltered = Call.lastPermission? calls
  predicates : s.fault = none →
    ∃ ps, Call.lastPredicates config calls = .ok ps ∧ Filtered [] ps s.filter s.bindings

theorem start_remembers (config : QueryConfig) {calls : List Call} (h : Call.recent calls = [])
    (table : Text) : Remembers config calls (start config table) := by
  have hp : Call.lastPermission? calls = none := by simp [Call.lastPermission?, h]
  have hc : Call.lastCondition? calls = none := by simp [Call.lastCondition?, h]
  unfold start
  split
  · exact ⟨rfl, by simp, hp.symm, fun _ => ⟨[], by simp [Call.lastPredicates, hc], .nil⟩⟩
  · exact ⟨rfl, by simp, hp.symm, fun hf => by simp at hf⟩

variable {config : QueryConfig} {calls : List Call} {s : Session}

theorem removeClause_filter (h : ∀ b ∈ s.bindings, b.clause = .filter) :
    s.bindings.removeClause .filter = [] := by
  simpa [Bindings.removeClause] using h

/-- A condition that fails leaves no filter, any other the filter of its predicates. -/
theorem setFilter_cases (s : Session) (condition : Text) :
    (∃ e, (s.setFilter condition).1 =
      fail { s with filter := [], bindings := s.bindings.removeClause .filter } e) ∨
    ∃ ps ts bs, (readCondition s.config.malformed condition).1 = .ok ps ∧
      Filtered (s.bindings.removeClause .filter) ps ts bs ∧
      (s.setFilter condition).1 = { s with filter := ts, bindings := bs } := by
  unfold setFilter
  dsimp only
  split
  · exact .inl ⟨_, rfl⟩
  · next ps hps =>
    split
    · exact .inl ⟨_, rfl⟩
    · next ts bs hterms => exact .inr ⟨ps, ts, bs, hps, terms_filtered hterms, rfl⟩

theorem setFilter_remembers (h : Remembers config calls s) (condition : Text) :
    Remembers config (calls ++ [.filter condition]) (s.setFilter condition).1 := by
  have hrecent := Call.recent_concat calls (c := .filter condition) rfl
  have hperm : s.unfiltered = Call.lastPermission? (calls ++ [.filter condition]) := by
    rw [h.permission, Call.lastPermission?, Call.lastPermission?, hrecent]
    rfl
  have hlast : Call.lastPredicates config (calls ++ [.filter condition]) =
      (readCondition s.config.malformed condition).1 := by
    rw [Call.lastPredicates, Call.lastCondition?, hrecent, h.config_eq]
    rfl
  have hcases := s.setFilter_cases condition
  rw [removeClause_filter h.clauses] at hcases
  rcases hcases with ⟨e, he⟩ | ⟨ps, ts, bs, hps, hfiltered, he⟩
  · rw [he]
    exact ⟨h.config_eq, by simp [fail], hperm, fun hf => absurd hf (fail_fault _ _)⟩
  · obtain ⟨new, rfl, _, _, hclause⟩ := hfiltered.extends_bindings
    rw [he]
    exact ⟨h.config_eq, by simpa using hclause, hperm, fun _ => ⟨ps, hlast.trans hps, hfiltered⟩⟩

theorem apply_remembers (h : Remembers config calls s) (c : Call) :
    Remembers config (calls ++ [c]) (s.apply c).1 := by
  by_cases hr : c.isRetarget = true
  · cases c with
    | retarget table =>
      rw [← h.config_eq]
      exact start_remembers s.config (Call.recent_retarget calls table) table
    | _ => simp [Call.isRetarget] at hr
  have hr : c.isRetarget = false := by simpa using hr
  have hrecent := Call.recent_concat calls hr
  cases hc : c.condition? with
  | some condition =>
    cases c with
    | filter condition => exact setFilter_remembers h condition
    | _ => simp [Call.condition?] at hc
  | none =>
    have hlast : Call.lastPredicates config (calls ++ [c]) = Call.lastPredicates config calls := by
      simp [Call.lastPredicates, Call.lastCondition?, hrecent, hc]
    cases hp : c.permission? with
    | some allow =>
      cases c with
      | allowUnfiltered a =>
        refine ⟨h.config_eq, h.clauses, ?_, hlast ▸ h.predicates⟩
        rw [Call.lastPermission?, hrecent]
        rfl
      | _ => simp [Call.permission?] at hp
    | none =>
      obtain ⟨hconfig, hfilter, hbindings, hunfiltered, hfault⟩ := s.apply_keepsFilter c hr hc hp
      refine ⟨hconfig.trans h.config_eq, hbindings ▸ h.clauses, ?_, fun hf => ?_⟩
      · rw [hunfiltered, h.permission, Call.lastPermission?, Call.lastPermission?, hrecent,
          List.findSome?_cons, hp]
      · rw [hlast, hfilter, hbindings]
        exact h.predicates (hfault hf)

/-- After any calls, the filter of a session that has not failed is that of the last condition. -/
theorem run_remembers (config : QueryConfig) (table : Text) (calls : List Call) :
    Remembers config calls ((start config table).run calls) := by
  induction calls using List.reverseRecOn with
  | nil => exact start_remembers config rfl table
  | append_singleton calls c ih =>
    rw [run_concat]
    exact apply_remembers ih c

end Session

end FluentSql
