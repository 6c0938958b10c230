import FluentSql.Proofs.Session.Settings

namespace FluentSql

/-- The operations that a query is built with. -/
inductive Operation where
  | retarget
  | filter
  | groupBy
  | orderBy
  | limit
  | offset
  | primaryKey
  | allowUnfiltered
  deriving DecidableEq

/-- A page sets the offset as well: limits are of one kind with offsets. -/
def Operation.kind : Operation → Operation
  | limit => offset
  | o => o

namespace Call

variable {α : Type} {config : QueryConfig} {calls others : List Call}

def operation : Call → Operation
  | retarget _ => .retarget
  | filter _ => .filter
  | groupBy _ => .groupBy
  | orderBy _ => .orderBy
  | limit _ _ => .limit
  | offset _ => .offset
  | primaryKey _ => .primaryKey
  | allowUnfiltered _ => .allowUnfiltered

/-- The calls of one kind, in their order. -/
def ofKind (kind : Operation) (calls : List Call) : List Call :=
  calls.filter fun c => c.operation.kind = kind

/-- The same calls in an order in which those of one kind follow each other as before. -/
def Rearranges (others calls : List Call) : Prop := ∀ kind, ofKind kind others = ofKind kind calls

/-- The calls without those of one operation that another of it follows. -/
def keepLast (o : Operation) : List Call → List Call
  | [] => []
  | c :: calls =>
    if c.operation = o ∧ o ∈ calls.map operation then keepLast o calls else c :: keepLast o calls

theorem Rearranges.perm (h : Rearranges others calls) : others.Perm calls := by
  rw [List.perm_iff_count]
  intro c
  have hcount (calls : List Call) : (ofKind c.operation.kind calls).count c = calls.count c :=
    List.count_filter (by simp)
  rw [← hcount, h, hcount]

theorem mem_of_mem_keepLast {o : Operation} {c : Call} (h : c ∈ keepLast o calls) : c ∈ calls := by
  induction calls with
  | nil => exact h
  | cons d calls ih =>
    rw [keepLast] at h
    split_ifs at h
    · exact List.mem_cons_of_mem d (ih h)
    · rcases List.mem_cons.mp h with rfl | h
      · exact List.mem_cons_self
      · exact List.mem_cons_of_mem d (ih h)

/-- What only calls of one kind give is given by the last of these. -/
theorem latest_ofKind {f : Call → Option α} {kind : Operation}
    (h : ∀ c : Call, c.operation.kind ≠ kind → f c = none) (calls : List Call) :
    latest f (ofKind kind calls) = latest f calls := by
  induction calls with
  | nil => rfl
  | cons c calls ih =>
    rw [latest_cons, ← ih, ofKind, List.filter_cons]
    by_cases hc : c.operation.kind = kind
    · rw [if_pos (by simpa using hc), latest_cons]
      rfl
    · rw [if_neg (by simpa using hc), h c hc, Option.or_none]
      rfl

/-- A call is not missed where a later one gives as well, or neither of them does. -/
theorem latest_keepLast {f : Call → Option α} {o : Operation}
    (h : (∀ c ∈ calls, c.operation = o → f c = none) ∨
      ∀ c ∈ calls, c.operation = o → (f c).isSome) :
    latest f (keepLast o calls) = latest f calls := by
  induction calls with
  | nil => rfl
  | cons c calls ih =>
    have ih := ih (h.imp (fun h d hd => h d (by simp [hd])) fun h d hd => h d (by simp [hd]))
    rw [keepLast, latest_cons, ← ih]
    split_ifs with hlater
    · obtain ⟨hc, hlater⟩ := hlater
      rcases h with hnone | hsome
      · rw [hnone c (by simp) hc, Option.or_none]
      · obtain ⟨d, hd, ho⟩ := List.mem_map.mp hlater
        have hgiven : (latest f calls).isSome := by
          rw [latest, List.findSome?_isSome_iff]
          exact ⟨d, by simpa using hd, hsome d (by simp [hd]) ho⟩
        rw [ih, Option.or_of_isSome hgiven]
    · rw [latest_cons]

/-- The readings of a call that settle what a query asks for. -/
inductive Setting (config : QueryConfig) : {α : Type} → (Call → Option α) → Prop
  | filter (kept : Bindings) : Setting config (filter? config kept)
  | groupBy : Setting config groupBy?
  | orderBy : Setting config orderBy?
  | limit : Setting config limit?
  | offset : Setting config offset?
  | primaryKey : Setting config primaryKey?
  | permission : Setting config permission?

/-- The calls that give a setting: those of its operation, unless they fail, and perhaps limits, if
these are of the same kind. -/
structure Setting.GivenBy (config : QueryConfig) (f : Call → Option α) (o : Operation) : Prop where
  gives : ∀ c : Call, c.operation = o → c.fault? config = none → (f c).isSome
  only : ∀ c : Call, c.operation ≠ o → c.operation ≠ .limit → f c = none
  kind : ∀ c : Call, c.operation.kind ≠ o.kind → f c = none

theorem isSome_toOption {ε : Type} {x : Except ε α} (h : errorOf? x = none) :
    x.toOption.isSome := by
  obtain ⟨a, rfl⟩ := errorOf?_eq_none.mp h
  rfl

/-- What is given by the calls of one operation alone. -/
theorem Setting.GivenBy.alone {f : Call → Option α} {o : Operation}
    (gives : ∀ c : Call, c.operation = o → c.fault? config = none → (f c).isSome)
    (only : ∀ c : Call, c.operation ≠ o → f c = none) : GivenBy config f o where
  gives := gives
  only := fun c ho _ => only c ho
  kind := fun c hk => only c fun ho => hk (congrArg Operation.kind ho)

theorem Setting.givenBy {f : Call → Option α} (h : Setting config f) :
    ∃ o, GivenBy config f o := by
  cases h with
  | filter kept =>
    refine ⟨.filter, .alone (fun c ho hc => ?_) fun c ho => ?_⟩
    · cases c with
      | filter condition =>
        obtain ⟨ps, r, -, -, hgives⟩ := Session.filter?_ok kept hc
        rw [hgives]
        rfl
      | _ => cases ho
    · cases c <;> first | rfl | exact absurd rfl ho
  | groupBy =>
    refine ⟨.groupBy, .alone (fun c ho hc => ?_) fun c ho => ?_⟩
    · cases c with
      | groupBy columns => exact isSome_toOption hc
      | _ => cases ho
    · cases c <;> first | rfl | exact absurd rfl ho
  | orderBy =>
    refine ⟨.orderBy, .alone (fun c ho hc => ?_) fun c ho => ?_⟩
    · cases c with
      | orderBy columns => exact isSome_toOption hc
      | _ => cases ho
    · cases c <;> first | rfl | exact absurd rfl ho
  | limit =>
    refine ⟨.limit, .alone (fun c ho _ => ?_) fun c ho => ?_⟩
    · cases c <;> first | rfl | cases ho
    · cases c <;> first | rfl | exact absurd rfl ho
  | offset =>
    -- Pages give an offset too, and not all of them do: limits are set apart here.
    refine ⟨.offset, fun c ho _ => ?_, fun c ho hl => ?_, fun c ho => ?_⟩
    · cases c <;> first | rfl | cases ho
    · cases c <;> first | rfl | exact absurd rfl ho | exact absurd rfl hl
    · cases c <;> first | rfl | exact absurd rfl ho
  | primaryKey =>
    refine ⟨.primaryKey, .alone (fun c ho hc => ?_) fun c ho => ?_⟩
    · cases c with
      | primaryKey column => exact isSome_toOption hc
      | _ => cases ho
    · cases c <;> first | rfl | exact absurd rfl ho
  | permission =>
    refine ⟨.allowUnfiltered, .alone (fun c ho _ => ?_) fun c ho => ?_⟩
    · cases c <;> first | rfl | cases ho
    · cases c <;> first | rfl | exact absurd rfl ho

theorem Rearranges.latest_eq (hr : Rearranges others calls) {f : Call → Option α}
    (hf : Setting config f) : latest f others = latest f calls := by
  obtain ⟨o, ho⟩ := hf.givenBy
  rw [← latest_ofKind ho.kind, hr, latest_ofKind ho.kind]

theorem Setting.latest_keepLast {f : Call → Option α} (hf : Setting config f) {o : Operation}
    (hlimit : o ≠ .limit) (hc : ∀ c ∈ calls, c.fault? config = none) :
    latest f (keepLast o calls) = latest f calls := by
  obtain ⟨given, hgiven⟩ := hf.givenBy
  apply Call.latest_keepLast
  by_cases ho : o = given
  · exact .inr fun c hmem hco => hgiven.gives c (hco.trans ho) (hc c hmem)
  · refine .inl fun c _ hco => hgiven.only c ?_ ?_
    · rwa [hco]
    · rwa [hco]

end Call

namespace Session

open Call

variable {s : Session} {calls others : List Call}

/-- Calls that give the same settings leave the same session. -/
theorem settled_congr (h : ∀ {α : Type} {f : Call → Option α}, Setting s.config f →
    latest f others = latest f calls) : s.settled others = s.settled calls := by
  unfold settled
  rw [h (.filter _), h .groupBy, h .orderBy, h .limit, h .offset, h .primaryKey, h .permission]

/-- The filter and its bindings are those of the last condition alone. -/
theorem settled_filter (hc : ∀ c ∈ calls, c.fault? s.config = none) {condition : Text}
    (hlast : latest condition? calls = some condition) :
    (s.settled calls).filter = (s.setFilter condition).1.filter ∧
      (s.settled calls).bindings = (s.setFilter condition).1.bindings := by
  have hfilter {c : Call} {given : Text} (h : c.condition? = some given) : c = .filter given := by
    cases c <;> simp_all [condition?]
  obtain ⟨c, hmem, hcond⟩ := List.exists_of_findSome?_eq_some hlast
  obtain rfl := hfilter hcond
  obtain ⟨ps, r, hps, hterms, hgives⟩ := filter?_ok (s.bindings.removeClause .filter)
    (hc _ (List.mem_reverse.mp hmem))
  have hlatest : latest (filter? s.config (s.bindings.removeClause .filter)) calls = some r := by
    unfold filter?
    rw [latest_bind, hlast]
    · exact hgives
    · intro d hd given hgiven
      obtain rfl := hfilter hgiven
      obtain ⟨_, _, -, -, hd⟩ := filter?_ok (s.bindings.removeClause .filter) (hc _ hd)
      exact Option.isSome_of_eq_some hd
  obtain ⟨ts, bs, ht, hset⟩ := s.setFilter_ok hps
  obtain rfl := Except.ok.inj (hterms.symm.trans ht)
  rw [hset]
  unfold settled
  rw [hlatest]
  exact ⟨rfl, rfl⟩

/-- Calls that do not fail lead to the same session, and so to the same bindings and statements, in
every order that keeps those of one kind as they follow each other; and, limits apart, without the
calls of one operation but the last. Of several filters, only the last leaves anything behind. -/
theorem calls_commute (s : Session) (calls : List Call)
    (hr : ∀ c ∈ calls, c.isRetarget = false) (hf : (s.run calls).fault = none) :
    (∀ others, Rearranges others calls → s.run others = s.run calls) ∧
      (∀ o, o ≠ .limit → s.run (keepLast o calls) = s.run calls) ∧
      ∀ condition, latest condition? calls = some condition →
        (s.run calls).filter = (s.apply (.filter condition)).1.filter ∧
          (s.run calls).bindings = (s.apply (.filter condition)).1.bindings := by
  have hc := ((run_fault_eq_none hr).mp hf).2
  have hrun := run_settled hr hc
  have hpart {others : List Call} (hmem : ∀ c ∈ others, c ∈ calls) :
      s.run others = s.settled others :=
    run_settled (fun c h => hr c (hmem c h)) fun c h => hc c (hmem c h)
  refine ⟨fun others ho => ?_, fun o ho => ?_, fun condition hlast => ?_⟩
  · rw [hrun, hpart fun c h => ho.perm.subset h]
    exact settled_congr ho.latest_eq
  · rw [hrun, hpart fun c h => mem_of_mem_keepLast h]
    exact settled_congr fun hs => hs.latest_keepLast ho hc
  · rw [hrun]
    exact settled_filter hc hlast

theorem calls_commute_users :
    let calls : List Call := [.limit 10 (some 3), .filter "a = 1, b = 2".toList, .offset 5,
      .groupBy ["c".toList], .filter "b = 3, b = 4".toList, .limit 20 none]
    let others : List Call := [.filter "a = 1, b = 2".toList, .groupBy ["c".toList],
      .filter "b = 3, b = 4".toList, .limit 10 (some 3), .offset 5, .limit 20 none]
    let s := start {} "users".toList
    s.run others = s.run calls ∧ s.run (keepLast .filter calls) = s.run calls ∧
      (s.run calls).bindings = (s.apply (.filter "b = 3, b = 4".toList)).1.bindings ∧
      (s.run calls).bindings.names = [":b_where".toList, ":b_where_2".toList] := by
  intro calls others s
  have hf : (s.run calls).fault = none := rfl
  obtain ⟨hothers, hkeep, hlast⟩ := calls_commute s calls (by decide) hf
  have ho : Rearranges others calls := fun kind => by cases kind <;> rfl
  exact ⟨hothers others ho, hkeep .filter (by decide), (hlast _ rfl).2, rfl⟩

end Session

end FluentSql
