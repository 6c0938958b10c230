import FluentSql.Proofs.Session.Alike
import FluentSql.Proofs.Session.Failure

namespace FluentSql

variable {α β : Type}

theorem errorOf?_eq_none {ε : Type} {x : Except ε α} : errorOf? x = none ↔ ∃ a, x = .ok a := by
  cases x <;> simp [errorOf?]

namespace Call

/-- What is given by the last of the calls that give anything. -/
def latest (f : Call → Option α) (calls : List Call) : Option α := calls.reverse.findSome? f

/-- The filter that a condition becomes, with its bindings behind those of other clauses. -/
def filter? (config : QueryConfig) (kept : Bindings) (c : Call) :
    Option (List FilterTerm × Bindings) :=
  c.condition?.bind fun condition =>
    (Session.readCondition config.malformed condition).1.toOption.bind fun ps =>
      (Session.terms kept ps).toOption

def groupBy? : Call → Option (List Column)
  | groupBy columns => (Column.readAll columns).toOption
  | _ => none

def orderBy? : Call → Option (List (Identifier × Direction))
  | orderBy columns => (Session.readOrder columns).toOption
  | _ => none

def limit? : Call → Option Nat
  | limit count _ => some count
  | _ => none

/-- The rows that a call says to skip. The first page says nothing about them. -/
def offset? : Call → Option Nat
  | limit count (some page) =>
    if 1 < page then some (min Session.maxOffset ((page - 1) * count)) else none
  | offset rows => some rows
  | _ => none

def primaryKey? : Call → Option Identifier
  | primaryKey column => (Role.primaryKey.read column).toOption
  | _ => none

theorem latest_concat (f : Call → Option α) (calls : List Call) (c : Call) :
    latest f (calls ++ [c]) = (f c).or (latest f calls) := by
  rw [latest, List.reverse_concat, List.findSome?_cons]
  cases f c <;> rfl

theorem latest_singleton (f : Call → Option α) (c : Call) : latest f [c] = f c := by
  rw [latest, List.reverse_singleton, List.findSome?_singleton]

theorem latest_cons (f : Call → Option α) (c : Call) (calls : List Call) :
    latest f (c :: calls) = (latest f calls).or (f c) := by
  rw [latest, List.reverse_cons, List.findSome?_append]
  simp [latest]

/-- What the last call that gives something gives is made of what it gives. -/
theorem latest_bind {f : Call → Option α} {g : α → Option β} {calls : List Call}
    (h : ∀ c ∈ calls, ∀ a, f c = some a → (g a).isSome) :
    latest (fun c => (f c).bind g) calls = (latest f calls).bind g := by
  induction calls with
  | nil => rfl
  | cons c calls ih =>
    rw [latest_cons, latest_cons, ih fun d hd => h d (by simp [hd])]
    cases hl : latest f calls with
    | none => cases f c <;> rfl
    | some a =>
      obtain ⟨d, hd, hfd⟩ := List.exists_of_findSome?_eq_some hl
      obtain ⟨b, hb⟩ := Option.isSome_iff_exists.mp
        (h d (List.mem_cons_of_mem c (List.mem_reverse.mp hd)) a hfd)
      simp [hb]

end Call

namespace Session

open Call

/-- A session with every setting as the last call that gives it has it. -/
def settled (s : Session) (calls : List Call) : Session :=
  let filter := (latest (filter? s.config (s.bindings.removeClause .filter)) calls).getD
    (s.filter, s.bindings)
  { s with
    filter := filter.1
    bindings := filter.2
    groupBy := (latest groupBy? calls).getD s.groupBy
    orderBy := (latest orderBy? calls).getD s.orderBy
    limit := (latest limit? calls).or s.limit
    offset := (latest offset? calls).or s.offset
    primaryKey := (latest primaryKey? calls).or s.primaryKey
    unfiltered := (latest permission? calls).or s.unfiltered }

variable {s : Session} {calls : List Call}

theorem removeClause_removeClause (bs : Bindings) (clause : Clause) :
    (bs.removeClause clause).removeClause clause = bs.removeClause clause := by
  simp [Bindings.removeClause]

/-- A filter that replaces another finds the bindings that the other found. -/
theorem filter?_kept {config : QueryConfig} {bs : Bindings} {c : Call}
    {r : List FilterTerm × Bindings} (h : filter? config (bs.removeClause .filter) c = some r) :
    r.2.removeClause .filter = bs.removeClause .filter := by
  obtain ⟨condition, -, h⟩ := Option.bind_eq_some_iff.mp h
  obtain ⟨ps, -, h⟩ := Option.bind_eq_some_iff.mp h
  have hterms : terms (bs.removeClause .filter) ps = .ok r := by
    cases ht : terms (bs.removeClause .filter) ps with
    | error e => simp [ht, Except.toOption] at h
    | ok q => simpa [ht, Except.toOption] using h
  obtain ⟨new, hnew, -, -, hclause⟩ := (terms_filtered hterms).extends_bindings
  have hdrop : new.removeClause .filter = [] := by simpa [Bindings.removeClause] using hclause
  have happend : (bs.removeClause .filter ++ new).removeClause .filter =
      (bs.removeClause .filter).removeClause .filter ++ new.removeClause .filter :=
    List.filter_append ..
  rw [hnew, happend, hdrop, List.append_nil, removeClause_removeClause]

theorem settled_kept (s : Session) (calls : List Call) :
    (s.settled calls).bindings.removeClause .filter = s.bindings.removeClause .filter := by
  unfold settled
  dsimp only
  cases hl : latest (filter? s.config (s.bindings.removeClause .filter)) calls with
  | none => rfl
  | some r =>
    obtain ⟨c, -, hc⟩ := List.exists_of_findSome?_eq_some hl
    exact filter?_kept hc

/-- The filter of a condition that can be read can be made, whatever is bound already. -/
theorem filter?_ok (kept : Bindings) {config : QueryConfig} {condition : Text}
    (h : fault? config (.filter condition) = none) : ∃ ps r,
      (readCondition config.malformed condition).1 = .ok ps ∧ terms kept ps = .ok r ∧
      filter? config kept (.filter condition) = some r := by
  obtain ⟨ps, hps⟩ := errorOf?_eq_none.mp (Option.map_eq_none_iff.mp h)
  obtain ⟨r, hr⟩ := terms_words kept (readCondition_words hps).2
  exact ⟨ps, r, hps, hr, by simp [filter?, condition?, hps, hr, Except.toOption]⟩

/-- A call that does not fail settles what it gives and leaves the rest. -/
theorem apply_settled (s : Session) {c : Call} (hr : c.isRetarget = false)
    (hc : c.fault? s.config = none) : (s.apply c).1 = s.settled [c] := by
  cases c with
  | retarget => simp [isRetarget] at hr
  | filter condition =>
    obtain ⟨ps, r, hps, hterms, hgives⟩ := filter?_ok (s.bindings.removeClause .filter) hc
    obtain ⟨ts, bs, ht, hset⟩ := s.setFilter_ok hps
    obtain rfl := Except.ok.inj (hterms.symm.trans ht)
    refine hset.trans ?_
    unfold settled
    rw [latest_singleton, hgives]
    rfl
  | groupBy columns =>
    obtain ⟨cs, hcs⟩ := errorOf?_eq_none.mp hc
    have hgives : groupBy? (.groupBy columns) = some cs := by rw [groupBy?, hcs]; rfl
    change s.setGroupBy columns = _
    unfold settled
    rw [setGroupBy, hcs, latest_singleton groupBy?, hgives]
    rfl
  | orderBy columns =>
    obtain ⟨ts, hts⟩ := errorOf?_eq_none.mp hc
    have hgives : orderBy? (.orderBy columns) = some ts := by rw [orderBy?, hts]; rfl
    change s.setOrderBy columns = _
    unfold settled
    rw [setOrderBy, hts, latest_singleton orderBy?, hgives]
    rfl
  | limit count page =>
    change s.setLimit count page = _
    unfold setLimit
    cases page with
    | none => rfl
    | some p =>
      unfold settled
      rw [latest_singleton offset?, offset?]
      dsimp only
      split_ifs <;> rfl
  | offset rows => rfl
  | primaryKey column =>
    obtain ⟨name, hname⟩ := errorOf?_eq_none.mp hc
    have hgives : primaryKey? (.primaryKey column) = some name := by rw [primaryKey?, hname]; rfl
    change s.setPrimaryKey column = _
    unfold settled
    rw [setPrimaryKey, hname, latest_singleton primaryKey?, hgives]
    rfl
  | allowUnfiltered allow => rfl

/-- One more call settles what it gives over what the calls before it have settled. -/
theorem settled_concat (s : Session) (calls : List Call) (c : Call) :
    s.settled (calls ++ [c]) = (s.settled calls).settled [c] := by
  have hkept := s.settled_kept calls
  unfold settled at hkept ⊢
  dsimp only at hkept ⊢
  simp only [hkept, latest_concat, latest_singleton, Option.or_assoc, Option.getD_or]

/-- After calls that do not fail, every setting is as the last call that gives it has it. -/
theorem run_settled (hr : ∀ c ∈ calls, c.isRetarget = false)
    (hc : ∀ c ∈ calls, c.fault? s.config = none) : s.run calls = s.settled calls := by
  induction calls using List.reverseRecOn with
  | nil => rfl
  | append_singleton calls c ih =>
    rw [run_concat, ih (fun d hd => hr d (by simp [hd])) fun d hd => hc d (by simp [hd]),
      settled_concat]
    exact apply_settled _ (hr c (by simp)) (hc c (by simp))

theorem run_config (s : Session) (calls : List Call) : (s.run calls).config = s.config := by
  induction calls using List.reverseRecOn with
  | nil => rfl
  | append_singleton calls c ih => rw [run_concat, apply_config, ih]

/-- A run fails unless the session it starts from has not failed and no call fails. -/
theorem run_fault_eq_none (hr : ∀ c ∈ calls, c.isRetarget = false) :
    (s.run calls).fault = none ↔ s.fault = none ∧ ∀ c ∈ calls, c.fault? s.config = none := by
  induction calls using List.reverseRecOn with
  | nil => simp [run]
  | append_singleton calls c ih =>
    have hc : c.isRetarget = false := hr c (by simp)
    rw [run_concat, apply_fault, hc, run_config, if_neg (by simp), Option.or_eq_none_iff,
      ih fun d hd => hr d (by simp [hd])]
    simp [and_assoc, or_imp, forall_and]

end Session

end FluentSql
