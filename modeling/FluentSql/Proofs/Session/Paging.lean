import FluentSql.Proofs.Session.Rows
import FluentSql.Proofs.Session.Settings

namespace FluentSql

namespace Call

/-- What the last call since then that says anything about it says to skip. -/
def lastOffset? (calls : List Call) : Option Nat := (recent calls).findSome? offset?

end Call

namespace Session

open Call (lastOffset?)

variable {s : Session} {count page : Nat}

/-- The clauses that a page is asked for with: the first has nothing to skip. -/
def pageClauses (count page : Nat) : Text :=
  " LIMIT ".toList ++ Text.decimal count ++
    if 1 < page then " OFFSET ".toList ++ Text.decimal ((page - 1) * count) else []

/-- Whether a row is in the bounds of a selection, given how many come before it. -/
def SelectsRow (s : Session) (row : Nat) : Prop :=
  s.offset.getD 0 ≤ row ∧ ∀ n, s.limit = some n → row < s.offset.getD 0 + n

/-- Whether a row is on a page, given how many come before it. -/
def OnPage (count page row : Nat) : Prop := (page - 1) * count ≤ row ∧ row < page * count

theorem onPage_iff (hc : 0 < count) (hp : 1 ≤ page) (row : Nat) :
    OnPage count page row ↔ page = row / count + 1 := by
  obtain ⟨before, rfl⟩ := Nat.exists_eq_add_of_le' hp
  rw [OnPage, Nat.add_sub_cancel, Nat.add_right_cancel_iff, eq_comm, Nat.div_eq_iff hc]
  have hnext : (before + 1) * count = before * count + count := Nat.succ_mul before count
  omega

/-- The pages leave no row out and have none in common. -/
theorem existsUnique_onPage (hc : 0 < count) (row : Nat) :
    ∃! page, 1 ≤ page ∧ OnPage count page row := by
  have hp : 1 ≤ row / count + 1 := Nat.le_add_left 1 _
  refine ⟨row / count + 1, ⟨hp, (onPage_iff hc hp row).mpr rfl⟩, ?_⟩
  rintro page ⟨hp, hrow⟩
  exact (onPage_iff hc hp row).mp hrow

theorem setLimit_page (s : Session) (h : (page - 1) * count < 2 ^ 64) :
    s.setLimit count (some page) = { s with
      limit := some count
      offset := if 1 < page then some ((page - 1) * count) else s.offset } := by
  have hmin : min maxOffset ((page - 1) * count) = (page - 1) * count :=
    Nat.min_eq_right (by unfold maxOffset; omega)
  unfold setLimit
  dsimp only
  split_ifs
  · rw [hmin]
  · rfl

theorem offsetClause_eq_nil : s.offsetClause = [] ↔ s.offset = none := by
  unfold offsetClause
  cases s.offset <;> simp

/-- The first page keeps the offset that it finds. -/
theorem bounds_page (s : Session) (h : (page - 1) * count < 2 ^ 64) :
    (s.setLimit count (some page)).bounds = s.groupClause ++ s.orderClause ++
      pageClauses count page ++ if 1 < page then [] else s.offsetClause := by
  rw [setLimit_page s h]
  unfold pageClauses
  split_ifs
  · rw [List.append_nil, bounds, ← List.append_assoc]
    rfl
  · rw [List.append_nil]
    rfl

/-- The rows of a page are selected unless it is the first, and there are rows to skip. -/
theorem selectsRow_page (s : Session) (hp : 1 ≤ page) (h : (page - 1) * count < 2 ^ 64) :
    (∀ row, (s.setLimit count (some page)).SelectsRow row ↔ OnPage count page row) ↔
      1 < page ∨ count = 0 ∨ s.offset.getD 0 = 0 := by
  rw [setLimit_page s h]
  unfold SelectsRow OnPage
  simp only [Option.some.injEq, forall_eq']
  rcases Nat.lt_or_eq_of_le hp with hlater | rfl
  · have hnext : page * count = (page - 1) * count + count := by
      rw [← Nat.succ_mul, Nat.succ_eq_add_one, Nat.sub_add_cancel hp]
    simp [hlater, hnext]
  · rw [if_neg (by omega)]
    refine ⟨fun hrows => ?_, fun hcond row => by omega⟩
    have hfirst := hrows 0
    omega

theorem run_offset (config : QueryConfig) (table : Text) (calls : List Call)
    (hf : ((start config table).run calls).fault = none) :
    ((start config table).run calls).offset = lastOffset? calls := by
  have hstart (config : QueryConfig) (table : Text) : (start config table).offset = none := by
    unfold start
    split <;> rfl
  induction calls using List.reverseRecOn with
  | nil => exact hstart config table
  | append_singleton calls c ih =>
    rw [run_concat] at hf ⊢
    rw [apply_fault] at hf
    cases hr : c.isRetarget with
    | true =>
      cases c with
      | retarget again =>
        rw [lastOffset?, Call.recent_retarget]
        exact hstart _ again
      | _ => simp [Call.isRetarget] at hr
    | false =>
      rw [hr, if_neg (by simp), Option.or_eq_none_iff] at hf
      rw [apply_settled _ hr hf.2]
      change (Call.latest Call.offset? [c]).or ((start config table).run calls).offset = _
      rw [Call.latest_singleton, ih hf.1, lastOffset?, lastOffset?, Call.recent_concat calls hr,
        List.findSome?_cons]
      cases c.offset? <;> rfl

theorem offset_page_eq_nil :
    (if 1 < page then [] else s.offsetClause) = [] ↔ 1 < page ∨ s.offset = none := by
  split_ifs with hp <;> simp [hp, offsetClause_eq_nil]

/-- A page can always be asked for. It is the one selected, unless it is the first: the first is
selected exactly if no call before it has set rows to skip. A page of some rows shares none of them
with another, and no row is on none. -/
theorem page_selected (config : QueryConfig) (table : Text) (calls : List Call)
    {columns : List Text} {cs : List Column}
    (hf : ((start config table).run calls).fault = none) (hcs : Column.readAll columns = .ok cs) :
    let s := (start config table).run calls
    (∃ target, s.target = .ok target ∧
      ∀ count page, 1 ≤ page → (page - 1) * count < 2 ^ 64 →
        let paged := (s.apply (.limit count (some page))).1
        ∃ t, (paged.draft (.select columns)).result = .ok t ∧
          (t.compiled.sql = selectHead target cs ++ s.sentFilter ++
              (s.groupClause ++ s.orderClause) ++ pageClauses count page ↔
            1 < page ∨ lastOffset? calls = none) ∧
          ((∀ row, paged.SelectsRow row ↔ OnPage count page row) ↔
            1 < page ∨ count = 0 ∨ (lastOffset? calls).getD 0 = 0)) ∧
    ∀ count row, 0 < count → ∃! page, 1 ≤ page ∧ OnPage count page row := by
  intro s
  obtain ⟨target, ht⟩ := run_target config table calls hf
  refine ⟨⟨target, ht, fun count page hp hsize => ?_⟩, fun _ row hc => existsUnique_onPage hc row⟩
  have hpaged := setLimit_page s hsize
  have hrun : (start config table).run (calls ++ [.limit count (some page)]) =
      s.setLimit count (some page) := run_concat _ calls _
  obtain ⟨ps, -, hreads⟩ := run_reads config table (calls ++ [.limit count (some page)])
    (by rw [hrun, hpaged]; exact hf)
  rw [hrun] at hreads
  obtain ⟨t, hok, hsql, -⟩ := hreads.select_sent (by rw [hpaged]; exact ht) hcs
  have hfilter : (s.setLimit count (some page)).sentFilter = s.sentFilter := by
    rw [hpaged]
    rfl
  rw [hfilter, bounds_page s hsize, ← List.append_assoc, ← List.append_assoc] at hsql
  refine ⟨t, hok, ?_, ?_⟩
  · rw [hsql, ← run_offset config table calls hf, ← offset_page_eq_nil]
    exact List.append_right_eq_self
  · rw [← run_offset config table calls hf]
    exact selectsRow_page s hp hsize

theorem page_selected_second :
    let s := (start {} "users".toList).run [.filter "age > 18".toList, .limit 5 (some 7)]
    let paged := (s.apply (.limit 10 (some 2))).1
    s.fault = none ∧ ∃ t, (paged.draft (.select ["name".toList])).result = .ok t ∧
      t.compiled.sql =
        "SELECT \"name\" FROM \"users\" WHERE \"age\" > $1 LIMIT 10 OFFSET 10".toList ∧
      ∀ row, paged.SelectsRow row ↔ OnPage 10 2 row := by
  intro s paged
  have hf : s.fault = none := rfl
  obtain ⟨⟨target, ht, hpages⟩, -⟩ := page_selected {} "users".toList
    [.filter "age > 18".toList, .limit 5 (some 7)] hf
    (show Column.readAll ["name".toList] = .ok [.named ⟨["name".toList]⟩] from rfl)
  obtain rfl : ⟨["users".toList]⟩ = target := Except.ok.inj ht
  obtain ⟨t, hok, hsql, hrows⟩ := hpages 10 2 (by decide) (by decide)
  refine ⟨hf, t, hok, (hsql.mpr (.inl (by decide))).trans ?_, hrows.mpr (.inl (by decide))⟩
  decide +kernel

/-- The first page of ten rows, asked for after the second: it is the second that is selected. -/
theorem first_page_missed :
    let s := (start {} "users".toList).run [.limit 10 (some 2)]
    let paged := (s.apply (.limit 10 (some 1))).1
    s.fault = none ∧ (∃ t, (paged.draft (.select [])).result = .ok t ∧
      t.compiled.sql = "SELECT * FROM \"users\" LIMIT 10 OFFSET 10".toList) ∧
      OnPage 10 1 0 ∧ ¬ paged.SelectsRow 0 := by
  refine ⟨rfl, ⟨_, rfl, by decide +kernel⟩, ⟨by decide, by decide⟩, ?_⟩
  rintro ⟨hskip, -⟩
  exact absurd hskip (by decide)

end Session

end FluentSql
