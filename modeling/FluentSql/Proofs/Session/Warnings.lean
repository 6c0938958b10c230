import FluentSql.Proofs.Session.RoundTrip
import FluentSql.Proofs.Session.Rows

namespace FluentSql

open Condition (Predicate)
open Recorded (Request)
open Statement

/-- Whether an event warns that a write has no filter. -/
def Event.warns (event : Event) : Bool :=
  event.target == "pgchain.guard".toList && event.level == .warn

namespace Command

/-- The write that a command is, if it is one. -/
def write? : Command → Option Write
  | update _ => some .update
  | delete => some .delete
  | _ => none

/-- Whether a command updates a column whose name cannot be read. -/
def Misnames : Command → Prop
  | update values => ∃ value ∈ values, ∃ e, Role.column.read value.1 = .error e
  | _ => False

end Command

namespace Session

variable {s : Session} {ps : List Predicate} {table : Identifier} {values : List (Text × Value)}
  {write : Write} {command : Command}

theorem Reads.delete_builds (h : s.Reads ps) (ht : s.target = .ok table) :
    ∃ t, s.deleteStatement table = .ok t := by
  have hw := h.wellNamed.delete_written (h.wellNamed.target ht)
  exact finish_builds (hw.compiles fun m hm => h.names_eq ▸ hm)

theorem Reads.update_builds (h : s.Reads ps) (ht : s.target = .ok table)
    (hc : ∀ value ∈ values, ∃ column, Role.column.read value.1 = .ok column) :
    ∃ t, s.updateStatement table values = .ok t := by
  obtain ⟨⟨columns, bs⟩, hb⟩ := bindColumns_builds .set s.bindings hc
  have hassigned := bindColumns_assigned hb
  have hw := h.wellNamed.update_written (h.wellNamed.target ht) hassigned.namedColumns
  obtain ⟨new, rfl, hnames, -⟩ := hassigned.extends_bindings
  -- The text names what the columns add, and then what the filter had before.
  have hmarks : ∀ m ∈ columns.map Prod.snd ++ s.filterMarks,
      m ∈ Bindings.names (s.bindings ++ new) := by
    intro m hm
    rw [Bindings.names_append, hnames, h.names_eq, List.mem_append, or_comm]
    exact List.mem_append.mp hm
  have hstatement : s.updateStatement table values = finish "update".toList
      (updateHead table ++ commaList (columns.map fun c => c.1.toSql ++ " = ".toList ++ c.2) ++
        s.writeFilter table) (s.bindings ++ new) := by
    unfold updateStatement
    rw [hb]
    rfl
  rw [hstatement]
  exact finish_builds (hw.compiles hmarks)

/-- An update can be written unless one of its columns is misnamed. -/
theorem Reads.update_builds_iff (h : s.Reads ps) (ht : s.target = .ok table) :
    (∃ t, s.updateStatement table values = .ok t) ↔ ¬ (Command.update values).Misnames := by
  constructor
  · rintro ⟨t, hu⟩ ⟨value, hv, e, he⟩
    obtain ⟨⟨columns, bs⟩, hb, -⟩ := bind_ok hu
    obtain ⟨column, hc⟩ := (bindColumns_assigned hb).column_read value hv
    rw [he] at hc
    cases hc
  · intro hnames
    refine h.update_builds ht fun value hv => ?_
    cases hc : Role.column.read value.1 with
    | ok column => exact ⟨column, rfl⟩
    | error e => exact absurd ⟨value, hv, e, hc⟩ hnames

theorem whereClause_eq_nil : s.whereClause = [] ↔ s.filter = [] := by
  unfold whereClause
  split_ifs with h
  · simpa using h
  · simpa using h

/-- What lets a write pass that has no filter. -/
structure PassesUnfiltered (s : Session) : Prop where
  fault : s.fault = none
  clause : s.whereClause = []
  permitted : s.mayWriteUnfiltered = true

/-- The calls after which a write passes without a filter: none has failed, none has set a
condition since the query was started, and the last permission, or else the configuration, allows
it. -/
theorem passesUnfiltered_iff (config : QueryConfig) (table : Text) (calls : List Call) :
    ((start config table).run calls).PassesUnfiltered ↔
      Call.firstFault? config table calls = none ∧ Call.lastCondition? calls = none ∧
        (Call.lastPermission? calls).getD (config.unfiltered == .allow) = true := by
  have hr := run_remembers config table calls
  have hfault := run_fault config table calls
  constructor
  · rintro ⟨hf, hclause, hpermitted⟩
    refine ⟨hfault.symm.trans hf, ?_, hr.permitted.symm.trans hpermitted⟩
    obtain ⟨ps, hps, hreads⟩ := run_reads config table calls hf
    rcases hr.confined_or_unconfined hps hreads (.inr hpermitted) with hc | hu
    · exact absurd (hc.text.symm.trans hclause) (by simp)
    · exact hu.condition
  · rintro ⟨hf, hcondition, hpermitted⟩
    have hf := hfault.trans hf
    refine ⟨hf, ?_, hr.permitted.trans hpermitted⟩
    obtain ⟨ps, hps, hfiltered⟩ := hr.predicates hf
    rw [Call.lastPredicates, hcondition] at hps
    obtain rfl := Except.ok.inj hps
    exact whereClause_eq_nil.mpr (List.length_eq_zero_iff.mp hfiltered.length_eq)

/-- The warning of a write that has no filter. -/
def warnings (s : Session) (write : Write) (table : Identifier) : List Event :=
  if s.whereClause = [] then [.unfiltered write table] else []

/-- What the drafting of a write comes to. -/
inductive WriteDraft (s : Session) (write : Write) (command : Command) : Draft → Prop
  /-- It fails before its columns are read. -/
  | barred {e : Error} : ¬ s.PassesUnfiltered ∨ command = .update [] →
      WriteDraft s write command ⟨[], .error e⟩
  /-- It passes the guard, and then its columns cannot be read. -/
  | misnamed {table : Identifier} {e : Error} : s.target = .ok table →
      (s.whereClause = [] → s.PassesUnfiltered) → command.Misnames →
      WriteDraft s write command ⟨s.warnings write table, .error e⟩
  | made {table : Identifier} {t : Statement} : s.target = .ok table → ¬ command.Misnames →
      WriteDraft s write command ⟨s.warnings write table, .ok t⟩

/-- A guarded write fails without a warning, unless it has a filter or may do without one. -/
theorem guarded_cases (s : Session) (write : Write) (table : Identifier)
    (statement : Except Error Statement) :
    s.whereClause = [] ∧ s.mayWriteUnfiltered = false ∧
      (∃ e, s.guarded write table statement = ⟨[], .error e⟩) ∨
    (s.whereClause = [] → s.mayWriteUnfiltered = true) ∧
      s.guarded write table statement = ⟨s.warnings write table, statement⟩ := by
  unfold guarded guard warnings
  by_cases hc : s.whereClause = []
  · have hf := whereClause_eq_nil.mp hc
    cases hm : s.mayWriteUnfiltered with
    | false => exact .inl ⟨hc, rfl, .validation (.unfiltered write table), by simp [hf]⟩
    | true => exact .inr ⟨fun _ => rfl, by simp [hc, hf]⟩
  · have hf := mt whereClause_eq_nil.mpr hc
    exact .inr ⟨fun h => absurd h hc, by simp [hc, hf]⟩

theorem guarded_draft (ht : s.target = .ok table) {statement : Except Error Statement}
    (hs : (∃ t, statement = .ok t) ↔ ¬ command.Misnames) :
    s.WriteDraft write command (s.guarded write table statement) := by
  rcases s.guarded_cases write table statement with ⟨hc, hm, e, he⟩ | ⟨hm, he⟩
  · rw [he]
    exact .barred (.inl fun hp => absurd (hp.permitted.symm.trans hm) (by simp))
  · rw [he]
    cases statement with
    | ok t => exact .made ht (hs.mp ⟨t, rfl⟩)
    | error e =>
      have hmisnames : command.Misnames := by
        by_contra hn
        obtain ⟨t, ht⟩ := hs.mpr hn
        cases ht
      exact .misnamed ht (fun hc => ⟨(target_ok ht).1, hc, hm hc⟩) hmisnames

/-- After any calls, a write is drafted in one of these ways. -/
theorem run_writeDraft (config : QueryConfig) (table : Text) (calls : List Call)
    (hw : command.write? = some write) :
    ((start config table).run calls).WriteDraft write command
      (((start config table).run calls).draft command) := by
  cases hf : ((start config table).run calls).fault with
  | some e =>
    rw [draft_fault hf]
    exact .barred (.inl fun hp => absurd (hf.symm.trans hp.fault) (by simp))
  | none =>
    obtain ⟨target, ht⟩ := run_target config table calls hf
    obtain ⟨ps, -, hreads⟩ := run_reads config table calls hf
    cases command with
    | update values =>
      obtain rfl := Option.some.inj hw
      change WriteDraft _ _ _ (update _ values)
      unfold update
      rw [ht]
      dsimp only
      split_ifs with hv
      · exact .barred (.inr (by rw [List.isEmpty_iff.mp hv]))
      · exact guarded_draft ht (hreads.update_builds_iff ht)
    | delete =>
      obtain rfl := Option.some.inj hw
      change WriteDraft _ _ _ (delete _)
      unfold delete
      rw [ht]
      exact guarded_draft ht (iff_of_true (hreads.delete_builds ht) id)
    | _ => simp [Command.write?] at hw

theorem warnings_ne_nil : s.warnings write table ≠ [] ↔ s.whereClause = [] := by
  unfold warnings
  split_ifs with h <;> simp [h]

namespace WriteDraft

variable {d : Draft}

theorem once (h : s.WriteDraft write command d) :
    d.events = [] ∨ ∃ table, s.target = .ok table ∧ d.events = [.unfiltered write table] := by
  have hwarnings {table : Identifier} (ht : s.target = .ok table) : s.warnings write table = [] ∨
      ∃ other, s.target = .ok other ∧ s.warnings write table = [.unfiltered write other] := by
    unfold warnings
    split_ifs
    · exact .inr ⟨table, ht, rfl⟩
    · exact .inl rfl
  cases h with
  | barred => exact .inl rfl
  | misnamed ht => exact hwarnings ht
  | made ht => exact hwarnings ht

theorem truthful (h : s.WriteDraft write command d)
    (hn : ¬ (s.PassesUnfiltered ∧ command.Misnames)) :
    d.events ≠ [] ↔ (∃ t, d.result = .ok t) ∧ s.whereClause = [] := by
  cases h with
  | barred => simp
  | misnamed _ hp hm =>
    rw [warnings_ne_nil]
    exact iff_of_false (fun hc => hn ⟨hp hc, hm⟩) (by simp)
  | made =>
    rw [warnings_ne_nil]
    exact (and_iff_right ⟨_, rfl⟩).symm

theorem premature (h : s.WriteDraft write command d) (hp : s.PassesUnfiltered)
    (hn : command.Misnames) : d.events ≠ [] ∧ ∃ e, d.result = .error e := by
  cases h with
  | barred hb =>
    rcases hb with hb | rfl
    · exact absurd hp hb
    · simp [Command.Misnames] at hn
  | misnamed => exact ⟨warnings_ne_nil.mpr hp.clause, _, rfl⟩
  | made _ hm => exact absurd hn hm

end WriteDraft

/-- What a command logs before its client logs anything. -/
def ownEvents (s : Session) (command : Command) : List Event :=
  (s.draft command).events ++
    match (s.draft command).result with
    | .ok t => [s.config.event t]
    | .error _ => []

/-- Whatever the drafting of a command logs is a warning, and the statement itself is none. -/
theorem ownEvents_filter (s : Session) (command : Command) :
    (s.ownEvents command).filter Event.warns = (s.draft command).events := by
  have hdraft : (s.draft command).events.filter Event.warns = (s.draft command).events := by
    refine List.filter_eq_self.mpr fun event he => ?_
    obtain ⟨write, table, rfl⟩ := s.draft_events command event he
    rfl
  unfold ownEvents
  rw [List.filter_append, hdraft]
  cases (s.draft command).result with
  | ok t => exact List.append_nil _
  | error e => exact List.append_nil _

/-- How a write ends, and what it logs before its client logs anything. -/
structure Warned {σ : Type} (s : Session) (b : Responder σ) (shown : Text → Option Text)
    (write : Write) (command : Command) (w : σ × List Request)
    (r : Step (σ × List Request) Answer) : Prop where
  /-- A write that is made is sent, and the answer is read off the reply. -/
  sent : ∀ t, (s.draft command).result = .ok t →
    let q := command.request t (shown t.tag)
    let a := b.reply command q w.1
    r = ⟨a.result, s.ownEvents command ++ a.events, (a.state, w.2 ++ [q])⟩
  /-- Any other is not sent. -/
  unsent : ∀ e, (s.draft command).result = .error e → r = ⟨.error e, s.ownEvents command, w⟩
  /-- There is one warning at most, of this write to this table. -/
  once : (s.ownEvents command).filter Event.warns = [] ∨ ∃ table, s.target = .ok table ∧
    (s.ownEvents command).filter Event.warns = [.unfiltered write table]
  /-- There is one if and only if the write is sent without a filter. -/
  truthful : ¬ (s.PassesUnfiltered ∧ command.Misnames) →
    ((s.ownEvents command).filter Event.warns ≠ [] ↔
      (∃ t, (s.draft command).result = .ok t) ∧ s.whereClause = [])
  /-- A column that cannot be read is found only after the warning. -/
  premature : s.PassesUnfiltered → command.Misnames →
    (s.ownEvents command).filter Event.warns ≠ [] ∧ ∃ e, (s.draft command).result = .error e

/-- A write warns of itself if and only if it is sent without a filter, except for an update that
passes without a filter and then turns out to name a column that cannot be read. -/
theorem write_warned (config : QueryConfig) (table : Text) (calls : List Call)
    (hw : command.write? = some write) {σ : Type} (b : Responder σ)
    {shown : Text → Option Text} {client : Client (σ × List Request)}
    (hc : b.Serves shown client) (w : σ × List Request) :
    let s := (start config table).run calls
    s.Warned b shown write command w (s.perform client command w) ∧
      (s.PassesUnfiltered ↔ Call.firstFault? config table calls = none ∧
        Call.lastCondition? calls = none ∧
        (Call.lastPermission? calls).getD (config.unfiltered == .allow) = true) := by
  intro s
  have hdraft : s.WriteDraft write command (s.draft command) := run_writeDraft config table calls hw
  refine ⟨⟨fun t ht => ?_, fun e he => ?_, ?_, ?_, ?_⟩, passesUnfiltered_iff config table calls⟩
  · rw [perform_ok ht, send_request hc]
    simp [ownEvents, ht, Responder.noting]
  · rw [perform_error he]
    simp [ownEvents, he]
  · rw [ownEvents_filter]
    exact hdraft.once
  · rw [ownEvents_filter]
    exact hdraft.truthful
  · rw [ownEvents_filter]
    exact hdraft.premature

theorem write_warned_allowed :
    let b : Responder Nat := ⟨fun _ n => ⟨.ok [], [], n + 1⟩, fun _ n => ⟨.ok 3, [], n + 1⟩⟩
    let client : Client (Nat × List Request) :=
      { query := b.query none, execute := b.execute none }
    let s := (start {} "users".toList).run [.filter "= 3".toList, .retarget "orders".toList,
      .allowUnfiltered true]
    let command := Command.update [("note".toList, .null)]
    b.Serves (fun _ => none) client ∧ command.write? = some .update ∧ s.PassesUnfiltered ∧
      (s.ownEvents command).filter Event.warns = [.unfiltered .update ⟨["orders".toList]⟩] ∧
      ∃ t, (s.draft command).result = .ok t ∧ (s.perform client command (0, [])).state =
        (1, [⟨.execute, none, t.compiled.sql, t.compiled.params⟩]) := by
  intro b client s command
  have hc : b.Serves (fun _ => none) client := .plain
  have hw : command.write? = some .update := rfl
  obtain ⟨h, hpasses⟩ := write_warned {} "users".toList [.filter "= 3".toList,
    .retarget "orders".toList, .allowUnfiltered true] hw b hc (0, [])
  obtain ⟨t, ht⟩ : ∃ t, (s.draft command).result = .ok t := ⟨_, rfl⟩
  have hread : Role.column.read "note".toList = .ok ⟨["note".toList]⟩ := rfl
  have hnames : ¬ command.Misnames := by
    rintro ⟨value, hv, e, he⟩
    obtain rfl := List.mem_singleton.mp hv
    cases hread.symm.trans he
  have hwarned := (h.truthful fun hm => hnames hm.2).mpr ⟨⟨t, ht⟩, rfl⟩
  refine ⟨hc, hw, hpasses.mpr ⟨rfl, rfl, rfl⟩, ?_, t, ht, congrArg Step.state (h.sent t ht)⟩
  rcases h.once with hnone | ⟨table, htable, hone⟩
  · exact absurd hnone hwarned
  · obtain rfl : ⟨["orders".toList]⟩ = table := Except.ok.inj htable
    exact hone

/-- An update of a column with a blank in its name is logged as running, and never sent. -/
theorem warned_in_vain :
    let s := start { unfiltered := .allow } "users".toList
    let r := s.perform Recorded.tagged (.update [("bad name".toList, .int 1)]) ⟨[], []⟩
    s.whereClause = [] ∧ r.events = [.unfiltered .update ⟨["users".toList]⟩] ∧
      (∀ event ∈ r.events, event.warns = true) ∧ (∃ e, r.result = .error e) ∧
      r.state.requests = [] :=
  ⟨rfl, rfl, by decide, ⟨_, rfl⟩, rfl⟩

end Session

end FluentSql
