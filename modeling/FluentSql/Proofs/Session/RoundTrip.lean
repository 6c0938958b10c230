import FluentSql.Client.Recorded
import FluentSql.Proofs.Session.Failure
import FluentSql.Proofs.Session.Writes

namespace FluentSql

open Recorded (Request)

/-- The value of the first field with a name; null, if there is none. -/
def Record.named (name : Text) : List (Text × Value) → Value
  | [] => .null
  | (column, value) :: rest => if column = name then value else named name rest

theorem Record.get?_getD (name : Text) (r : Record) :
    (r.get? name).getD .null = named name r.fields := by
  obtain ⟨fields⟩ := r
  induction fields with
  | nil => rfl
  | cons f fields ih =>
    by_cases hf : f.1 = name
    · simp [get?, named, hf]
    · simpa [get?, named, hf] using ih

/-- What an insert answers with: the first value of the first row, which is its key. -/
def keyOf : List Record → Value
  | ⟨(_, key) :: _⟩ :: _ => key
  | _ => .null

/-- What an aggregate answers with: the `total` of the first row. -/
def totalOf : List Record → Value
  | [] => .null
  | r :: _ => Record.named "total".toList r.fields

/-- What a command makes of the rows that it is sent. -/
def Command.answer : Command → List Record → Answer
  | .selectOne _, rs => .row rs.head?
  | .insert _, rs => .value (keyOf rs)
  | .aggregate _ _, rs => .value (totalOf rs)
  | _, rs => .rows rs

theorem firstValue_head? (rs : List Record) : Session.firstValue rs.head? = keyOf rs := by
  match rs with
  | [] => rfl
  | ⟨[]⟩ :: _ => rfl
  | ⟨_ :: _⟩ :: _ => rfl

theorem total_head? (rs : List Record) : Session.total rs.head? = totalOf rs := by
  cases rs with
  | nil => rfl
  | cons r _ => exact r.get?_getD "total".toList

/-- What answers the requests of a client, in whatever way it likes. -/
structure Responder (σ : Type) where
  rows : Request → σ → Step σ (List Record)
  count : Request → σ → Step σ Nat

namespace Responder

variable {σ α : Type}

/-- Answers a request, which is put to those before it. -/
def noting (answer : Request → σ → Step σ α) (q : Request) (w : σ × List Request) :
    Step (σ × List Request) α :=
  let a := answer q w.1
  ⟨a.result, a.events, (a.state, w.2 ++ [q])⟩

def query (b : Responder σ) (tag : Option Text) (sql : Text) (params : List Value) :
    σ × List Request → Step (σ × List Request) (List Record) :=
  noting b.rows ⟨.query, tag, sql, params⟩

def execute (b : Responder σ) (tag : Option Text) (sql : Text) (params : List Value) :
    σ × List Request → Step (σ × List Request) Nat :=
  noting b.count ⟨.execute, tag, sql, params⟩

/-- The clients that a responder can have, each with what they show of a tag: one that takes tags,
one that leaves them to the defaults, and a reference to a client. -/
inductive Serves (b : Responder σ) : (Text → Option Text) → Client (σ × List Request) → Prop
  | tagged : b.Serves some
      { query := b.query none
        execute := b.execute none
        queryTagged := fun tag => b.query (some tag)
        executeTagged := fun tag => b.execute (some tag) }
  | plain : b.Serves (fun _ => none) { query := b.query none, execute := b.execute none }
  | reference {shown : Text → Option Text} {c : Client (σ × List Request)} :
      b.Serves shown c → b.Serves shown c.reference

/-- The reply to a query, whose rows are read by `f`. -/
def reading (b : Responder σ) (f : List Record → Except Error α) (q : Request) (state : σ) :
    Step σ α :=
  let a := b.rows q state
  ⟨a.result.bind f, a.events, a.state⟩

/-- The reply to the one request of a command, as the command answers it. -/
def reply (b : Responder σ) (command : Command) (q : Request) (state : σ) : Step σ Answer :=
  if command.isWrite then
    let a := b.count q state
    ⟨a.result.map .affected, a.events, a.state⟩
  else b.reading (fun rs => .ok (command.answer rs)) q state

/-- A query's rows can be read in two steps. -/
theorem reading_read {β : Type} (b : Responder σ) (f : List Record → α) (g : α → Except Error β)
    (q : Request) (state : σ) : (b.reading (fun rs => .ok (f rs)) q state).read g =
      b.reading (fun rs => g (f rs)) q state := by
  unfold reading
  obtain ⟨result, events, next⟩ := b.rows q state
  cases result <;> rfl

theorem noting_map (b : Responder σ) (f : List Record → α) (q : Request)
    (w : σ × List Request) : (noting b.rows q w).map f =
      noting (b.reading fun rs => .ok (f rs)) q w := by
  unfold noting reading
  obtain ⟨result, events, next⟩ := b.rows q w.1
  cases result <;> rfl

variable {b : Responder σ} {shown : Text → Option Text} {client : Client (σ × List Request)}

theorem Serves.queryTagged (h : b.Serves shown client) (tag : Text) :
    client.queryTagged tag = b.query (shown tag) := by
  induction h with
  | tagged => rfl
  | plain => rfl
  | reference _ ih => exact ih

theorem Serves.executeTagged (h : b.Serves shown client) (tag : Text) :
    client.executeTagged tag = b.execute (shown tag) := by
  induction h with
  | tagged => rfl
  | plain => rfl
  | reference _ ih => exact ih

end Responder

/-- The request that a statement is sent with: an execution for a write, and a query for all else. -/
def Command.request (command : Command) (t : Statement) (tag : Option Text) : Request :=
  ⟨if command.isWrite then .execute else .query, tag, t.compiled.sql, t.compiled.params⟩

theorem Step.map_map {σ α β γ : Type} (f : α → β) (g : β → γ) (r : Step σ α) :
    (r.map f).map g = r.map fun a => g (f a) := by
  obtain ⟨result, events, state⟩ := r
  cases result <;> rfl

namespace Session

variable {σ : Type} {s : Session} {command : Command}

/-- Whatever its client is, a command makes one request of it. -/
theorem send_request {b : Responder σ} {shown : Text → Option Text}
    {client : Client (σ × List Request)} (hc : b.Serves shown client) (command : Command)
    (t : Statement) (w : σ × List Request) :
    send client command t w =
      Responder.noting (b.reply command) (command.request t (shown t.tag)) w := by
  have hq := hc.queryTagged t.tag
  have hx := hc.executeTagged t.tag
  -- A single row is the first of those that are queried.
  have hone {f : Option Record → Answer} {g : List Record → Answer}
      (hfg : ∀ rs, f (List.head? rs) = g rs) :
      ((client.queryTagged t.tag t.compiled.sql t.compiled.params w).map List.head?).map f =
        Responder.noting (b.reading fun rs => .ok (g rs))
          ⟨.query, shown t.tag, t.compiled.sql, t.compiled.params⟩ w := by
    rw [Step.map_map, hq, ← funext hfg]
    exact b.noting_map _ _ w
  cases command with
  | select columns =>
    change (client.queryTagged t.tag _ _ w).map _ = _
    rw [hq]
    exact b.noting_map _ _ w
  | update values =>
    change (client.executeTagged t.tag _ _ w).map _ = _
    rw [hx]
    rfl
  | delete =>
    change (client.executeTagged t.tag _ _ w).map _ = _
    rw [hx]
    rfl
  | selectOne columns => exact hone fun _ => rfl
  | insert values => exact hone fun rs => congrArg Answer.value (firstValue_head? rs)
  | aggregate function column => exact hone fun rs => congrArg Answer.value (total_head? rs)

theorem draft_fault {e : Error} (h : s.fault = some e) (command : Command) :
    s.draft command = ⟨[], .error e⟩ := by
  have ht : s.target = .error e := by
    unfold target
    rw [h]
  have hselect (u : Session) (hu : u.target = .error e) (columns : List Text) :
      u.select columns = .error e := by
    unfold select
    rw [hu]
    rfl
  cases command with
  | select columns => exact congrArg (Draft.mk []) (hselect s ht columns)
  | selectOne columns =>
    refine congrArg (Draft.mk []) ?_
    rw [selectOne_eq]
    exact hselect s.single ((single_keeps s).2.1.trans ht) columns
  | insert values =>
    refine congrArg (Draft.mk []) ?_
    unfold insert
    rw [ht]
    rfl
  | update values =>
    change s.update values = _
    unfold update
    rw [ht]
  | delete =>
    change s.delete = _
    unfold delete
    rw [ht]
  | aggregate function column =>
    refine congrArg (Draft.mk []) ?_
    unfold aggregate
    rw [ht]
    rfl

theorem guarded_events (s : Session) (write : Write) (table : Identifier)
    (statement : Except Error Statement) :
    ∀ event ∈ (s.guarded write table statement).events, event = .unfiltered write table := by
  unfold guarded guard
  split_ifs <;> simp

/-- The making of a statement logs nothing but that a write has no filter. -/
theorem draft_events (s : Session) (command : Command) :
    ∀ event ∈ (s.draft command).events, ∃ write table, event = .unfiltered write table := by
  cases command with
  | update values =>
    change ∀ event ∈ (s.update values).events, _
    unfold update
    split
    · simp
    · split_ifs
      · simp
      · exact fun event he => ⟨_, _, s.guarded_events _ _ _ event he⟩
  | delete =>
    change ∀ event ∈ s.delete.events, _
    unfold delete
    split
    · simp
    · exact fun event he => ⟨_, _, s.guarded_events _ _ _ event he⟩
  | _ => simp [draft]

theorem perform_ok {t : Statement} (h : (s.draft command).result = .ok t) (client : Client σ)
    (state : σ) :
    s.perform client command state =
      ⟨(send client command t state).result,
        (s.draft command).events ++ s.config.event t :: (send client command t state).events,
        (send client command t state).state⟩ := by
  unfold perform
  dsimp only
  rw [h]

/-- How a terminal operation of a session ends, whose request has an answer. -/
structure Concludes {α : Type} (s : Session) (shown : Text → Option Text) (command : Command)
    (answer : Request → σ → Step σ α) (w : σ × List Request) (r : Step (σ × List Request) α) :
    Prop where
  /-- The first call that failed decides, and nothing is logged or sent. -/
  failed : ∀ e, s.fault = some e → r = ⟨.error e, [], w⟩
  /-- Without a statement nothing is sent. -/
  unmade : ∀ e, (s.draft command).result = .error e →
    r = ⟨.error e, (s.draft command).events, w⟩
  /-- No statement is logged before it is there. -/
  unlogged : ∀ event ∈ (s.draft command).events, event.target ≠ "pgchain.sql".toList
  /-- A statement is logged once, and then sent once. -/
  made : ∀ t, (s.draft command).result = .ok t →
    let q := command.request t (shown t.tag)
    let a := answer q w.1
    let logged := Event.statement s.config.level t.tag t.compiled.params.length t.compiled.names
      (s.config.truncate t.compiled.sql) (s.config.truncate t.namedSql)
    logged.target = "pgchain.sql".toList ∧
      r = ⟨a.result, (s.draft command).events ++ logged :: a.events, (a.state, w.2 ++ [q])⟩

theorem perform_concludes {b : Responder σ} {shown : Text → Option Text}
    {client : Client (σ × List Request)} (hc : b.Serves shown client) (s : Session)
    (command : Command) (w : σ × List Request) :
    s.Concludes shown command (b.reply command) w (s.perform client command w) := by
  constructor
  · intro e he
    have hd := draft_fault he command
    rw [perform_error (by rw [hd]), hd]
  · exact fun e he => perform_error he client w
  · intro event he
    obtain ⟨write, table, rfl⟩ := s.draft_events command event he
    change "pgchain.guard".toList ≠ "pgchain.sql".toList
    decide
  · intro t ht
    rw [perform_ok ht, send_request hc]
    exact ⟨rfl, rfl⟩

/-- Reading an answer further changes what is answered, and neither the log nor the requests. -/
theorem Concludes.read {α β : Type} {shown : Text → Option Text} {answer : Request → σ → Step σ α}
    {w : σ × List Request} {r : Step (σ × List Request) α}
    (h : s.Concludes shown command answer w r) {f : α → Except Error β}
    {further : Request → σ → Step σ β}
    (hf : ∀ q state, (answer q state).read f = further q state) :
    s.Concludes shown command further w (r.read f) := by
  refine ⟨fun e he => ?_, fun e he => ?_, h.unlogged, fun t ht => ?_⟩
  · rw [h.failed e he]
    rfl
  · rw [h.unmade e he]
    rfl
  · obtain ⟨htarget, hr⟩ := h.made t ht
    refine ⟨htarget, ?_⟩
    rw [hr, ← hf]
    rfl

/-- After any calls, a terminal operation ends in the error of the first call that failed since the
query was started, or without a statement, or with one event and one request for its statement. The
typed selections are such operations, whose rows are read as they come. -/
theorem answered_once (config : QueryConfig) (table : Text) (calls : List Call)
    (b : Responder σ) {shown : Text → Option Text} {client : Client (σ × List Request)}
    (hc : b.Serves shown client) (w : σ × List Request) :
    let s := (start config table).run calls
    s.fault = Call.firstFault? config table calls ∧ s.config = config ∧
    (∀ command, s.Concludes shown command (b.reply command) w (s.perform client command w)) ∧
    ∀ (α : Type) (read : Record → Except Error α) (columns : List Text),
      s.Concludes shown (.select columns) (b.reading fun rs => rs.mapM read) w
        (s.selectAllAs read client columns w) ∧
      s.Concludes shown (.selectOne columns) (b.reading fun rs => rs.head?.mapM read) w
        (s.selectOneAs read client columns w) := by
  intro s
  refine ⟨run_fault config table calls, (run_remembers config table calls).config_eq,
    fun command => perform_concludes hc s command w, fun α read columns => ⟨?_, ?_⟩⟩
  · exact (perform_concludes hc s (.select columns) w).read (b.reading_read Answer.rows _)
  · refine (perform_concludes hc s (.selectOne columns) w).read fun q state => ?_
    have hread := b.reading_read (fun rs => Answer.row rs.head?)
      (fun a => a.records.head?.mapM read) q state
    simp only [Answer.records, Option.head?_toList] at hread
    exact hread

theorem answered_once_orders :
    let row : Record := ⟨[("id".toList, .int 5), ("total".toList, .int 7),
      ("total".toList, .int 8)]⟩
    let b : Responder Nat :=
      ⟨fun _ n => ⟨.ok [row, ⟨[]⟩], [], n + 1⟩, fun _ n => ⟨.ok 3, [], n + 1⟩⟩
    let client : Client (Nat × List Request) :=
      { query := b.query none, execute := b.execute none }
    let calls : List Call := [.filter "=".toList, .retarget "orders".toList,
      .filter "id = 5".toList]
    let s := (start {} "users".toList).run calls
    b.Serves (fun _ => none) client.reference ∧
      ∀ answered ∈ [(Command.aggregate .sum (some "price".toList), Answer.value (.int 7)),
        (.insert [("note".toList, .null)], .value (.int 5)),
        (.update [("note".toList, .null)], .affected 3), (.selectOne [], .row (some row))],
      ∃ t, (s.draft answered.1).result = .ok t ∧
        (s.perform client.reference answered.1 (0, [])).result = .ok answered.2 ∧
        (s.perform client.reference answered.1 (0, [])).state =
          (1, [⟨if answered.1.isWrite then .execute else .query, none, t.compiled.sql,
            t.compiled.params⟩]) := by
  intro row b client calls s
  have hc : b.Serves (fun _ => none) client.reference := .reference .plain
  obtain ⟨-, -, h, -⟩ := answered_once {} "users".toList calls b hc (0, [])
  refine ⟨hc, fun answered ha => ?_⟩
  have hmade := (h answered.1).made
  simp only [List.mem_cons, List.not_mem_nil, or_false] at ha
  rcases ha with rfl | rfl | rfl | rfl
  all_goals
    refine ⟨_, rfl, ?_⟩
    exact ⟨congrArg Step.result (hmade _ rfl).2, congrArg Step.state (hmade _ rfl).2⟩

end Session

end FluentSql
