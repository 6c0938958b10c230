import FluentSql.Client
import FluentSql.Session.Statement

namespace FluentSql

/-- The result of a command that was run. -/
inductive Answer where
  | rows (rs : List Record)
  | row (r : Option Record)
  | value (v : Value)
  | affected (count : Nat)
  deriving DecidableEq, Repr

/-- The records that an answer is made of. -/
def Answer.records : Answer → List Record
  | rows rs => rs
  | row r => r.toList
  | _ => []

namespace Session

/-- The first value of a row, or null. -/
def firstValue (r : Option Record) : Value := ((r.bind fun r => r.values.head?).getD .null)

/-- The column `total` of a row, or null. -/
def total (r : Option Record) : Value := ((r.bind fun r => r.get? "total".toList).getD .null)

/-- Sends a statement to a client: a query that returns rows, or an execution that counts them. -/
def send {σ : Type} (client : Client σ) (command : Command) (t : Statement) (state : σ) :
    Step σ Answer :=
  let sql := t.compiled.sql
  let params := t.compiled.params
  match command with
  | .select _ => (client.queryTagged t.tag sql params state).map .rows
  | .selectOne _ => (client.queryOptTagged t.tag sql params state).map .row
  | .insert _ => (client.queryOptTagged t.tag sql params state).map fun r => .value (firstValue r)
  | .update _ => (client.executeTagged t.tag sql params state).map .affected
  | .delete => (client.executeTagged t.tag sql params state).map .affected
  | .aggregate _ _ => (client.queryOptTagged t.tag sql params state).map fun r => .value (total r)

/-- Runs a command: the statement is logged and sent, unless it cannot be made. -/
def perform {σ : Type} (s : Session) (client : Client σ) (command : Command) (state : σ) :
    Step σ Answer :=
  let draft := s.draft command
  match draft.result with
  | .error e => ⟨.error e, draft.events, state⟩
  | .ok t =>
    let r := send client command t state
    { r with events := draft.events ++ s.config.event t :: r.events }

/-- Every row as `read` reads it, or the first error. -/
def selectAllAs {σ α : Type} (read : Record → Except Error α) (s : Session) (client : Client σ)
    (columns : List Text) (state : σ) : Step σ (List α) :=
  (s.perform client (.select columns) state).read fun a => a.records.mapM read

/-- The first row as `read` reads it, if there is one. -/
def selectOneAs {σ α : Type} (read : Record → Except Error α) (s : Session) (client : Client σ)
    (columns : List Text) (state : σ) : Step σ (Option α) :=
  (s.perform client (.selectOne columns) state).read fun a => a.records.head?.mapM read

end Session

end FluentSql
