import FluentSql.Client
import FluentSql.Wire.Decode
import FluentSql.Wire.Encode

namespace FluentSql.Wire

/-- The stage of a statement at which a server fails. -/
inductive Stage where
  | prepare
  | bind
  | execute
  deriving DecidableEq, Repr

/-- An error that a server reports. -/
structure ServerError where
  code : Text
  message : Text
  constraint : Option Text
  deriving DecidableEq, Repr

/-- Violations of a constraint have errors of their own. -/
def ServerError.toError (e : ServerError) : Error :=
  let told := e.constraint.getD "unknown".toList ++ ": ".toList ++ e.message
  if e.code = "23505".toList then .uniqueViolation told
  else if e.code = "23503".toList then .foreignKeyViolation told
  else if e.code = "23514".toList then .checkViolation told
  else .statement .database

/-- What a server has in store for a statement. -/
structure Script where
  paramTypes : List SqlType := []
  columns : List ColumnInfo := []
  rows : List (List (Option Bytes)) := []
  /-- The count that an execution reports; `none` for the number of rows. -/
  affected : Option Nat := none
  failure : Option (Stage × ServerError) := none

/-- What a server sees. -/
inductive Message where
  | prepare (sql : Text)
  | bind (values : List (Option Bytes))
  deriving DecidableEq, Repr

/-- Encodes parameters from an index on, or fails with the first that cannot be sent. -/
def encodeParams : Nat → List (Value × SqlType) → Except Error (List (Option Bytes))
  | _, [] => .ok []
  | n, (v, type) :: rest =>
    match encode v type with
    | .error _ => .error (.statement (.parameter n))
    | .ok bytes => (encodeParams (n + 1) rest).map (bytes :: ·)

def Script.failsAt (s : Script) (stage : Stage) : Option Error :=
  s.failure.bind fun f => if f.1 = stage then some f.2.toError else none

/-- Prepares and binds a statement; the messages that the server sees come with the outcome. -/
def Script.bind (s : Script) (sql : Text) (params : List Value) :
    Except Error Unit × List Message :=
  let prepared := Message.prepare sql
  if '\x00' ∈ sql then (.error (.statement .unsendable), [])
  else
    match s.failsAt .prepare with
    | some e => (.error e, [prepared])
    | none =>
      if s.paramTypes.length ≠ params.length then
        (.error (.statement (.parameterCount s.paramTypes.length params.length)), [prepared])
      else
        match encodeParams 0 (params.zip s.paramTypes) with
        | .error e => (.error e, [prepared])
        | .ok values =>
          match s.failsAt .bind with
          | some e => (.error e, [prepared, .bind values])
          | none =>
            match s.failsAt .execute with
            | some e => (.error e, [prepared, .bind values])
            | none => (.ok (), [prepared, .bind values])

def Script.query (s : Script) (sql : Text) (params : List Value) :
    Except Error (List Record) × List Message :=
  let (outcome, seen) := s.bind sql params
  match outcome with
  | .error e => (.error e, seen)
  | .ok _ => (decodeRows s.columns s.rows, seen)

def Script.execute (s : Script) (sql : Text) (params : List Value) :
    Except Error Nat × List Message :=
  let (outcome, seen) := s.bind sql params
  (outcome.map fun _ => s.affected.getD s.rows.length, seen)

/-- A connection to a server: its script, and what it has seen. -/
structure Peer where
  script : Script
  seen : List Message

/-- A client that is connected to a server. It takes no notice of tags. -/
def connected : Client Peer where
  query sql params p :=
    let (result, seen) := p.script.query sql params
    ⟨result, [], { p with seen := p.seen ++ seen }⟩
  execute sql params p :=
    let (result, seen) := p.script.execute sql params
    ⟨result, [], { p with seen := p.seen ++ seen }⟩

end FluentSql.Wire
