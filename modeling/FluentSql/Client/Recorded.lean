import FluentSql.Client

namespace FluentSql.Recorded

inductive Method where
  | query
  | execute
  deriving DecidableEq, Repr

/-- A request as a client saw it; requests without a tag have none. -/
structure Request where
  method : Method
  tag : Option Text
  sql : Text
  params : List Value
  deriving DecidableEq, Repr

inductive Reply where
  | rows (rs : List Record)
  | affected (count : Nat)
  | fail (e : Error)
  deriving DecidableEq, Repr

/-- The replies that are left and the requests made so far. -/
structure Tape where
  replies : List Reply
  requests : List Request
  deriving DecidableEq, Repr

def Tape.next (t : Tape) (r : Request) : Option Reply × Tape :=
  (t.replies.head?, ⟨t.replies.tail, t.requests ++ [r]⟩)

/-- Rows, or none if the reply has no rows. -/
def query (tag : Option Text) (sql : Text) (params : List Value) (t : Tape) :
    Step Tape (List Record) :=
  let (reply, t) := t.next ⟨.query, tag, sql, params⟩
  match reply with
  | some (.fail e) => ⟨.error e, [], t⟩
  | some (.rows rs) => ⟨.ok rs, [], t⟩
  | _ => ⟨.ok [], [], t⟩

/-- A count, or zero if the reply has none. -/
def execute (tag : Option Text) (sql : Text) (params : List Value) (t : Tape) : Step Tape Nat :=
  let (reply, t) := t.next ⟨.execute, tag, sql, params⟩
  match reply with
  | some (.fail e) => ⟨.error e, [], t⟩
  | some (.affected n) => ⟨.ok n, [], t⟩
  | _ => ⟨.ok 0, [], t⟩

/-- A client that takes no notice of tags. -/
def plain : Client Tape where
  query := query none
  execute := execute none

/-- A client that sees the tag of every request that has one. -/
def tagged : Client Tape where
  query := query none
  execute := execute none
  queryTagged tag := query (some tag)
  executeTagged tag := execute (some tag)

end FluentSql.Recorded
