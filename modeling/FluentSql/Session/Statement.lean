import FluentSql.Session.Basic

namespace FluentSql

def Test.toSql : Test → Text
  | isNull => "IS NULL".toList
  | isNotNull => "IS NOT NULL".toList
  | compare op placeholder => op.token ++ ' ' :: placeholder

def FilterTerm.toSql (t : FilterTerm) : Text := t.column.toSql ++ ' ' :: t.test.toSql

def Column.toSql : Column → Text
  | all => ['*']
  | named name => name.toSql

/-- The statement that a session is to make. -/
inductive Command where
  | select (columns : List Text)
  | selectOne (columns : List Text)
  | insert (values : List (Text × Value))
  | update (values : List (Text × Value))
  | delete
  | aggregate (function : Aggregate) (column : Option Text)
  deriving DecidableEq, Repr

/-- What becomes of a command: a statement or an error, and what was logged on the way. -/
structure Draft where
  events : List Event
  result : Except Error Statement

namespace Session

def commaList (items : List Text) : Text := Text.joinWith [',', ' '] items

def whereClause (s : Session) : Text :=
  if s.filter.isEmpty then []
  else " WHERE ".toList ++ Text.joinWith " AND ".toList (s.filter.map FilterTerm.toSql)

def groupClause (s : Session) : Text :=
  if s.groupBy.isEmpty then []
  else " GROUP BY ".toList ++ commaList (s.groupBy.map Column.toSql)

def orderClause (s : Session) : Text :=
  if s.orderBy.isEmpty then []
  else " ORDER BY ".toList ++ commaList (s.orderBy.map fun t => t.1.toSql ++ ' ' :: t.2.toSql)

def limitClause (s : Session) : Text :=
  match s.limit with
  | some n => " LIMIT ".toList ++ Text.decimal n
  | none => []

def offsetClause (s : Session) : Text :=
  match s.offset with
  | some n => " OFFSET ".toList ++ Text.decimal n
  | none => []

/-- The clauses after the filter. -/
def bounds (s : Session) : Text :=
  s.groupClause ++ s.orderClause ++ s.limitClause ++ s.offsetClause

/-- The filter of a write. Bounds go into a selection of row addresses, since a write cannot have
them itself. -/
def writeFilter (s : Session) (table : Identifier) : Text :=
  if s.bounds.isEmpty then s.whereClause
  else
    " WHERE ctid IN (SELECT ctid FROM ".toList ++ table.toSql ++ s.whereClause ++ s.bounds ++ [')']

def primaryKeySql (s : Session) : Text :=
  match s.primaryKey with
  | some name => name.toSql
  | none => "\"id\"".toList

/-- The table, unless a fluent call failed. -/
def target (s : Session) : Except Error Identifier :=
  match s.fault with
  | some e => .error e
  | none =>
    match s.table with
    | some table => .ok table
    | none => .error (.validation .noTable)

def finish (tag namedSql : Text) (bs : Bindings) : Except Error Statement :=
  match bs.compile namedSql with
  | .ok compiled => .ok ⟨tag, namedSql, compiled⟩
  | .error name => .error (.binding (.unbound name))

def select (s : Session) (columns : List Text) : Except Error Statement := do
  let table ← s.target
  let columns ← Column.readAll columns
  let list := if columns.isEmpty then ['*'] else commaList (columns.map Column.toSql)
  finish "select".toList
    ("SELECT ".toList ++ list ++ " FROM ".toList ++ table.toSql ++ s.whereClause ++ s.bounds)
    s.bindings

/-- One row, unless the session has a limit of its own. -/
def selectOne (s : Session) (columns : List Text) : Except Error Statement :=
  if s.limit.isNone then (s.setLimit 1 none).select columns else s.select columns

/-- Binds the values of named columns for a clause: the columns with their placeholders, and the
bindings. -/
def bindColumns (clause : Clause) :
    Bindings → List (Text × Value) → Except Error (List (Identifier × Text) × Bindings)
  | bs, [] => .ok ([], bs)
  | bs, (c, v) :: rest =>
    match Role.column.read c with
    | .error e => .error e
    | .ok column =>
      let (name, bs) := bs.register clause column.seed v
      (bindColumns clause bs rest).map fun r => ((column, name) :: r.1, r.2)

def insert (s : Session) (values : List (Text × Value)) : Except Error Statement := do
  let table ← s.target
  if values.isEmpty then .error (.validation (.noColumns "insert".toList))
  else
    let (columns, bs) ← bindColumns .insert s.bindings values
    finish "insert".toList
      ("INSERT INTO ".toList ++ table.toSql ++ " (".toList ++
        commaList (columns.map fun c => c.1.toSql) ++ ") VALUES (".toList ++
        commaList (columns.map fun c => c.2) ++ ") RETURNING ".toList ++ s.primaryKeySql)
      bs

/-- Whether the session may write without a filter. -/
def mayWriteUnfiltered (s : Session) : Bool :=
  s.unfiltered.getD (s.config.unfiltered == .allow)

/-- Lets a write with a filter pass, and one without it only if that is allowed and logged. -/
def guard (s : Session) (write : Write) (table : Identifier) : Except Error (List Event) :=
  if !s.filter.isEmpty then .ok []
  else if s.mayWriteUnfiltered then .ok [.unfiltered write table]
  else .error (.validation (.unfiltered write table))

def updateStatement (s : Session) (table : Identifier) (values : List (Text × Value)) :
    Except Error Statement := do
  let (columns, bs) ← bindColumns .set s.bindings values
  finish "update".toList
    ("UPDATE ".toList ++ table.toSql ++ " SET ".toList ++
      commaList (columns.map fun c => c.1.toSql ++ " = ".toList ++ c.2) ++ s.writeFilter table)
    bs

def deleteStatement (s : Session) (table : Identifier) : Except Error Statement :=
  finish "delete".toList ("DELETE FROM ".toList ++ table.toSql ++ s.writeFilter table) s.bindings

/-- A write that the guard lets pass. -/
def guarded (s : Session) (write : Write) (table : Identifier)
    (statement : Except Error Statement) : Draft :=
  match s.guard write table with
  | .error e => ⟨[], .error e⟩
  | .ok events => ⟨events, statement⟩

def update (s : Session) (values : List (Text × Value)) : Draft :=
  match s.target with
  | .error e => ⟨[], .error e⟩
  | .ok table =>
    if values.isEmpty then ⟨[], .error (.validation (.noColumns "update".toList))⟩
    else s.guarded .update table (s.updateStatement table values)

def delete (s : Session) : Draft :=
  match s.target with
  | .error e => ⟨[], .error e⟩
  | .ok table => s.guarded .delete table (s.deleteStatement table)

def aggregate (s : Session) (function : Aggregate) (column : Option Text) :
    Except Error Statement := do
  let table ← s.target
  let argument ← match column with
    | none => Except.ok ['*']
    | some c => (Role.column.read c).map Identifier.toSql
  finish function.tag
    ("SELECT ".toList ++ function.toSql ++ '(' :: argument ++ ") AS total FROM ".toList ++
      table.toSql ++ s.whereClause ++ s.groupClause)
    s.bindings

def draft (s : Session) : Command → Draft
  | .select columns => ⟨[], s.select columns⟩
  | .selectOne columns => ⟨[], s.selectOne columns⟩
  | .insert values => ⟨[], s.insert values⟩
  | .update values => s.update values
  | .delete => s.delete
  | .aggregate function column => ⟨[], s.aggregate function column⟩

end Session

end FluentSql
