import FluentSql.Condition.Parse
import FluentSql.Event
import FluentSql.Session.Direction

namespace FluentSql

/-- How a filter tests a column. -/
inductive Test where
  | isNull
  | isNotNull
  | compare (op : Comparison) (placeholder : Text)
  deriving DecidableEq, Repr

/-- One of the predicates that a filter joins. -/
structure FilterTerm where
  column : Identifier
  test : Test
  deriving DecidableEq, Repr

/-- An entry of a column list. -/
inductive Column where
  | all
  | named (name : Identifier)
  deriving DecidableEq, Repr

/-- One logical query against one table. -/
structure Session where
  config : QueryConfig
  table : Option Identifier := none
  filter : List FilterTerm := []
  groupBy : List Column := []
  orderBy : List (Identifier × Direction) := []
  limit : Option Nat := none
  offset : Option Nat := none
  /-- The column that an insert returns; `none` for `id`. -/
  primaryKey : Option Identifier := none
  /-- Whether writes without a filter are allowed; `none` for what the configuration says. -/
  unfiltered : Option Bool := none
  bindings : Bindings := []
  /-- The first error of a fluent call, which the statement reports. -/
  fault : Option Error := none
  deriving DecidableEq, Repr

/-- Reads a name that is given for some role. -/
def Role.read (role : Role) (raw : Text) : Except Error Identifier :=
  match Identifier.ofText raw with
  | .ok i => .ok i
  | .error cause => .error (.validation (.badName role raw cause))

/-- A lone `*` is kept. -/
def Column.read (raw : Text) : Except Error Column :=
  if Text.trim raw = ['*'] then .ok .all else (Role.column.read raw).map .named

/-- Reads every column, or fails with the first that is malformed. -/
def Column.readAll : List Text → Except Error (List Column)
  | [] => .ok []
  | c :: cs =>
    match Column.read c with
    | .error e => .error e
    | .ok column => (readAll cs).map (column :: ·)

namespace Session

/-- Keeps the first error. -/
def fail (s : Session) (e : Error) : Session := { s with fault := s.fault.or (some e) }

/-- A new query against a table. -/
def start (config : QueryConfig) (table : Text) : Session :=
  match Role.table.read table with
  | .ok name => { config := config, table := some name }
  | .error e => { config := config, fault := some e }

/-- Turns a predicate into a term of a filter, and binds its value unless it asks for null. -/
def term (bs : Bindings) (p : Condition.Predicate) : Except Error (FilterTerm × Bindings) :=
  match Role.column.read p.column with
  | .error e => .error e
  | .ok column =>
    let value := Value.ofLiteral p.value
    match p.op, value with
    | .eq, .null => .ok (⟨column, .isNull⟩, bs)
    | .ne, .null => .ok (⟨column, .isNotNull⟩, bs)
    | .ltgt, .null => .ok (⟨column, .isNotNull⟩, bs)
    | op, value =>
      let (name, bs) := bs.register .filter column.seed value
      .ok (⟨column, .compare op name⟩, bs)

def terms : Bindings → List Condition.Predicate → Except Error (List FilterTerm × Bindings)
  | bs, [] => .ok ([], bs)
  | bs, p :: ps =>
    match term bs p with
    | .error e => .error e
    | .ok (t, bs) => (terms bs ps).map fun r => (t :: r.1, r.2)

/-- Reads a condition as the policy says: all of it, or what can be read and an event for each
fragment that cannot. -/
def readCondition (policy : MalformedPolicy) (condition : Text) :
    Except Condition.Fault (List Condition.Predicate) × List Event :=
  match policy with
  | .reject => (Condition.parse condition, [])
  | .skip =>
    match Condition.parseLenient condition with
    | .error e => (.error e, [])
    | .ok r =>
      let events := r.skipped.map fun k => Event.skipped k.fragment k.fault
      if r.accepted.isEmpty then (.error (.nothingAccepted r.skipped.length), events)
      else (.ok r.accepted, events)

/-- Replaces the filter and its bindings. A condition that fails leaves neither. -/
def setFilter (s : Session) (condition : Text) : Session × List Event :=
  let kept := s.bindings.removeClause .filter
  let cleared := { s with filter := [], bindings := kept }
  let (predicates, events) := readCondition s.config.malformed condition
  match predicates with
  | .error e => (cleared.fail (.condition e), events)
  | .ok ps =>
    match terms kept ps with
    | .error e => (cleared.fail e, events)
    | .ok (filter, bindings) => ({ s with filter := filter, bindings := bindings }, events)

def setGroupBy (s : Session) (columns : List Text) : Session :=
  match Column.readAll columns with
  | .ok cs => { s with groupBy := cs }
  | .error e => s.fail e

def readOrder : List (Text × Direction) → Except Error (List (Identifier × Direction))
  | [] => .ok []
  | (c, d) :: rest =>
    match Role.column.read c with
    | .error e => .error e
    | .ok name => (readOrder rest).map ((name, d) :: ·)

def setOrderBy (s : Session) (columns : List (Text × Direction)) : Session :=
  match readOrder columns with
  | .ok terms => { s with orderBy := terms }
  | .error e => s.fail e

/-- The most rows that an offset can skip. -/
def maxOffset : Nat := 18446744073709551615

/-- Limits the rows; a page after the first sets the offset as well. -/
def setLimit (s : Session) (count : Nat) (page : Option Nat) : Session :=
  match page with
  | some p =>
    if 1 < p then { s with limit := some count, offset := some (min maxOffset ((p - 1) * count)) }
    else { s with limit := some count }
  | none => { s with limit := some count }

def setOffset (s : Session) (rows : Nat) : Session := { s with offset := some rows }

def setPrimaryKey (s : Session) (column : Text) : Session :=
  match Role.primaryKey.read column with
  | .ok name => { s with primaryKey := some name }
  | .error e => s.fail e

def allowUnfiltered (s : Session) (allow : Bool) : Session := { s with unfiltered := some allow }

end Session

/-- A fluent call. -/
inductive Call where
  | retarget (table : Text)
  | filter (condition : Text)
  | groupBy (columns : List Text)
  | orderBy (columns : List (Text × Direction))
  | limit (count : Nat) (page : Option Nat)
  | offset (rows : Nat)
  | primaryKey (column : Text)
  | allowUnfiltered (allow : Bool)
  deriving DecidableEq, Repr

namespace Session

/-- Takes one fluent call. Only a filter logs anything. -/
def apply (s : Session) : Call → Session × List Event
  | .retarget table => (start s.config table, [])
  | .filter condition => s.setFilter condition
  | .groupBy columns => (s.setGroupBy columns, [])
  | .orderBy columns => (s.setOrderBy columns, [])
  | .limit count page => (s.setLimit count page, [])
  | .offset rows => (s.setOffset rows, [])
  | .primaryKey column => (s.setPrimaryKey column, [])
  | .allowUnfiltered allow => (s.allowUnfiltered allow, [])

/-- The session after a sequence of fluent calls. -/
def run (s : Session) (calls : List Call) : Session := calls.foldl (fun s c => (s.apply c).1) s

end Session

end FluentSql
