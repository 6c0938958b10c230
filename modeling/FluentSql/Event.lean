import FluentSql.Binding.Compile
import FluentSql.Error
import FluentSql.Policy

namespace FluentSql

/-- A statement that can be run, with named and with numbered placeholders. -/
structure Statement where
  tag : Text
  namedSql : Text
  compiled : Compiled
  deriving DecidableEq, Repr

/-- What is logged. -/
inductive Event where
  | statement (level : Level) (tag : Text) (count : Nat) (names : List Text) (sql namedSql : Text)
  | skipped (fragment : Text) (fault : Condition.Fault)
  | unfiltered (write : Write) (table : Identifier)
  | connected (host : Text) (port : Nat) (database : Text)
  | connectionFailed (host : Text) (port : Nat) (database : Text) (reason : Text)
  | connectionEnded
  deriving DecidableEq, Repr

namespace Event

def target : Event → Text
  | statement .. => "pgchain.sql".toList
  | skipped .. => "pgchain.condition".toList
  | unfiltered .. => "pgchain.guard".toList
  | connected .. => "pgchain.connection".toList
  | connectionFailed .. => "pgchain.connection".toList
  | connectionEnded => "pgchain.connection".toList

def level : Event → Level
  | statement level .. => level
  | skipped .. => .warn
  | unfiltered .. => .warn
  | connected .. => .info
  | connectionFailed .. => .error
  | connectionEnded => .error

/-- The fields of an event by name, with its message as one of them. -/
def fields : Event → List (String × Text)
  | statement _ tag count names sql namedSql =>
    [("tag", tag), ("param_count", Text.decimal count), ("placeholders", Text.quotedList names),
      ("sql", sql), ("named_sql", namedSql)]
  | skipped fragment fault =>
    [("fragment", fragment), ("error", fault.message),
      ("message", "skipping malformed condition fragment".toList)]
  | unfiltered write table =>
    [("op", write.text), ("table", table.toSql),
      ("message", "running ".toList ++ write.text ++ " without a WHERE clause".toList)]
  | connected host port database =>
    [("host", host), ("port", Text.decimal port), ("database", database),
      ("message", "connected".toList)]
  | connectionFailed host port database reason =>
    [("host", host), ("port", Text.decimal port), ("database", database), ("error", reason),
      ("message", "connection failed".toList)]
  | connectionEnded => [("message", "connection task ended".toList)]

end Event

namespace QueryConfig

/-- As many whole characters from the left as fit into the given bytes. -/
def fitting : Nat → Text → Text
  | _, [] => []
  | room, c :: t => if c.utf8Size ≤ room then c :: fitting (room - c.utf8Size) t else []

/-- A statement as it is logged: cut to the limit, with an ellipsis, if it is longer. -/
def truncate (config : QueryConfig) (sql : Text) : Text :=
  match config.maxLength with
  | some most => if most < Text.byteLength sql then fitting most sql ++ ['.', '.', '.'] else sql
  | none => sql

def event (config : QueryConfig) (s : Statement) : Event :=
  .statement config.level s.tag s.compiled.params.length s.compiled.names
    (config.truncate s.compiled.sql) (config.truncate s.namedSql)

end QueryConfig

end FluentSql
