import FluentSql.Text.Basic

namespace FluentSql

/-- The type of a parameter or a column. -/
inductive SqlType where
  | bool | int2 | int4 | int8 | oid | float4 | float8 | numeric
  | date | time | timestamp | timestamptz | uuid | json | jsonb
  | text | varchar | bpchar | name | unknown
  /-- A type of the server that no value is mapped to. -/
  | builtin (typeName : Text)
  | custom (schema typeName : Text)
  deriving DecidableEq, Repr

namespace SqlType

def mapped : List (Text × SqlType) :=
  [("bool".toList, bool), ("int2".toList, int2), ("int4".toList, int4), ("int8".toList, int8),
    ("oid".toList, oid), ("float4".toList, float4), ("float8".toList, float8),
    ("numeric".toList, numeric), ("date".toList, date), ("time".toList, time),
    ("timestamp".toList, timestamp), ("timestamptz".toList, timestamptz), ("uuid".toList, uuid),
    ("json".toList, json), ("jsonb".toList, jsonb), ("text".toList, text),
    ("varchar".toList, varchar), ("bpchar".toList, bpchar), ("name".toList, name),
    ("unknown".toList, unknown)]

/-- A built-in type by its name. -/
def ofName (t : Text) : SqlType :=
  match mapped.find? fun m => m.1 = t with
  | some m => m.2
  | none => builtin t

/-- The name of a type, after its schema unless that is one that is always searched. -/
def toText : SqlType → Text
  | builtin t => t
  | custom schema t =>
    if schema = "public".toList ∨ schema = "pg_catalog".toList then t else schema ++ '.' :: t
  | ty => match mapped.find? fun m => m.2 = ty with
    | some m => m.1
    | none => []

/-- Custom types that hold text, with the version byte that their values begin with. -/
def customText : List (Text × List UInt8) :=
  [("citext".toList, []), ("ltree".toList, [1]), ("lquery".toList, [1]), ("ltxtquery".toList, [1])]

/-- The bytes before the text of a value; `none` if the type does not hold text. -/
def textVersion? : SqlType → Option (List UInt8)
  | text => some []
  | varchar => some []
  | bpchar => some []
  | name => some []
  | unknown => some []
  | custom _ t => (customText.find? fun m => m.1 = t).map (·.2)
  | _ => none

end SqlType

end FluentSql
