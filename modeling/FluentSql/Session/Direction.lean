import FluentSql.Error
import FluentSql.Text.Blank

namespace FluentSql

inductive Direction where
  | asc
  | desc
  deriving DecidableEq, Repr

namespace Direction

def toSql : Direction → Text
  | asc => "ASC".toList
  | desc => "DESC".toList

def ofText (t : Text) : Except Refusal Direction :=
  let word := Text.lower (Text.trim t)
  if word = "asc".toList then .ok asc
  else if word = "desc".toList then .ok desc
  else .error (.badDirection t)

end Direction

inductive Aggregate where
  | count | sum | avg | min | max
  deriving DecidableEq, Repr

namespace Aggregate

def toSql : Aggregate → Text
  | count => "COUNT".toList
  | sum => "SUM".toList
  | avg => "AVG".toList
  | min => "MIN".toList
  | max => "MAX".toList

def tag : Aggregate → Text
  | count => "count".toList
  | sum => "sum".toList
  | avg => "avg".toList
  | min => "min".toList
  | max => "max".toList

end Aggregate

end FluentSql
