import FluentSql.Json.Writer
import FluentSql.Text.Blank
import FluentSql.Text.Clean
import FluentSql.Text.Quoted

namespace FluentSql

/-- A value in a condition, a binding or a row. -/
inductive Value where
  | null
  | bool (b : Bool)
  | int (i : Int64)
  | real (r : Double)
  | text (t : Text)
  deriving DecidableEq, Repr

namespace Value

/-- The text between two quotes of one kind. -/
def unquote? (q : Char) : Text → Option Text
  | [] => none
  | c :: t => if c = q && t.getLast? = some q then some t.dropLast else none

/-- What a literal of a condition stands for: quoted text, `null` in any case, or the text as it is
written. -/
def ofLiteral (t : Text) : Value :=
  let t := Text.trim t
  match (unquote? '\'' t).or (unquote? '"' t) with
  | some inner => text inner
  | none => if Text.lower t = "null".toList then null else text t

/-- Text is cleaned; nothing else changes. -/
def sanitized : Value → Value
  | text t => text (Text.sanitize t)
  | v => v

def isNull : Value → Bool
  | null => true
  | _ => false

def bool? : Value → Option Bool
  | bool b => some b
  | _ => none

def int? : Value → Option Int64
  | int i => some i
  | _ => none

/-- A whole number counts as the double nearest to it. -/
def real? : Value → Option Double
  | int i => some (Double.ofInt i.toInt)
  | real r => some r
  | _ => none

def text? : Value → Option Text
  | text t => some t
  | _ => none

def boolText (b : Bool) : Text := (if b then "true" else "false").toList

def toText : Value → Text
  | null => "NULL".toList
  | bool b => boolText b
  | int i => Text.signedDecimal i.toInt
  | real r => Double.plain.write r
  | text t => t

/-- The value with its kind, as messages show it. -/
def describe : Value → Text
  | null => "Null".toList
  | bool b => "Bool(".toList ++ boolText b ++ [')']
  | int i => "Int(".toList ++ Text.signedDecimal i.toInt ++ [')']
  | real r => "Real(".toList ++ Double.quoted.write r ++ [')']
  | text t => "Text(".toList ++ Text.quoted t ++ [')']

def toJson : Value → Json
  | null => .null
  | bool b => .bool b
  | int i => .int i.toInt
  | real r => .real r
  | text t => .text t

/-- Doubles compare as numbers, all else by what it is. -/
def equals : Value → Value → Bool
  | real a, real b => a.equals b
  | a, b => a = b

end Value

end FluentSql
