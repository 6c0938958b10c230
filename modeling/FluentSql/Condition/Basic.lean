import FluentSql.Condition.Comparison
import FluentSql.Text.Blank

namespace FluentSql.Condition

/-- One comparison of a column with a value, which is kept as it was written. -/
structure Predicate where
  column : Text
  op : Comparison
  value : Text
  deriving DecidableEq, Repr

inductive Fault where
  | empty
  | emptyPredicate (position : Nat)
  | missingColumn (fragment : Text)
  | missingOperator (fragment : Text)
  | missingValue (fragment : Text)
  | unterminatedQuote (fragment : Text)
  | nothingAccepted (skipped : Nat)
  deriving DecidableEq, Repr

def Fault.message : Fault → Text
  | empty => "condition is empty".toList
  | emptyPredicate n => "empty predicate at position ".toList ++ Text.decimal n
  | missingColumn t => "missing column name in '".toList ++ t ++ ['\'']
  | missingOperator t => "no comparison operator in '".toList ++ t ++ ['\'']
  | missingValue t => "missing value in '".toList ++ t ++ ['\'']
  | unterminatedQuote t => "unterminated quote in '".toList ++ t ++ ['\'']
  | nothingAccepted n =>
    "no valid predicate in condition (".toList ++ Text.decimal n ++ " fragment(s) skipped)".toList

/-- A fragment that was left out, and why. -/
structure Skipped where
  fragment : Text
  fault : Fault
  deriving DecidableEq, Repr

structure Reading where
  accepted : List Predicate
  skipped : List Skipped
  deriving DecidableEq, Repr

def isColumnStart (c : Char) : Bool := c == '_' || c.isAlpha

def isColumnChar (c : Char) : Bool := c == '_' || c.isAlphanum

/-- The longest column name at the head of a text, which may be empty, and the rest. -/
def splitColumn : Text → Text × Text
  | [] => ([], [])
  | c :: t =>
    if isColumnStart c then (c :: t.takeWhile isColumnChar, t.dropWhile isColumnChar)
    else ([], c :: t)

end FluentSql.Condition
