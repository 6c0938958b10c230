import FluentSql.Text.Basic

namespace FluentSql.Integer

inductive Fault where
  | empty
  | invalidDigit
  | tooLarge
  | tooSmall
  deriving DecidableEq, Repr

def Fault.message : Fault → Text
  | empty => "cannot parse integer from empty string".toList
  | invalidDigit => "invalid digit found in string".toList
  | tooLarge => "number too large to fit in target type".toList
  | tooSmall => "number too small to fit in target type".toList

def digitValue (c : Char) : Nat := c.toNat - '0'.toNat

/-- Reads digits after those that count for `n`. The first digit that is none or that leads past
the bound decides. -/
def readUpTo (most : Nat) (past : Fault) : Nat → Text → Except Fault Nat
  | n, [] => .ok n
  | n, c :: t =>
    if !c.isDigit then .error .invalidDigit
    else if most < n * 10 + digitValue c then .error past
    else readUpTo most past (n * 10 + digitValue c) t

/-- Reads a whole number with an optional sign, within the bounds -`below` and `most`. -/
def read (below most : Nat) : Text → Except Fault Int
  | [] => .error .empty
  | ['+'] => .error .invalidDigit
  | ['-'] => .error .invalidDigit
  | '+' :: t => (readUpTo most .tooLarge 0 t).map Int.ofNat
  | '-' :: t => (readUpTo below .tooSmall 0 t).map fun n => -Int.ofNat n
  | t => (readUpTo most .tooLarge 0 t).map Int.ofNat

/-- Reads a whole number that cannot have a minus sign. -/
def readUnsigned (most : Nat) : Text → Except Fault Nat
  | [] => .error .empty
  | ['+'] => .error .invalidDigit
  | '+' :: t => readUpTo most .tooLarge 0 t
  | t => readUpTo most .tooLarge 0 t

/-- Whether a whole number with its sign has 64 bits. -/
def fits64 (i : Int) : Bool := -9223372036854775808 ≤ i && i ≤ 9223372036854775807

end FluentSql.Integer
