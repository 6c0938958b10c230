import FluentSql.Numeric.Basic
import FluentSql.Text.Basic

namespace FluentSql.Numeric

/-- The digits read so far. -/
structure Scan where
  point : Bool
  digits : Bool
  mantissa : Nat
  scale : Nat

/-- Ends a number at the first digit that no longer fits. Digits and underscores may follow it, and
do not count. -/
def Scan.round? (s : Scan) (c : Char) (t : Text) : Option (Nat × Nat) :=
  if !t.all fun c => c.isDigit || c == '_' then none
  else if c.isDigit then
    if c < '5' then some (s.mantissa, s.scale)
    else if s.mantissa + 1 < limit then some (s.mantissa + 1, s.scale)
    else if s.scale = 0 then none
    else some ((s.mantissa + 5) / 10, s.scale - 1)
  else if c = '_' || (c = '.' && s.point) then some (s.mantissa, s.scale)
  else none

/-- Reads digits with at most one point; underscores may follow a digit. -/
def scan? (s : Scan) : Text → Option (Nat × Nat)
  | [] => if s.digits then some (s.mantissa, s.scale) else none
  | c :: t =>
    if s.point && 28 ≤ s.scale then s.round? c t
    else if c.isDigit then
      let m := s.mantissa * 10 + (c.toNat - '0'.toNat)
      if m < limit then
        scan? ⟨s.point, true, m, if s.point then s.scale + 1 else 0⟩ t
      else if s.point then s.round? c t
      else none
    else if c = '.' && !s.point then scan? { s with point := true } t
    else if c = '_' && s.digits then scan? s t
    else none

def readPlain? (t : Text) : Option Numeric :=
  let signed (negative : Bool) (t : Text) : Option Numeric :=
    (scan? ⟨false, false, 0, 0⟩ t).map fun r => ⟨negative, r.1, r.2⟩
  match t with
  | [] => none
  | '-' :: t => signed true t
  | '+' :: t => signed false t
  | t => signed false t

def readDigits? (t : Text) : Option Nat :=
  let t := match t with
    | '+' :: t => t
    | t => t
  if !t.isEmpty && t.all Char.isDigit then some (Text.ofDecimal t) else none

/-- Moves the point by an exponent of at most 28. No more than 28 digits can stand after the point;
a half of the last goes up. -/
def shift? (a : Numeric) (exponent : Text) : Option Numeric :=
  match exponent with
  | '-' :: t =>
    (readDigits? t).bind fun e =>
      if maxScale < e then none
      else
        let kept := a.rescale (min a.scale (maxScale - e))
        some { kept with scale := kept.scale + e }
  | t =>
    (readDigits? t).bind fun e =>
      if maxScale < e then none
      else if e ≤ a.scale then some { a with scale := a.scale - e }
      else
        let m := a.mantissa * Nat.pow 10 (e - a.scale)
        if m < limit then some { a with mantissa := m, scale := 0 } else none

/-- Reads a decimal number, with or without an exponent. -/
def read? (t : Text) : Option Numeric :=
  let isMark (c : Char) : Bool := c == 'e' || c == 'E'
  match t.dropWhile fun c => !isMark c with
  | [] => readPlain? t
  | _ :: exponent => (readPlain? (t.takeWhile fun c => !isMark c)).bind (shift? · exponent)

end FluentSql.Numeric
