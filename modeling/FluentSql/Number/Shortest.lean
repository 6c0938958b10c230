import FluentSql.Number.Binary
import FluentSql.Text.Basic

namespace FluentSql.Shortest

/-- The number `digits · 10 ^ exponent`. -/
structure Decimal where
  digits : Nat
  exponent : Int
  deriving DecidableEq, Repr

/-- What half a step between two neighbouring decimals goes to. -/
inductive Tie where
  | up
  | even
  deriving DecidableEq

/-- A number above zero and the ends of the interval that rounds to it, all over one denominator. -/
structure Interval where
  low : Nat
  value : Nat
  high : Nat
  denominator : Nat
  closed : Bool

/-- The interval of `mantissa · 2 ^ unit`. The gap below the least mantissa of a binade is half as
wide, and the ends round to an even mantissa. -/
def interval (f : Binary.Format) (mantissa : Nat) (unit : Int) : Interval :=
  let below := if mantissa = Nat.pow 2 f.fraction ∧ f.leastUnit < unit then 1 else 2
  let (scale, denominator) := Binary.ratio 1 (unit - 2)
  ⟨(4 * mantissa - below) * scale, 4 * mantissa * scale, (4 * mantissa + 2) * scale,
    denominator, mantissa % 2 == 0⟩

/-- `c · 10 ^ t` over the denominator of the interval, with the factor for the interval's ends. -/
def onGrid (i : Interval) (c : Nat) : Int → Nat × Nat
  | .ofNat t => (c * Nat.pow 10 t * i.denominator, 1)
  | .negSucc t => (c * i.denominator, Nat.pow 10 (t + 1))

def contains (i : Interval) (c : Nat) (t : Int) : Bool :=
  let (x, k) := onGrid i c t
  if i.closed then i.low * k ≤ x && x ≤ i.high * k else i.low * k < x && x < i.high * k

def notAbove (i : Interval) (c : Nat) (t : Int) : Bool :=
  let (x, k) := onGrid i c t
  x ≤ i.value * k

/-- The exponent of the largest power of ten that is not above the number. -/
def leadingExponent (i : Interval) : Int :=
  let guess := Binary.logRatio i.value i.denominator * 30103 / 100000
  if notAbove i 1 (guess + 1) then guess + 1
  else if notAbove i 1 guess then guess
  else guess - 1

/-- The decimal of the grid `10 ^ t` that is nearest to the number among those in its interval. -/
def onGrid? (tie : Tie) (i : Interval) (t : Int) : Option Nat :=
  let (x, k) := onGrid i 1 t
  let c := i.value * k / x
  match contains i c t, contains i (c + 1) t with
  | false, false => none
  | true, false => some c
  | false, true => some (c + 1)
  | true, true =>
    let twice := 2 * (i.value * k)
    let middle := (2 * c + 1) * x
    if twice < middle then some c
    else if middle < twice then some (c + 1)
    else match tie with
      | .up => some (c + 1)
      | .even => some (if c % 2 = 0 then c else c + 1)

/-- Tries grids from coarse to fine; seventeen digits tell all doubles apart. -/
def search (tie : Tie) (i : Interval) : Nat → Int → Decimal
  | 0, t => ⟨(onGrid? tie i t).getD 0, t⟩
  | n + 1, t =>
    match onGrid? tie i t with
    | some c => ⟨c, t⟩
    | none => search tie i n (t - 1)

/-- The shortest decimal that reads back as `mantissa · 2 ^ unit`, and of those the nearest. -/
def ofBinary (tie : Tie) (f : Binary.Format) (mantissa : Nat) (unit : Int) : Decimal :=
  let i := interval f mantissa unit
  search tie i 17 (leadingExponent i)

end FluentSql.Shortest
