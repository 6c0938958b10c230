namespace FluentSql.Binary

/-- A binary floating-point format, by the widths of its fraction and its exponent. -/
structure Format where
  fraction : Nat
  exponent : Nat

def double : Format := ⟨52, 11⟩

def single : Format := ⟨23, 8⟩

/-- A finite number is `mantissa · 2 ^ unit`. -/
inductive Shape where
  | nan
  | infinite (negative : Bool)
  | finite (negative : Bool) (mantissa : Nat) (unit : Int)
  deriving DecidableEq, Repr

namespace Format

/-- The exponent of the smallest number above zero. -/
def leastUnit (f : Format) : Int := 2 - (Nat.pow 2 (f.exponent - 1) : Nat) - (f.fraction : Int)

/-- The bits of infinity, which are above those of every finite number. -/
def infinity (f : Format) : Nat := (Nat.pow 2 f.exponent - 1) * Nat.pow 2 f.fraction

def signBit (f : Format) : Nat := Nat.pow 2 (f.fraction + f.exponent)

def withSign (f : Format) (negative : Bool) (bits : Nat) : Nat :=
  if negative then f.signBit + bits else bits

def isNegative (f : Format) (bits : Nat) : Bool := f.signBit ≤ bits

def shape (f : Format) (bits : Nat) : Shape :=
  let negative := f.isNegative bits
  let magnitude := bits % f.signBit
  let field := magnitude / Nat.pow 2 f.fraction
  let rest := magnitude % Nat.pow 2 f.fraction
  if f.infinity < magnitude then .nan
  else if magnitude = f.infinity then .infinite negative
  else if field = 0 then .finite negative rest f.leastUnit
  else .finite negative (Nat.pow 2 f.fraction + rest) (f.leastUnit + (field - 1 : Nat))

end Format

/-- The quotient to the nearest whole number; a half goes to the even neighbour. -/
def divideToEven (n d : Nat) : Nat :=
  let k := n / d
  let r := n % d
  if d < 2 * r || (2 * r == d && k % 2 == 1) then k + 1 else k

/-- `n / d` in units of `2 ^ unit`, as numerator and denominator. -/
def inUnits (n d : Nat) : Int → Nat × Nat
  | .ofNat u => (n, d * Nat.pow 2 u)
  | .negSucc u => (n * Nat.pow 2 (u + 1), d)

/-- The exponent of the largest power of two that is not above `n / d`. -/
def logRatio (n d : Nat) : Int :=
  let guess : Int := (n.log2 : Int) - d.log2
  let (a, b) := inUnits n d guess
  if a < b then guess - 1 else guess

/-- The bits of the number nearest to `n / d`, which is infinity from half a unit above the largest
number on. -/
def Format.nearest (f : Format) (n d : Nat) : Nat :=
  if n = 0 then 0
  else
    let unit := max (logRatio n d - f.fraction) f.leastUnit
    let (a, b) := inUnits n d unit
    min f.infinity ((unit - f.leastUnit).toNat * Nat.pow 2 f.fraction + divideToEven a b)

/-- `mantissa · 2 ^ unit` as numerator and denominator. -/
def ratio (mantissa : Nat) : Int → Nat × Nat
  | .ofNat u => (mantissa * Nat.pow 2 u, 1)
  | .negSucc u => (mantissa, Nat.pow 2 (u + 1))

/-- The bits of a number in another format: rounded if it is finite, and a quiet NaN stays one. -/
def convert (source target : Format) (bits : Nat) : Nat :=
  match source.shape bits with
  | .infinite negative => target.withSign negative target.infinity
  | .finite negative m u =>
    let (n, d) := ratio m u
    target.withSign negative (target.nearest n d)
  | .nan =>
    let rest := bits % Nat.pow 2 source.fraction * Nat.pow 2 target.fraction /
      Nat.pow 2 source.fraction
    let quiet := Nat.pow 2 (target.fraction - 1)
    target.withSign (source.isNegative bits)
      (target.infinity + (if rest < quiet then rest + quiet else rest))

end FluentSql.Binary
