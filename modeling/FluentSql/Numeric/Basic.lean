import FluentSql.Number.Double

namespace FluentSql

/-- A decimal number `mantissa / 10 ^ scale` with its sign. -/
structure Numeric where
  negative : Bool
  mantissa : Nat
  scale : Nat
  deriving DecidableEq, Repr

namespace Numeric

/-- Mantissas have 96 bits. -/
def limit : Nat := 79228162514264337593543950336

def maxScale : Nat := 28

def zero : Numeric := ⟨false, 0, 0⟩

def ofInt (i : Int) : Numeric := ⟨i < 0, i.natAbs, 0⟩

/-- Halves go to the even neighbour. -/
def dropDigits (n digits : Nat) : Nat := Binary.divideToEven n (Nat.pow 10 digits)

/-- Drops as few digits of `n` after the point as it takes to fit into 96 bits. -/
def fit? (n scale : Nat) : Option (Nat × Nat) :=
  ((List.range (scale + 1)).find? fun k => dropDigits n k < limit).map fun k =>
    (dropDigits n k, scale - k)

/-- Sum of two magnitudes. -/
def addMagnitude? (a b : Numeric) : Option Numeric :=
  if a.mantissa = 0 then some b
  else if b.mantissa = 0 then some a
  else
    let scale := max a.scale b.scale
    let n := a.mantissa * Nat.pow 10 (scale - a.scale) + b.mantissa * Nat.pow 10 (scale - b.scale)
    (fit? n scale).map fun r => ⟨false, r.1, r.2⟩

/-- Takes zeros off the end of the digits after the point. -/
def trimScale (mantissa : Nat) : Nat → Nat × Nat
  | 0 => (mantissa, 0)
  | s + 1 => if mantissa % 10 = 0 then trimScale (mantissa / 10) s else (mantissa, s + 1)

/-- Appends up to `n` zeros after the point while the mantissa fits. -/
def extend : Nat → Nat → Nat → Nat × Nat
  | 0, mantissa, scale => (mantissa, scale)
  | n + 1, mantissa, scale =>
    if mantissa * 10 < limit then extend n (mantissa * 10) (scale + 1) else (mantissa, scale)

/-- The number with the given count of digits after the point, or as many as fit. A dropped half
goes up. -/
def rescale (a : Numeric) (scale : Nat) : Numeric :=
  let scale := min scale maxScale
  if a.mantissa = 0 then { a with scale := scale }
  else if scale ≤ a.scale then
    let unit := Nat.pow 10 (a.scale - scale)
    { a with mantissa := (2 * a.mantissa + unit) / (2 * unit), scale := scale }
  else
    let (m, s) := extend (scale - a.scale) a.mantissa a.scale
    { a with mantissa := m, scale := s }

end Numeric

end FluentSql
