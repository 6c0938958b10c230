import FluentSql.Numeric.Basic

namespace FluentSql.Numeric

/-- A number `mantissa · 10 ^ exponent` on its way between the two bases. -/
structure Rebase where
  mantissa : Nat
  exponent : Int

namespace Rebase

/-- Halves the number `n` times without a factor of two to spare: an odd mantissa takes a factor of
five while it fits, and otherwise loses its last bit. -/
def halve : Nat → Rebase → Rebase
  | 0, r => r
  | n + 1, ⟨m, e⟩ =>
    if m % 2 = 0 then halve n ⟨m / 2, e + 1⟩
    else if m * 5 < limit then halve n ⟨m * 5, e⟩
    else halve n ⟨m / 2, e + 1⟩

/-- Drops a digit; a half goes up. -/
def dropDigit (r : Rebase) : Rebase :=
  ⟨r.mantissa / 10 + (if 5 ≤ r.mantissa % 10 then 1 else 0), r.exponent + 1⟩

/-- Drops `n` digits beyond the largest scale. A mantissa below ten leaves zero. -/
def lower : Nat → Rebase → Rebase
  | 0, r => r
  | n + 1, r => if r.mantissa / 10 = 0 then ⟨0, 0⟩ else lower n r.dropDigit

/-- Drops digits after the point that a double does not hold. -/
def shorten : Nat → Rebase → Rebase
  | 0, r => r
  | n + 1, r => if 4503599627370496 ≤ r.mantissa then shorten n r.dropDigit else r

end Rebase

/-- The decimal number for a double: a number in whole units as it is, if it fits, and any other to
the digits that a double holds. -/
def ofDouble? (r : Double) : Option Numeric :=
  match r.shape with
  | .nan => none
  | .infinite _ => none
  | .finite negative 0 _ => some ⟨negative, 0, 0⟩
  | .finite negative m (.ofNat n) =>
    let whole := m * Nat.pow 2 n
    -- The largest decimal numbers become `2 ^ 96` as doubles, which is no decimal number any more.
    if whole < limit then some ⟨negative, whole, 0⟩ else none
  | .finite negative m (.negSucc n) =>
    let r := Rebase.halve (n + 1) ⟨m, .negSucc n⟩
    let r := Rebase.lower (-r.exponent - maxScale).toNat r
    let r := Rebase.shorten (-r.exponent).toNat r
    let (m, s) := trimScale r.mantissa (-r.exponent).toNat
    some ⟨negative, m, s⟩

end FluentSql.Numeric
