import FluentSql.Numeric.Basic
import FluentSql.Wire.Bytes

namespace FluentSql.Numeric

open FluentSql.Wire

/-- Digits in groups of four, the highest group first. Thirty-two groups hold any mantissa. -/
def groupsWithin : Nat → Nat → List Nat
  | 0, _ => []
  | fuel + 1, n => if n = 0 then [] else groupsWithin fuel (n / 10000) ++ [n % 10000]

/-- Drops groups of zeros from the end, but not one of the first `kept`. -/
def trimGroups (kept : Nat) (groups : List Nat) : List Nat :=
  groups.take kept ++ ((groups.drop kept).reverse.dropWhile (· == 0)).reverse

def negativeSign : Nat := 0x4000

/-- Group count, weight of the first group, sign and scale in two bytes each, then the groups. Zero
has neither groups nor a scale. -/
def toWire (a : Numeric) : Bytes :=
  if a.mantissa = 0 then List.replicate 8 0
  else
    let fractionGroups := (a.scale + 3) / 4
    let groups := groupsWithin 32 (a.mantissa * Nat.pow 10 (4 * fractionGroups - a.scale))
    let weight : Int := groups.length - fractionGroups - 1
    let groups := if 0 ≤ weight then trimGroups (weight + 1).toNat groups else groups
    bigEndian 2 groups.length ++ signedBytes 2 weight ++
      bigEndian 2 (if a.negative then negativeSign else 0) ++ bigEndian 2 a.scale ++
      groups.flatMap (bigEndian 2)

/-- Adds groups of the whole part. -/
def addWhole? : Numeric → List Nat → Option Numeric
  | a, [] => some a
  | a, g :: gs =>
    let m := a.mantissa * 10000 + g
    if m < limit then addWhole? ⟨false, m, 0⟩ gs else none

/-- Adds groups after the point, of which the first has its last digit at `place`. The group after
the twenty-eighth digit only rounds, and the ones after it do not count. -/
def addFraction? : Nat → Numeric → List Nat → Option Numeric
  | _, a, [] => some a
  | place, a, g :: gs =>
    let next :=
      if place ≤ maxScale then
        let (m, s) := trimScale g place
        addMagnitude? a ⟨false, m, s⟩
      else if place = maxScale + 4 ∧ 5000 ≤ g then addMagnitude? a ⟨false, 1, maxScale⟩
      else some a
    next.bind fun a => addFraction? (place + 4) a gs

/-- The value of base-10000 groups of which the first has the given weight. -/
def ofGroups? (groups : List Nat) (weight : Int) : Option Numeric :=
  let wholeGroups := (weight + 1).toNat
  let missing := wholeGroups - groups.length
  let whole := (addWhole? zero (groups.take wholeGroups)).bind fun a =>
    let m := a.mantissa * Nat.pow 10 (4 * missing)
    if missing ≤ 7 ∧ m < limit then some { a with mantissa := m } else none
  whole.bind fun a => addFraction? (4 * max 1 (-weight).toNat) a (groups.drop wholeGroups)

def readGroups? : Nat → Bytes → Option (List Nat)
  | 0, _ => some []
  | n + 1, bytes => (take? 2 bytes).bind fun (g, rest) =>
    (readGroups? n rest).map (ofBigEndian g :: ·)

/-- Signs that mark a NaN or an infinity. -/
def specialSigns : List Nat := [0xC000, 0xD000, 0xF000]

/-- Reads a number rounded to its scale. Bytes after the last group are ignored. -/
def ofWire? (bytes : Bytes) : Option Numeric := do
  let (count, rest) ← take? 2 bytes
  let (weight, rest) ← take? 2 rest
  let (sign, rest) ← take? 2 rest
  let (scale, rest) ← take? 2 rest
  let groups ← readGroups? (ofBigEndian count) rest
  if specialSigns.contains (ofBigEndian sign) then none
  else
    let a ← ofGroups? groups (ofSignedBytes weight)
    some ({ a with negative := ofBigEndian sign == negativeSign }.rescale (ofBigEndian scale))

end FluentSql.Numeric
