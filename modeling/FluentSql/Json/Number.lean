import FluentSql.Json.Basic

namespace FluentSql.Json

/-- The largest whole number that is read digit by digit. -/
def mostSignificand : Nat := 18446744073709551615

/-- Scales a number down until its exponent is at least -308, or until it is zero. -/
def scaleDown : Nat → Double → Nat → Double × Nat
  | 0, r, e => (r, e)
  | fuel + 1, r, e =>
    if e ≤ 308 ∨ r.magnitude.1 = 0 then (r, e)
    else scaleDown fuel (Double.divMagnitude r (Double.ofRatio false (Nat.pow 10 308) 1)) (e - 308)

/-- `significand · 10 ^ exponent`, rounded once for the significand and once for the power. Numbers
too large for a double have no value. -/
def scaled? (significand : Nat) (exponent : Int) : Option Double :=
  let start := Double.ofRatio false significand 1
  match exponent with
  | .ofNat e =>
    if significand = 0 then some start
    else if 308 < e then none
    else
      let r := Double.mulMagnitude start (Double.ofRatio false (Nat.pow 10 e) 1)
      match r.shape with
      | .finite _ _ _ => some r
      | _ => none
  | .negSucc n =>
    let (r, e) := scaleDown 4 start (n + 1)
    if r.magnitude.1 = 0 then some r
    else if 308 < e then some (Double.ofRatio false 0 1)
    else some (Double.divMagnitude r (Double.ofRatio false (Nat.pow 10 e) 1))

/-- Takes digits while the significand fits, and counts the digits taken and those left over. -/
def significand : Nat → Nat → Text → Nat × Nat × Nat
  | n, taken, [] => (n, taken, 0)
  | n, taken, c :: t =>
    let m := n * 10 + (c.toNat - '0'.toNat)
    if m ≤ mostSignificand then significand m (taken + 1) t else (n, taken, (c :: t).length)

/-- An exponent after its letter, and the rest of the text. -/
def readExponent? (t : Text) : Option (Int × Text) :=
  let (negative, t) := match t with
    | '-' :: t => (true, t)
    | '+' :: t => (false, t)
    | t => (false, t)
  let digits := t.takeWhile Char.isDigit
  if digits.isEmpty then none
  else
    let e := Text.ofDecimal digits
    some (if negative then -(e : Int) else e, t.dropWhile Char.isDigit)

/-- The number at the head of a text without its sign, and the rest. A number with a point or an
exponent, or of more than 64 bits, is a double. -/
def readNumber? (negative : Bool) (t : Text) : Option (Json × Text) :=
  let whole := t.takeWhile Char.isDigit
  let rest := t.dropWhile Char.isDigit
  let signed (r : Double) : Json := real (if negative then r.negate else r)
  match whole with
  | [] => none
  | '0' :: _ :: _ => none
  | _ =>
    let (n, _, left) := significand 0 0 whole
    let (hasPoint, fraction, rest) := match rest with
      | '.' :: rest => (true, rest.takeWhile Char.isDigit, rest.dropWhile Char.isDigit)
      | rest => (false, [], rest)
    let (m, taken, _) := significand n 0 fraction
    if hasPoint && fraction.isEmpty then none
    else
      let exponent? : Option (Bool × Int × Text) := match rest with
        | 'e' :: t => (readExponent? t).map fun r => (true, r.1, r.2)
        | 'E' :: t => (readExponent? t).map fun r => (true, r.1, r.2)
        | rest => some (false, 0, rest)
      exponent?.bind fun (hasExponent, e, rest) =>
        if hasPoint || hasExponent || left != 0 then
          (scaled? m (left - taken + e)).map fun r => (signed r, rest)
        else if !negative then some (int n, rest)
        else if n = 0 || 9223372036854775808 < n then some (signed (Double.ofRatio false n 1), rest)
        else some (int (-(n : Int)), rest)

end FluentSql.Json
