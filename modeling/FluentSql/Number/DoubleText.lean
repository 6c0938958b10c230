import FluentSql.Number.Double
import FluentSql.Number.Shortest

namespace FluentSql.Double

/-- How a number is written. Its leading exponent decides between positions and an exponent. -/
structure Style where
  /-- The leading exponents that are written by position; `none` for all. -/
  positional : Option (Int × Int)
  /-- A whole number written by position ends in `.0`. -/
  pointZero : Bool
  /-- An exponent that is not negative has a plus sign. -/
  plusSign : Bool
  tie : Shortest.Tie

/-- Plain text has neither exponent nor `.0`. -/
def plain : Style := ⟨none, false, false, .up⟩

/-- In messages, numbers below 10⁻⁴ and from 10¹⁶ on have an exponent. -/
def quoted : Style := ⟨some (-4, 15), true, false, .up⟩

/-- In JSON, numbers below 10⁻⁵ and from 10¹⁶ on have an exponent, with its sign. -/
def json : Style := ⟨some (-5, 15), true, true, .even⟩

/-- Digits without zeros at the end. -/
def trimZeros (digits : Text) : Text := (digits.reverse.dropWhile (· == '0')).reverse

/-- Digits with the point after the given number of them, which may lie outside. -/
def byPosition (pointZero : Bool) (digits : Text) : Int → Text
  | .ofNat 0 => ['0', '.'] ++ digits
  | .negSucc n => ['0', '.'] ++ List.replicate (n + 1) '0' ++ digits
  | .ofNat point =>
    if digits.length ≤ point then
      digits ++ List.replicate (point - digits.length) '0' ++ (if pointZero then ['.', '0'] else [])
    else digits.take point ++ '.' :: digits.drop point

def byExponent (plusSign : Bool) (digits : Text) (exponent : Int) : Text :=
  let mantissa := match digits with
    | d :: [] => [d]
    | d :: rest => d :: '.' :: rest
    | [] => []
  mantissa ++ 'e' :: (if plusSign && 0 ≤ exponent then ['+'] else []) ++ Text.signedDecimal exponent

def Style.magnitude (s : Style) (mantissa : Nat) (unit : Int) : Text :=
  if mantissa = 0 then if s.pointZero then ['0', '.', '0'] else ['0']
  else
    let d := Shortest.ofBinary s.tie Binary.double mantissa unit
    let all := Text.decimal d.digits
    let point := all.length + d.exponent
    let digits := trimZeros all
    let positional := match s.positional with
      | none => true
      | some (least, most) => least ≤ point - 1 && point - 1 ≤ most
    if positional then byPosition s.pointZero digits point
    else byExponent s.plusSign digits (point - 1)

def Style.write (s : Style) (r : Double) : Text :=
  match r.shape with
  | .nan => "NaN".toList
  | .infinite negative => if negative then "-inf".toList else "inf".toList
  | .finite negative m u => (if negative then ['-'] else []) ++ s.magnitude m u

inductive Fault where
  | empty
  | invalid
  deriving DecidableEq, Repr

def Fault.message : Fault → Text
  | empty => "cannot parse float from empty string".toList
  | invalid => "invalid float literal".toList

/-- An exponent after its letter: an optional sign and at least one digit. -/
def readExponent? (t : Text) : Option Int :=
  let digits? (t : Text) : Option Nat :=
    if !t.isEmpty && t.all Char.isDigit then some (Text.ofDecimal t) else none
  match t with
  | '+' :: t => (digits? t).map Int.ofNat
  | '-' :: t => (digits? t).map fun n => -Int.ofNat n
  | t => (digits? t).map Int.ofNat

/-- The digits before and after the point and the exponent of an unsigned number. -/
def readParts? (t : Text) : Option (Text × Text × Int) :=
  let whole := t.takeWhile Char.isDigit
  let rest := t.dropWhile Char.isDigit
  let (fraction, rest) := match rest with
    | '.' :: rest => (rest.takeWhile Char.isDigit, rest.dropWhile Char.isDigit)
    | rest => ([], rest)
  if whole.isEmpty && fraction.isEmpty then none
  else match rest with
    | [] => some (whole, fraction, 0)
    | 'e' :: t => (readExponent? t).map fun e => (whole, fraction, e)
    | 'E' :: t => (readExponent? t).map fun e => (whole, fraction, e)
    | _ => none

/-- The bits nearest to `digits · 10 ^ exponent`. Beyond 400 places a number is infinite or zero in
every format, so that a long exponent costs nothing. -/
def nearestDecimal (f : Binary.Format) (digits : Text) (exponent : Int) : Nat :=
  let significant := digits.dropWhile (· == '0')
  let point := significant.length + exponent
  if significant.isEmpty then 0
  else if 400 < point then f.infinity
  else if point < -400 then 0
  else
    let n := Text.ofDecimal significant
    match exponent with
    | .ofNat e => f.nearest (n * Nat.pow 10 e) 1
    | .negSucc e => f.nearest n (Nat.pow 10 (e + 1))

/-- The bits of an unsigned number, `inf`, `infinity` or `nan` in any case. -/
def readMagnitude? (f : Binary.Format) (t : Text) : Option Nat :=
  let word := Text.lower t
  if word = "inf".toList || word = "infinity".toList then some f.infinity
  else if word = "nan".toList then some (f.infinity + Nat.pow 2 (f.fraction - 1))
  else (readParts? t).map fun (whole, fraction, e) =>
    nearestDecimal f (whole ++ fraction) (e - fraction.length)

/-- The bits of the number nearest to a decimal text. -/
def read (f : Binary.Format) (t : Text) : Except Fault Nat :=
  let signed (negative : Bool) (t : Text) : Except Fault Nat :=
    match readMagnitude? f t with
    | some bits => .ok (f.withSign negative bits)
    | none => .error .invalid
  match t with
  | [] => .error .empty
  | '-' :: t => signed true t
  | '+' :: t => signed false t
  | t => signed false t

end FluentSql.Double
