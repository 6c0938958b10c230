import FluentSql.Calendar.Reader
import FluentSql.Number.DoubleText
import FluentSql.Number.Integer
import FluentSql.Toml.Basic

namespace FluentSql.Toml

/-- Digits without the underscores between them, each of which has a digit on both sides. -/
def digits? (isDigit : Char → Bool) (t : Text) : Option Text :=
  let parts := Text.splitAt '_' t
  if parts.all fun p => !p.isEmpty && p.all isDigit then some parts.flatten else none

/-- A decimal numeral, which has no zero in front. -/
def numeral? (t : Text) : Option Text :=
  (digits? Char.isDigit t).bind fun
    | '0' :: _ :: _ => none
    | digits => some digits

def withSign? (t : Text) : Bool × Text :=
  match t with
  | '-' :: t => (true, t)
  | '+' :: t => (false, t)
  | t => (false, t)

/-- A numeral of another base, after its mark. -/
def radix? (base : Nat) (t : Text) : Option Int :=
  (digits? (fun c => Text.isHexDigit c && Text.hexValue c < base) t).map fun digits =>
    ((digits.foldl (fun n c => n * base + Text.hexValue c) 0 : Nat) : Int)

/-- A whole number. -/
def integer? (t : Text) : Option Int :=
  match t with
  | '0' :: 'x' :: t => radix? 16 t
  | '0' :: 'o' :: t => radix? 8 t
  | '0' :: 'b' :: t => radix? 2 t
  | t =>
    let (negative, t) := withSign? t
    (numeral? t).map fun digits =>
      if negative then -(Text.ofDecimal digits : Int) else Text.ofDecimal digits

def notLetterE (c : Char) : Bool := c != 'e' && c != 'E'

/-- A number with a fraction, an exponent or both, without its underscores. -/
def decimal? (t : Text) : Option Text := do
  let (negative, t) := withSign? t
  let mantissa := t.takeWhile notLetterE
  let whole ← numeral? (mantissa.takeWhile (· != '.'))
  let fraction ← match mantissa.dropWhile (· != '.') with
    | '.' :: t => (digits? Char.isDigit t).map ('.' :: ·)
    | _ => some []
  let exponent ← match t.dropWhile notLetterE with
    | _ :: t =>
      let (negative, t) := withSign? t
      (digits? Char.isDigit t).map fun digits => 'e' :: if negative then '-' :: digits else digits
    | [] => some []
  if fraction.isEmpty && exponent.isEmpty then none
  else some ((if negative then ['-'] else []) ++ whole ++ fraction ++ exponent)

def isFinite (bits : Nat) : Bool :=
  match Binary.double.shape bits with
  | .finite _ _ _ => true
  | _ => false

/-- A float is a decimal number that a double can hold, or a name with an optional sign. -/
def isFloat (t : Text) : Bool :=
  let name := (withSign? t).2
  name = "inf".toList || name = "nan".toList ||
    match (decimal? t).map (Double.read Binary.double) with
    | some (.ok bits) => isFinite bits
    | _ => false

/-- A day at full width. -/
def day? : Calendar.Read Date := fun t => do
  let (year, t) ← Calendar.number? 4 4 t
  let t ← Calendar.sign? '-' t
  let (month, t) ← Calendar.bounded? 2 2 1 12 t
  let t ← Calendar.sign? '-' t
  let (day, t) ← Calendar.bounded? 2 2 1 31 t
  let d : Date := ⟨year, month, day⟩
  if d.isValid then some (d, t) else none

/-- What follows a time of day; its seconds may be missing. -/
def afterTime? (t : Text) : Option Text := do
  let (_, t) ← Calendar.bounded? 2 2 0 23 t
  let t ← Calendar.sign? ':' t
  let (_, t) ← Calendar.bounded? 2 2 0 59 t
  match t with
  | ':' :: t =>
    let (_, t) ← Calendar.bounded? 2 2 0 60 t
    (Calendar.fraction? t).map (·.2)
  | t => some t

def afterOffset? : Text → Option Text
  | [] => some []
  | '−' :: _ => none
  | t => (Calendar.offset? t).map (·.2)

/-- What stands between a day and a time. -/
def afterJoint? : Text → Option Text
  | 'T' :: t => some t
  | 't' :: t => some t
  | ' ' :: t => some t
  | _ => none

/-- A day, a time, or both with an optional offset. -/
def isMoment (t : Text) : Bool :=
  match day? t with
  | some (_, []) => true
  | some (_, t) => ((afterJoint? t).bind afterTime?).bind afterOffset? = some []
  | none => afterTime? t = some []

/-- A value without quotes or brackets. -/
def scalar? (t : Text) : Option Toml :=
  if t = "true".toList then some (.boolean true)
  else if t = "false".toList then some (.boolean false)
  else
    match integer? t with
    | some i => if Integer.fits64 i then some (.integer i) else none
    | none => if isFloat t then some .float else if isMoment t then some .moment else none

end FluentSql.Toml
