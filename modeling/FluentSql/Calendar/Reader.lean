import FluentSql.Calendar.Date
import FluentSql.Text.Blank

namespace FluentSql.Calendar

abbrev Read (α : Type) := Text → Option (α × Text)

/-- At least `least` and at most `most` digits. -/
def number? (least most : Nat) : Read Nat := fun t =>
  let digits := (t.take most).takeWhile Char.isDigit
  if digits.length < least then none else some (Text.ofDecimal digits, t.drop digits.length)

/-- A number up to a bound. -/
def bounded? (least most low high : Nat) : Read Nat := fun t =>
  (number? least most t).bind fun r => if low ≤ r.1 && r.1 ≤ high then some r else none

def sign? (c : Char) (t : Text) : Option Text := Text.after? [c] t

/-- Up to four digits, or any number of them after a sign. -/
def year? : Read Int
  | '-' :: t => (number? 1 t.length t).map fun r => (-(r.1 : Int), r.2)
  | '+' :: t => (number? 1 t.length t).map fun r => (r.1, r.2)
  | t => (number? 1 4 t).map fun r => (r.1, r.2)

/-- Nanoseconds after a point: nine digits count, and more are passed over. -/
def fraction? : Read Nat := fun t =>
  match t with
  | '.' :: t =>
    let digits := (t.take 9).takeWhile Char.isDigit
    if digits.isEmpty then none
    else some (Text.ofDecimal digits * Nat.pow 10 (9 - digits.length),
      (t.drop digits.length).dropWhile Char.isDigit)
  | t => some (0, t)

/-- Year, month and day with hyphens between, and blanks anywhere around them. -/
def looseDate? : Read Date := fun t => do
  let (year, t) ← year? (Text.trimStart t)
  let t ← sign? '-' (Text.trimStart t)
  let (month, t) ← bounded? 1 2 1 12 (Text.trimStart t)
  let t ← sign? '-' (Text.trimStart t)
  let (day, t) ← bounded? 1 2 1 31 (Text.trimStart t)
  let d : Date := ⟨year, month, day⟩
  if d.isValid then some (d, Text.trimStart t) else none

/-- A day and nothing after it. -/
def date? (t : Text) : Option Date :=
  match looseDate? t with
  | some (d, []) => some d
  | _ => none

/-- Nanoseconds since 2000-01-01. The second 60 is the first of the next minute. -/
def nanos (d : Date) (hour minute second fraction : Nat) : Int :=
  (d.toDays * 86400 + hour * 3600 + minute * 60 + second) * 1000000000 + fraction

/-- Whole microseconds, cut off towards 2000-01-01. -/
def micros (n : Int) : Int := n.tdiv 1000

/-- A day, `T` and a time to the second or finer, with blanks around the numbers. -/
def timestamp? (t : Text) : Option Int := do
  let (d, t) ← looseDate? t
  let t ← sign? 'T' t
  let (hour, t) ← bounded? 1 2 0 23 (Text.trimStart t)
  let t ← sign? ':' (Text.trimStart t)
  let (minute, t) ← bounded? 1 2 0 59 (Text.trimStart t)
  let t ← sign? ':' (Text.trimStart t)
  let (second, t) ← bounded? 1 2 0 60 (Text.trimStart t)
  let (fraction, t) ← fraction? t
  if (Text.trimStart t).isEmpty then some (micros (nanos d hour minute second fraction)) else none

/-- An offset from UTC in seconds: `Z`, or a sign with hours and minutes. -/
def offset? : Read Int
  | 'Z' :: t => some (0, t)
  | 'z' :: t => some (0, t)
  | c :: t => do
    let negative := c != '+'
    if c != '+' && c != '-' && c != '−' then none
    let (hours, t) ← bounded? 2 2 0 23 t
    let t ← sign? ':' t
    let (minutes, t) ← bounded? 2 2 0 59 t
    let seconds : Int := hours * 3600 + minutes * 60
    some (if negative then -seconds else seconds, t)
  | [] => none

/-- A day, a `T` or a space, a time and an offset, every number at its full width. -/
def zonedTimestamp? (t : Text) : Option Int := do
  let (year, t) ← number? 4 4 t
  let t ← sign? '-' t
  let (month, t) ← bounded? 2 2 1 12 t
  let t ← sign? '-' t
  let (day, t) ← bounded? 2 2 1 31 t
  let t ← match t with
    | 'T' :: t => some t
    | 't' :: t => some t
    | ' ' :: t => some t
    | _ => none
  let (hour, t) ← bounded? 2 2 0 23 t
  let t ← sign? ':' t
  let (minute, t) ← bounded? 2 2 0 59 t
  let t ← sign? ':' t
  let (second, t) ← bounded? 2 2 0 60 t
  let (fraction, t) ← fraction? t
  let (offset, t) ← offset? t
  let d : Date := ⟨year, month, day⟩
  if d.isValid && t.isEmpty then
    some (micros (nanos d hour minute second fraction - offset * 1000000000))
  else none

end FluentSql.Calendar
