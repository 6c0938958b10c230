import FluentSql.Text.Basic

namespace FluentSql

/-- A day of the Gregorian calendar, extended to all years. -/
structure Date where
  year : Int
  month : Nat
  day : Nat
  deriving DecidableEq, Repr

namespace Date

def isLeap (year : Int) : Bool := year % 4 == 0 && (year % 100 != 0 || year % 400 == 0)

def monthLength (year : Int) (month : Nat) : Nat :=
  if month = 2 then if isLeap year then 29 else 28
  else if month = 4 ∨ month = 6 ∨ month = 9 ∨ month = 11 then 30
  else 31

def leastYear : Int := -262143

def mostYear : Int := 262142

def isValid (d : Date) : Bool :=
  leastYear ≤ d.year && d.year ≤ mostYear && 1 ≤ d.month && d.month ≤ 12 &&
    1 ≤ d.day && d.day ≤ monthLength d.year d.month

/-- Days from 0000-03-01 to 2000-01-01. Years that begin in March put the leap day last. -/
def epoch : Int := 730425

/-- Days since 2000-01-01. -/
def toDays (d : Date) : Int :=
  let year := if d.month ≤ 2 then d.year - 1 else d.year
  let month := if d.month ≤ 2 then d.month + 9 else d.month - 3
  let inYear := (153 * month + 2) / 5 + d.day - 1
  let ofEra := year % 400
  year / 400 * 146097 + ofEra * 365 + ofEra / 4 - ofEra / 100 + inYear - epoch

def ofDays (days : Int) : Date :=
  let z := days + epoch
  let inEra := (z % 146097).toNat
  let ofEra := (inEra - inEra / 1460 + inEra / 36524 - inEra / 146096) / 365
  let inYear := inEra - (365 * ofEra + ofEra / 4 - ofEra / 100)
  let month := (5 * inYear + 2) / 153
  let day := inYear - (153 * month + 2) / 5 + 1
  let year := z / 146097 * 400 + ofEra
  if month < 10 then ⟨year, month + 3, day⟩ else ⟨year + 1, month - 9, day⟩

/-- The day that is so far from 2000-01-01, if its year is in range. -/
def ofDays? (days : Int) : Option Date :=
  let d := ofDays days
  if leastYear ≤ d.year ∧ d.year ≤ mostYear then some d else none

/-- Four digits from 0 to 9999, and otherwise a sign before at least four. -/
def yearText (year : Int) : Text :=
  if 0 ≤ year ∧ year ≤ 9999 then Text.padLeft 4 (Text.decimal year.natAbs)
  else (if year < 0 then '-' else '+') :: Text.padLeft 4 (Text.decimal year.natAbs)

def toText (d : Date) : Text :=
  yearText d.year ++ '-' :: Text.padLeft 2 (Text.decimal d.month) ++
    '-' :: Text.padLeft 2 (Text.decimal d.day)

end Date

end FluentSql
