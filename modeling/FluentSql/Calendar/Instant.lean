import FluentSql.Calendar.Date

namespace FluentSql.Calendar

def dayMicros : Int := 86400000000

/-- The time of day in hours, minutes and seconds, with no fraction, three digits or six. -/
def timeText (micros : Nat) : Text :=
  let seconds := micros / 1000000
  let fraction := micros % 1000000
  let two (n : Nat) : Text := Text.padLeft 2 (Text.decimal n)
  two (seconds / 3600) ++ ':' :: two (seconds / 60 % 60) ++ ':' :: two (seconds % 60) ++
    if fraction = 0 then []
    else if fraction % 1000 = 0 then '.' :: Text.padLeft 3 (Text.decimal (fraction / 1000))
    else '.' :: Text.padLeft 6 (Text.decimal fraction)

/-- The time of day, where any number of whole days is left out. -/
def clockText (micros : Int) : Text := timeText (micros % dayMicros).toNat

/-- Microseconds since 2000-01-01 as a day, a separator and a time. -/
def instantText? (separator : Char) (micros : Int) : Option Text :=
  (Date.ofDays? (micros / dayMicros)).map fun d => d.toText ++ separator :: clockText micros

end FluentSql.Calendar
