import FluentSql.Toml.Scalar

namespace FluentSql.Toml

/-- The key of a moment that is written as a table. It is reserved for them. -/
def momentKey : Text := "$__toml_private_datetime".toList

/-- A table is one for a moment if the reserved key comes before all others in it. -/
def momentText? (es : Entries) : Option Toml :=
  if es.any fun e => Text.comesBefore e.1 momentKey then none else es.lookup momentKey

def isMomentText : Toml → Bool
  | text t => isMoment t
  | _ => false

mutual

/-- Whether every table for a moment within a value has the text of one. -/
def isSound : Toml → Bool
  | array items => areSound items
  | table _ es => ((momentText? es).map isMomentText).getD (entriesSound es)
  | tables rows => rowsSound rows
  | _ => true

def areSound : List Toml → Bool
  | [] => true
  | v :: vs => v.isSound && areSound vs

def entriesSound : List (Text × Toml) → Bool
  | [] => true
  | (_, v) :: es => v.isSound && entriesSound es

def rowsSound : List (List (Text × Toml)) → Bool
  | [] => true
  | es :: rows => ((momentText? es).map isMomentText).getD (entriesSound es) && rowsSound rows

end

end FluentSql.Toml
