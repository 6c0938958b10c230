import FluentSql.Error
import FluentSql.Value

namespace FluentSql

/-- A row of a result by column name, in the order of its columns. Names may repeat. -/
structure Record where
  fields : List (Text × Value)
  deriving DecidableEq, Repr

namespace Record

def columns (r : Record) : List Text := r.fields.map (·.1)

def values (r : Record) : List Value := r.fields.map (·.2)

def push (r : Record) (column : Text) (value : Value) : Record := ⟨r.fields ++ [(column, value)]⟩

/-- The value of the first column of that name. -/
def get? (r : Record) (column : Text) : Option Value :=
  (r.fields.find? fun f => f.1 = column).map (·.2)

def column (r : Record) (column : Text) : Except Error Value :=
  match r.get? column with
  | some v => .ok v
  | none => .error (.decode column .missing)

/-- The text of a JSON object with a member for each column, repeated names included. -/
def toJsonText (r : Record) : Text :=
  (Json.object (r.fields.map fun f => (f.1, f.2.toJson))).write

def equals (a b : Record) : Bool :=
  a.columns = b.columns && (a.values.zip b.values).all fun v => v.1.equals v.2

end Record

end FluentSql
