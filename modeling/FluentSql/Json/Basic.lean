import FluentSql.Number.DoubleText
import FluentSql.Text.Basic

namespace FluentSql

/-- A JSON value. Whole numbers of 64 bits are exact, and all others are doubles. -/
inductive Json where
  | null
  | bool (b : Bool)
  | int (i : Int)
  | real (r : Double)
  | text (t : Text)
  | array (items : List Json)
  | object (members : List (Text × Json))

namespace Json

/-- Puts a member into its place by key. A member with the same key is replaced. -/
def insert (key : Text) (value : Json) : List (Text × Json) → List (Text × Json)
  | [] => [(key, value)]
  | (k, v) :: ms =>
    if key = k then (key, value) :: ms
    else if Text.comesBefore key k then (key, value) :: (k, v) :: ms
    else (k, v) :: insert key value ms

def get? (key : Text) : Json → Option Json
  | object members => (members.find? fun m => m.1 = key).map (·.2)
  | _ => none

/-- The name of a choice: a text, or the only key of an object, under which there is nothing. -/
def choice? : Json → Option Text
  | text name => some name
  | object [(name, null)] => some name
  | _ => none

end Json

end FluentSql
