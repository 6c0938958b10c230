import FluentSql.Text.Basic

namespace FluentSql

inductive Comparison where
  | ne | gte | lte | ltgt | eq | gt | lt
  deriving DecidableEq, Repr

namespace Comparison

def token : Comparison → Text
  | ne => ['!', '=']
  | gte => ['>', '=']
  | lte => ['<', '=']
  | ltgt => ['<', '>']
  | eq => ['=']
  | gt => ['>']
  | lt => ['<']

/-- Two characters come before one, so `>=` is never `>` with a value that starts with `=`. -/
def precedence : List Comparison := [ne, gte, lte, ltgt, eq, gt, lt]

/-- The first comparison whose token starts a text, with the rest. -/
def read? (t : Text) : Option (Comparison × Text) :=
  precedence.findSome? fun c => (Text.after? c.token t).map (c, ·)

end Comparison

end FluentSql
