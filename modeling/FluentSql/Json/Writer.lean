import FluentSql.Json.Basic

namespace FluentSql.Json

def quotedChar (c : Char) : Text :=
  if c = '"' then ['\\', '"']
  else if c = '\\' then ['\\', '\\']
  else if c = '\n' then ['\\', 'n']
  else if c = '\r' then ['\\', 'r']
  else if c = '\t' then ['\\', 't']
  else if c = '\x08' then ['\\', 'b']
  else if c = '\x0c' then ['\\', 'f']
  else if c.toNat < 0x20 then ['\\', 'u'] ++ Text.padLeft 4 (Text.hex c.toNat)
  else [c]

def quoted (t : Text) : Text := '"' :: t.flatMap quotedChar ++ ['"']

/-- What is not finite is written as `null`. -/
def realText (r : Double) : Text :=
  match r.shape with
  | .finite _ _ _ => Double.json.write r
  | _ => "null".toList

mutual

/-- The text of a value, without blanks. -/
def write : Json → Text
  | null => "null".toList
  | bool b => (if b then "true" else "false").toList
  | int i => Text.signedDecimal i
  | real r => realText r
  | text t => quoted t
  | array items => '[' :: writeItems items ++ [']']
  | object members => '\x7b' :: writeMembers members ++ ['\x7d']

def writeItems : List Json → Text
  | [] => []
  | [v] => write v
  | v :: w :: vs => write v ++ ',' :: writeItems (w :: vs)

def writeMembers : List (Text × Json) → Text
  | [] => []
  | [(k, v)] => quoted k ++ ':' :: write v
  | (k, v) :: m :: ms => quoted k ++ ':' :: write v ++ ',' :: writeMembers (m :: ms)

end

end FluentSql.Json
