import FluentSql.Connection.Config
import FluentSql.Number.Integer

namespace FluentSql.Connection

/-- Variables by name. Of two with the same name the first counts. -/
abbrev Variables := List (Text × Text)

def Variables.get? (vs : Variables) (name : Text) : Option Text := vs.lookup name

def portLimit : Nat := 65535

namespace Config

/-- A configuration from variables; those that are not set leave their fields at the defaults. -/
def ofVariables (vs : Variables) : Except ConfigFault Config :=
  let value (name : String) (default : Text) := (vs.get? name.toList).getD default
  let c : Config := {}
  let c : Config :=
    { c with
      driver := value "DB_DRIVER" c.driver
      host := value "DB_HOST" c.host
      name := value "DB_NAME" c.name
      user := value "DB_USER" c.user
      pass := value "DB_PASS" c.pass
      charset := value "DB_CHARSET" c.charset }
  match vs.get? "DB_PORT".toList with
  | none => .ok c
  | some raw =>
    match Integer.readUnsigned portLimit (Text.trim raw) with
    | .ok port => .ok { c with port }
    | .error _ => .error (.badPort raw)

end Config

end FluentSql.Connection
