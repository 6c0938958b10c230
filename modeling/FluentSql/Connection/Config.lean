import FluentSql.Error
import FluentSql.Text.Blank

namespace FluentSql.Connection

/-- The description of one database. -/
structure Config where
  driver : Text := "pgsql".toList
  host : Text := "localhost".toList
  name : Text := []
  user : Text := []
  pass : Text := []
  port : Nat := 5432
  charset : Text := "utf8".toList
  deriving DecidableEq, Repr

/-- Where a server listens: at a network address, or at a socket in a directory. -/
inductive Host where
  | tcp (name : Text)
  | unix (directory : Text)
  deriving DecidableEq, Repr

def Host.ofText : Text → Host
  | '/' :: t => .unix ('/' :: t)
  | t => .tcp t

/-- What a server is dialed with. -/
structure Endpoint where
  host : Host
  port : Nat
  database : Option Text
  user : Option Text
  password : Option Text
  application : Text
  deriving DecidableEq, Repr

def supportedDrivers : List Text := ["pgsql".toList, "postgres".toList, "postgresql".toList]

/-- The spellings of the one encoding there is; an empty charset asks for it too. -/
def utf8Spellings : List Text :=
  [[], "utf8".toList, "utf-8".toList, "utf8mb4".toList, "unicode".toList]

namespace Config

/-- The configuration as it is shown: a password is not told. -/
def toText (c : Config) : Text :=
  "ConnectionConfig \x7b driver: ".toList ++ Text.quoted c.driver ++
    ", host: ".toList ++ Text.quoted c.host ++
    ", name: ".toList ++ Text.quoted c.name ++
    ", user: ".toList ++ Text.quoted c.user ++
    ", pass: ".toList ++ Text.quoted (if c.pass.isEmpty then [] else "***".toList) ++
    ", port: ".toList ++ Text.decimal c.port ++
    ", charset: ".toList ++ Text.quoted c.charset ++ " \x7d".toList

/-- The encoding that the configuration asks for. -/
def encoding (c : Config) : Except ConnectionFault Text :=
  let charset := Text.lower (Text.trim c.charset)
  if utf8Spellings.contains charset then .ok "UTF8".toList else .error (.unsupportedCharset charset)

def unlessEmpty (t : Text) : Option Text := if t.isEmpty then none else some t

def endpoint (c : Config) : Except ConnectionFault Endpoint :=
  if supportedDrivers.contains (Text.lower (Text.trim c.driver)) then
    c.encoding.map fun _ =>
      ⟨Host.ofText c.host, c.port, unlessEmpty c.name, unlessEmpty c.user, unlessEmpty c.pass,
        "pgchain".toList⟩
  else .error (.unsupportedDriver c.driver supportedDrivers)

end Config

end FluentSql.Connection
