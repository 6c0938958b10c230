import FluentSql.Connection.Variables
import FluentSql.Json.Basic
import FluentSql.Text.Utf8
import FluentSql.Toml.Moment
import FluentSql.Toml.Reader

namespace FluentSql.Connection

/-- What a document gives for a field: text, a whole number, or something that no field takes. -/
inductive Setting where
  | text (t : Text)
  | number (i : Int)
  | other
  deriving DecidableEq, Repr

namespace Setting

def ofJson : Json → Setting
  | .text t => .text t
  | .int i => .number i
  | _ => .other

def ofToml : Toml → Setting
  | .text t => .text t
  | .integer i => .number i
  | _ => .other

def text? : Setting → Option Text
  | text t => some t
  | _ => none

def port? : Setting → Option Nat
  | number i => if 0 ≤ i ∧ i ≤ portLimit then some i.toNat else none
  | _ => none

end Setting

/-- The fields in the order in which a list gives them. -/
def fieldOrder : List Text :=
  ["driver".toList, "host".toList, "name".toList, "user".toList, "pass".toList, "port".toList,
    "charset".toList]

namespace Config

/-- Sets a field by its name. A field that there is not is passed over. -/
def set? (c : Config) (name : Text) (s : Setting) : Option Config :=
  if name = "driver".toList then s.text?.map fun t => { c with driver := t }
  else if name = "host".toList then s.text?.map fun t => { c with host := t }
  else if name = "name".toList then s.text?.map fun t => { c with name := t }
  else if name = "user".toList then s.text?.map fun t => { c with user := t }
  else if name = "pass".toList then s.text?.map fun t => { c with pass := t }
  else if name = "port".toList then s.port?.map fun n => { c with port := n }
  else if name = "charset".toList then s.text?.map fun t => { c with charset := t }
  else some c

def setAll? : Config → List (Text × Setting) → Option Config
  | c, [] => some c
  | c, (name, s) :: rest => (c.set? name s).bind fun c => setAll? c rest

def ofNamed? (settings : List (Text × Setting)) : Option Config := setAll? {} settings

/-- Settings without names go to the fields in their order; more than there are fields are passed
over. -/
def ofOrdered? (settings : List Setting) : Option Config := ofNamed? (fieldOrder.zip settings)

def ofJson? : Json → Option Config
  | .object members => ofNamed? (members.map fun m => (m.1, .ofJson m.2))
  | .array items =>
    if items.length ≤ fieldOrder.length then ofOrdered? (items.map .ofJson) else none
  | _ => none

/-- A moment counts as a table that has none of the fields. -/
def ofTomlValue? : Toml → Option Config
  | .table _ entries => ofNamed? (entries.map fun e => (e.1, .ofToml e.2))
  | .array items => ofOrdered? (items.map .ofToml)
  | .moment => some {}
  | _ => none

/-- The configuration in a TOML document, under `database` or else at the top. -/
def ofToml (document : Text) : Except ConfigFault Config :=
  let config? := (Toml.read? document).bind fun entries =>
    if Toml.entriesSound entries then
      ofTomlValue? ((entries.lookup "database".toList).getD (.table .header entries))
    else none
  config?.elim (.error .badDocument) .ok

/-- The configuration in a file, given its path and its bytes, or none if there is no such file. -/
def ofFile (path : Text) : Option (List UInt8) → Except ConfigFault Config
  | none => .error (.unreadable path "No such file or directory (os error 2)".toList)
  | some bytes =>
    match Utf8.decode? bytes with
    | none => .error (.unreadable path "stream did not contain valid UTF-8".toList)
    | some document => ofToml document

end Config

end FluentSql.Connection
