import FluentSql.Calendar.Reader
import FluentSql.Json.Reader
import FluentSql.Numeric.OfDouble
import FluentSql.Numeric.Reader
import FluentSql.Numeric.Wire
import FluentSql.Number.Integer
import FluentSql.Text.Utf8
import FluentSql.Uuid
import FluentSql.Value
import FluentSql.Wire.SqlType

namespace FluentSql.Wire

/-- Why a value cannot be sent for a parameter of some type. -/
inductive EncodeFault where
  | mismatch (value : Value) (type : SqlType)
  | textMismatch (type : SqlType)
  | badBool (t : Text)
  | integer (cause : Integer.Fault)
  | range (cause : Integer.Fault)
  | float (cause : Double.Fault)
  | numeric
  | uuid
  | json
  | dateTime
  deriving DecidableEq, Repr

/-- The text of a fault, if it has one. -/
def EncodeFault.message? : EncodeFault → Option Text
  | mismatch value type =>
    some ("cannot bind ".toList ++ value.describe ++ " to a parameter of type ".toList ++
      type.toText)
  | textMismatch type => some ("cannot bind text to a parameter of type ".toList ++ type.toText)
  | badBool t => some ("invalid boolean literal: ".toList ++ Text.quoted t)
  | integer cause => some cause.message
  | range cause => some cause.message
  | float cause => some cause.message
  | numeric => none
  | uuid => none
  | json => none
  | dateTime => none

/-- The bytes of a parameter; `none` is NULL. -/
abbrev Encoded := Except EncodeFault (Option Bytes)

def sent (bytes : Bytes) : Encoded := .ok (some bytes)

def trueWords : List Text :=
  ["t".toList, "true".toList, "y".toList, "yes".toList, "on".toList, "1".toList]

def falseWords : List Text :=
  ["f".toList, "false".toList, "n".toList, "no".toList, "off".toList, "0".toList]

def readBool? (t : Text) : Option Bool :=
  let word := Text.lower (Text.trim t)
  if trueWords.contains word then some true
  else if falseWords.contains word then some false
  else none

def encodeBool (b : Bool) : Bytes := [if b then 1 else 0]

/-- The largest whole number of a width in bytes; the smallest is one further from zero. -/
def mostInt (width : Nat) : Nat := Nat.pow 2 (8 * width - 1) - 1

/-- A whole number of 1 to 8 bytes. -/
def encodeInt (width : Nat) (i : Int) : Encoded :=
  if (mostInt width : Int) < i then .error (.range .tooLarge)
  else if i < -((mostInt width : Int) + 1) then .error (.range .tooSmall)
  else sent (signedBytes width i)

def encodeIntText (width : Nat) (t : Text) : Encoded :=
  match Integer.read (mostInt width + 1) (mostInt width) t with
  | .ok i => sent (signedBytes width i)
  | .error cause => .error (.integer cause)

def encodeFloatText (f : Binary.Format) (width : Nat) (t : Text) : Encoded :=
  match Double.read f t with
  | .ok bits => sent (bigEndian width bits)
  | .error cause => .error (.float cause)

/-- Sends what was read, or fails. -/
def sentOr (fault : EncodeFault) (bytes? : Option Bytes) : Encoded :=
  match bytes? with
  | some bytes => sent bytes
  | none => .error fault

def encodeText (t : Text) (type : SqlType) : Encoded :=
  match type.textVersion? with
  | some version => sent (version ++ Utf8.encode t)
  | none =>
    let t := Text.trim t
    match type with
    | .bool => sentOr (.badBool t) ((readBool? t).map encodeBool)
    | .int2 => encodeIntText 2 t
    | .int4 => encodeIntText 4 t
    | .int8 => encodeIntText 8 t
    | .float4 => encodeFloatText Binary.single 4 t
    | .float8 => encodeFloatText Binary.double 8 t
    | .numeric => sentOr .numeric ((Numeric.read? t).map Numeric.toWire)
    | .uuid => sentOr .uuid (Uuid.read? t)
    | .json => sentOr .json ((Json.read? t).map fun j => Utf8.encode j.write)
    | .jsonb => sentOr .json ((Json.read? t).map fun j => 1 :: Utf8.encode j.write)
    | .date => sentOr .dateTime ((Calendar.date? t).map fun d => signedBytes 4 d.toDays)
    | .timestamp => sentOr .dateTime ((Calendar.timestamp? t).map (signedBytes 8))
    | .timestamptz => sentOr .dateTime ((Calendar.zonedTimestamp? t).map (signedBytes 8))
    | type => .error (.textMismatch type)

/-- Sends the text of a value for a type that holds text. -/
def encodeAsText (v : Value) (type : SqlType) : Encoded :=
  match type.textVersion? with
  | some version => sent (version ++ Utf8.encode v.toText)
  | none => .error (.mismatch v type)

def encodeInteger (i : Int64) (type : SqlType) : Encoded :=
  match type with
  | .int2 => encodeInt 2 i.toInt
  | .int4 => encodeInt 4 i.toInt
  | .int8 => encodeInt 8 i.toInt
  | .float4 =>
    sent (bigEndian 4 <|
      Binary.single.withSign (i.toInt < 0) (Binary.single.nearest i.toInt.natAbs 1))
  | .float8 => sent (bigEndian 8 (Double.ofInt i.toInt).bits.toNat)
  | .numeric => sent (Numeric.ofInt i.toInt).toWire
  | type => encodeAsText (.int i) type

/-- A whole double as a number of 64 bits; one that is too large becomes the nearest of them. -/
def clamp (i : Int) : Int64 := Int64.ofInt (max (-9223372036854775808) (min 9223372036854775807 i))

def encodeReal (r : Double) (type : SqlType) : Encoded :=
  let asInt (width : Nat) : Encoded :=
    match r.whole? with
    | some i => encodeInt width (clamp i).toInt
    | none => .error (.mismatch (.real r) type)
  match type with
  | .float4 => sent (bigEndian 4 r.toSingle.toNat)
  | .float8 => sent (bigEndian 8 r.bits.toNat)
  | .numeric => sentOr (.mismatch (.real r) type) ((Numeric.ofDouble? r).map Numeric.toWire)
  | .int2 => asInt 2
  | .int4 => asInt 4
  | .int8 => asInt 8
  | type => encodeAsText (.real r) type

/-- A value as the type of its parameter wants it. -/
def encode (v : Value) (type : SqlType) : Encoded :=
  match v with
  | .null => .ok none
  | .bool b => if type = .bool then sent (encodeBool b) else encodeAsText v type
  | .int i => encodeInteger i type
  | .real r => encodeReal r type
  | .text t => encodeText t type

end FluentSql.Wire
