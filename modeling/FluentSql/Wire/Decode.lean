import FluentSql.Calendar.Instant
import FluentSql.Json.Reader
import FluentSql.Numeric.ToDouble
import FluentSql.Numeric.Wire
import FluentSql.Record
import FluentSql.Text.Utf8
import FluentSql.Uuid
import FluentSql.Wire.SqlType

namespace FluentSql.Wire

def decodeInt? (width : Nat) (bytes : Bytes) : Option Value :=
  (exactly? width bytes).map fun b => .int (Int64.ofInt (ofSignedBytes b))

/-- A whole number without a scale stays one, and any other becomes a double. -/
def numericValue (a : Numeric) : Value :=
  match a.toInt? with
  | some i => .int (Int64.ofInt i)
  | none => .real a.toDouble

def decodeJson? (bytes : Bytes) : Option Value :=
  (Utf8.decode? bytes).bind fun t => (Json.read? t).map fun j => .text j.write

/-- The bytes after those that they have to begin with. -/
def afterBytes? : Bytes → Bytes → Option Bytes
  | [], bytes => some bytes
  | _ :: _, [] => none
  | v :: vs, b :: bs => if v = b then afterBytes? vs bs else none

def decodeText? (version bytes : Bytes) : Option Value :=
  (afterBytes? version bytes).bind fun b => (Utf8.decode? b).map .text

def decodeMicros? (toText? : Int → Option Text) (bytes : Bytes) : Option Value :=
  (exactly? 8 bytes).bind fun b => (toText? (ofSignedBytes b)).map .text

/-- How bytes of a type are read; `none` if no value is mapped to the type. -/
def decoder? : SqlType → Option (Bytes → Option Value)
  | .bool => some fun bytes => (exactly? 1 bytes).map fun b => .bool (b != [0])
  | .int2 => some (decodeInt? 2)
  | .int4 => some (decodeInt? 4)
  | .int8 => some (decodeInt? 8)
  | .oid => some fun bytes => (exactly? 4 bytes).map fun b => .int (Int64.ofNat (ofBigEndian b))
  | .float4 => some fun bytes =>
    (exactly? 4 bytes).map fun b => .real (Double.ofSingle (UInt32.ofNat (ofBigEndian b)))
  | .float8 => some fun bytes =>
    (exactly? 8 bytes).map fun b => .real (Double.ofNatBits (ofBigEndian b))
  | .numeric => some fun bytes => (Numeric.ofWire? bytes).map numericValue
  | .date => some fun bytes =>
    (exactly? 4 bytes).bind fun b => (Date.ofDays? (ofSignedBytes b)).map fun d => .text d.toText
  | .time => some (decodeMicros? fun n => some (Calendar.clockText n))
  | .timestamp => some (decodeMicros? (Calendar.instantText? ' '))
  | .timestamptz => some (decodeMicros? fun n =>
    (Calendar.instantText? 'T' n).map fun t => t ++ "+00:00".toList)
  | .uuid => some fun bytes => (exactly? 16 bytes).map fun b => .text (Uuid.toText b)
  | .json => some decodeJson?
  | .jsonb => some fun bytes => (afterBytes? [1] bytes).bind decodeJson?
  | type => type.textVersion?.map decodeText?

/-- A column of a row as the server declares it. -/
structure ColumnInfo where
  name : Text
  type : SqlType
  deriving DecidableEq, Repr

/-- The value of a column, where no bytes are NULL. The type has to be one that can be read even
then. -/
def decodeColumn (index : Nat) (column : ColumnInfo) (bytes : Option Bytes) : Except Error Value :=
  match decoder? column.type with
  | none => .error (.decode column.name (.unsupported column.type.toText))
  | some decode =>
    match bytes with
    | none => .ok .null
    | some b =>
      match decode b with
      | some v => .ok v
      | none => .error (.decode column.name (.malformed index))

def decodeFrom : Nat → List (ColumnInfo × Option Bytes) → Except Error (List (Text × Value))
  | _, [] => .ok []
  | n, (column, bytes) :: rest =>
    match decodeColumn n column bytes with
    | .error e => .error e
    | .ok v => (decodeFrom (n + 1) rest).map ((column.name, v) :: ·)

/-- A row with a value for each column, or the error of the first that has none. -/
def decodeRow (columns : List ColumnInfo) (values : List (Option Bytes)) : Except Error Record :=
  (decodeFrom 0 (columns.zip values)).map Record.mk

/-- Every row, or the error of the first that cannot be read. -/
def decodeRows (columns : List ColumnInfo) :
    List (List (Option Bytes)) → Except Error (List Record)
  | [] => .ok []
  | row :: rows =>
    match decodeRow columns row with
    | .error e => .error e
    | .ok r => (decodeRows columns rows).map (r :: ·)

end FluentSql.Wire
