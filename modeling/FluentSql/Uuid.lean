import FluentSql.Text.Basic
import FluentSql.Wire.Bytes

namespace FluentSql.Uuid

open FluentSql.Wire

/-- Two hexadecimal digits a byte; one digit too many is left out. -/
def readPairs : Text → Bytes
  | a :: b :: t => UInt8.ofNat (Text.hexValue a * 16 + Text.hexValue b) :: readPairs t
  | _ => []

def readSimple? (t : Text) : Option Bytes :=
  if t.length = 32 && t.all Text.isHexDigit then some (readPairs t) else none

/-- Groups of 8, 4, 4, 4 and 12 digits with hyphens between. -/
def readHyphenated? (t : Text) : Option Bytes :=
  let groups := Text.splitAt '-' t
  if groups.map List.length = [8, 4, 4, 4, 12] then readSimple? groups.flatten else none

def readBraced? (t : Text) : Option Bytes :=
  match t with
  | '\x7b' :: t => if t.getLast? = some '\x7d' then readHyphenated? t.dropLast else none
  | _ => none

/-- The prefix of a URN in any case. -/
def readUrn? (t : Text) : Option Bytes :=
  if Text.lower (t.take 9) = "urn:uuid:".toList then readHyphenated? (t.drop 9) else none

/-- Reads digits alone, with hyphens, in braces, or as a URN. -/
def read? (t : Text) : Option Bytes :=
  (readSimple? t).or ((readHyphenated? t).or ((readBraced? t).or (readUrn? t)))

def byteText (b : UInt8) : Text := Text.padLeft 2 (Text.hex b.toNat)

/-- Sixteen bytes as small digits with hyphens. -/
def toText (bytes : Bytes) : Text :=
  let part (start count : Nat) : Text := ((bytes.drop start).take count).flatMap byteText
  Text.joinWith ['-'] [part 0 4, part 4 2, part 6 2, part 8 2, part 10 6]

end FluentSql.Uuid
