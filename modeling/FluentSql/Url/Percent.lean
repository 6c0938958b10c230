import FluentSql.Text.Utf8
import FluentSql.Url.Basic

namespace FluentSql.Url

/-- The bytes of a text with its escapes taken back. A percent sign without two digits after it
stands for itself. -/
def percentBytes : Text → List UInt8
  | [] => []
  | '%' :: a :: b :: t =>
    if Text.isHexDigit a && Text.isHexDigit b then UInt8.ofNat (Text.ofHex [a, b]) :: percentBytes t
    else Utf8.encodeChar '%' ++ percentBytes (a :: b :: t)
  | c :: t => Utf8.encodeChar c ++ percentBytes t

def percentDecode (t : Text) : Text := Utf8.decodeLossy (percentBytes t)

/-- In a form a plus sign is a blank. -/
def formDecode (t : Text) : Text := percentDecode (t.map fun c => if c = '+' then ' ' else c)

/-- The names and values of a form. -/
def formPairs (query : Text) : List (Text × Text) :=
  ((Text.splitAt '&' query).filter fun part => !part.isEmpty).map fun part =>
    match Text.cutAt? '=' part with
    | some (name, value) => (formDecode name, formDecode value)
    | none => (formDecode part, [])

def escapeByte (b : UInt8) : Text :=
  '%' :: (Text.padLeft 2 (Text.hex b.toNat)).map Char.toUpper

/-- Control characters and those outside ASCII are escaped. -/
def escapeControls (t : Text) : Text :=
  t.flatMap fun c =>
    if 0x20 ≤ c.toNat ∧ c.toNat < 0x7F then [c] else (Utf8.encodeChar c).flatMap escapeByte

end FluentSql.Url
