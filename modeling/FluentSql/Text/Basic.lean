namespace FluentSql

/-- Text as its characters, since every rule here reads or writes one character at a time. -/
abbrev Text := List Char

namespace Text

/-- The rest of a text that starts with the given one. -/
def after? : Text → Text → Option Text
  | [], t => some t
  | _ :: _, [] => none
  | p :: ps, c :: t => if p = c then after? ps t else none

/-- Whether a text comes before another by its code points. -/
def comesBefore : Text → Text → Bool
  | _, [] => false
  | [], _ :: _ => true
  | a :: s, b :: t => if a = b then comesBefore s t else a < b

def joinWith (separator : Text) : List Text → Text
  | [] => []
  | [t] => t
  | t :: u :: ts => t ++ separator ++ joinWith separator (u :: ts)

/-- The parts between the occurrences of one character, empty parts kept. -/
def splitAt (c : Char) : Text → List Text
  | [] => [[]]
  | x :: t =>
    if x = c then [] :: splitAt c t
    else match splitAt c t with
      | [] => [[x]]
      | p :: ps => (x :: p) :: ps

/-- The text before and after the first occurrence of a character. -/
def cutAt? (c : Char) : Text → Option (Text × Text)
  | [] => none
  | x :: t => if x = c then some ([], t) else (cutAt? c t).map fun r => (x :: r.1, r.2)

/-- The text before and after the last occurrence of a character. -/
def cutAtLast? (c : Char) (t : Text) : Option (Text × Text) :=
  (cutAt? c t.reverse).map fun r => (r.2.reverse, r.1.reverse)

/-- Only the letters A to Z change. -/
def lower (t : Text) : Text := t.map Char.toLower

/-- The length in bytes of UTF-8. -/
def byteLength (t : Text) : Nat := t.foldr (fun c n => c.utf8Size + n) 0

def isHexDigit (c : Char) : Bool :=
  c.isDigit || ('a' ≤ c && c ≤ 'f') || ('A' ≤ c && c ≤ 'F')

/-- What a hexadecimal digit counts for; 0 for any other character. -/
def hexValue (c : Char) : Nat :=
  if c.isDigit then c.toNat - '0'.toNat
  else if 'a' ≤ c && c ≤ 'f' then c.toNat - 'a'.toNat + 10
  else if 'A' ≤ c && c ≤ 'F' then c.toNat - 'A'.toNat + 10
  else 0

def ofHex (digits : Text) : Nat := digits.foldl (fun n c => n * 16 + hexValue c) 0

/-- Numerals in base 16, in small letters and without leading zeros. -/
def hex (n : Nat) : Text := Nat.toDigits 16 n

def decimal (n : Nat) : Text := Nat.toDigits 10 n

def ofDecimal (digits : Text) : Nat := Nat.ofDigitChars 10 digits 0

/-- Zeros on the left up to a width. -/
def padLeft (width : Nat) (t : Text) : Text := List.replicate (width - t.length) '0' ++ t

def signedDecimal : Int → Text
  | .ofNat n => decimal n
  | .negSucc n => '-' :: decimal (n + 1)

end Text

end FluentSql
