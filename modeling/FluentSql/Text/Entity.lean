import FluentSql.Text.Basic

namespace FluentSql.Text

/-- The body of a character entity: a name, `#` with digits, or `#x` with hexadecimal digits. -/
def isEntityBody : Text → Bool
  | [] => false
  | '#' :: 'x' :: t => !t.isEmpty && t.all isHexDigit
  | '#' :: 'X' :: t => !t.isEmpty && t.all isHexDigit
  | '#' :: t => !t.isEmpty && t.all Char.isDigit
  | c :: t => c.isAlpha && t.all Char.isAlphanum

/-- Whether the text after an ampersand makes it the start of a character entity. -/
def startsEntity (t : Text) : Bool :=
  match cutAt? ';' t with
  | none => false
  | some (body, _) => isEntityBody body

/-- One escaped character, given what follows it. -/
def escapeAt (c : Char) (t : Text) : Text :=
  if c = '&' then if startsEntity t then ['&'] else "&amp;".toList
  else if c = '<' then "&lt;".toList
  else if c = '>' then "&gt;".toList
  else if c = '"' then "&quot;".toList
  else if c = '\'' then "&#039;".toList
  else [c]

/-- Escapes the characters that are special in markup, but no ampersand that starts an entity. -/
def escape : Text → Text
  | [] => []
  | c :: t => escapeAt c t ++ escape t

/-- The character that an escape stands for, with the rest of the text. -/
def unescapeAt? (t : Text) : Option (Char × Text) :=
  ((after? "&amp;".toList t).map (('&', ·))).or <|
  ((after? "&lt;".toList t).map (('<', ·))).or <|
  ((after? "&gt;".toList t).map (('>', ·))).or <|
  ((after? "&quot;".toList t).map (('"', ·))).or <|
  (after? "&#039;".toList t).map (('\'', ·))

/-- Drops the given number of characters, then reads every escape from the left. -/
def unescapeFrom : Nat → Text → Text
  | _, [] => []
  | n + 1, _ :: t => unescapeFrom n t
  | 0, c :: t =>
    match unescapeAt? (c :: t) with
    | some (d, rest) => d :: unescapeFrom (t.length - rest.length) t
    | none => c :: unescapeFrom 0 t

/-- The text that is displayed: the five escapes become their characters in one pass. -/
def unescape (t : Text) : Text := unescapeFrom 0 t

end FluentSql.Text
