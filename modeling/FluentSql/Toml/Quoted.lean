import FluentSql.Text.Basic

namespace FluentSql.Toml

/-- Control characters other than the tab stand nowhere. -/
def isPlain (c : Char) : Bool := (0x20 ≤ c.toNat && c.toNat != 0x7F) || c == '\t'

def isSpace (c : Char) : Bool := c == ' ' || c == '\t'

def skipSpace (t : Text) : Text := t.dropWhile isSpace

/-- The character of so many hexadecimal digits, and their number. -/
def codePoint? (width : Nat) (t : Text) : Option (Char × Nat) :=
  let digits := t.take width
  let n := Text.ofHex digits
  if digits.length = width && digits.all Text.isHexDigit && n.isValidChar then
    some (Char.ofNat n, width + 1)
  else none

/-- The character that an escape after its backslash stands for, and the length of the escape. -/
def escape? : Text → Option (Char × Nat)
  | 'b' :: _ => some ('\x08', 1)
  | 't' :: _ => some ('\t', 1)
  | 'n' :: _ => some ('\n', 1)
  | 'f' :: _ => some ('\x0c', 1)
  | 'r' :: _ => some ('\r', 1)
  | 'e' :: _ => some ('\x1b', 1)
  | '"' :: _ => some ('"', 1)
  | '\\' :: _ => some ('\\', 1)
  | 'x' :: t => codePoint? 2 t
  | 'u' :: t => codePoint? 4 t
  | 'U' :: t => codePoint? 8 t
  | _ => none

/-- The rest of a string on one line after its opening quote, and what follows it. The given number
of characters is passed over first. -/
def readBasic? : Nat → Text → Option (Text × Text)
  | _, [] => none
  | n + 1, _ :: t => readBasic? n t
  | 0, '"' :: t => some ([], t)
  | 0, '\\' :: t =>
    match escape? t with
    | some (c, n) => (readBasic? n t).map fun r => (c :: r.1, r.2)
    | none => none
  | 0, c :: t => if isPlain c then (readBasic? 0 t).map fun r => (c :: r.1, r.2) else none

def readLiteral? : Text → Option (Text × Text)
  | [] => none
  | '\'' :: t => some ([], t)
  | c :: t => if isPlain c then (readLiteral? t).map fun r => (c :: r.1, r.2) else none

/-- How many characters of line ends and blanks a text starts with. -/
def marginLength : Text → Nat
  | '\r' :: '\n' :: t => marginLength t + 2
  | '\n' :: t => marginLength t + 1
  | ' ' :: t => marginLength t + 1
  | '\t' :: t => marginLength t + 1
  | _ => 0

/-- How many characters a backslash at the end of a line takes with it; `none` if it is not at the
end of one. -/
def lineJoin? (t : Text) : Option Nat :=
  match skipSpace t with
  | '\n' :: _ => some (marginLength t)
  | '\r' :: '\n' :: _ => some (marginLength t)
  | _ => none

/-- The rest of a string over several lines after its opening quotes, and what follows it. Of five
quotes in a row the last three close it. The given number of characters is passed over first. -/
def readLines? (quote : Char) (escapes : Bool) : Nat → Text → Option (Text × Text)
  | _, [] => none
  | n + 1, _ :: t => readLines? quote escapes n t
  | 0, c :: t =>
    if c = quote then
      let run := min 5 ((c :: t).takeWhile (· == quote)).length
      if 3 ≤ run then some (List.replicate (run - 3) quote, (c :: t).drop run)
      else (readLines? quote escapes 0 t).map fun r => (c :: r.1, r.2)
    else if escapes && c == '\\' then
      match lineJoin? t with
      | some n => readLines? quote escapes n t
      | none =>
        match escape? t with
        | some (c, n) => (readLines? quote escapes n t).map fun r => (c :: r.1, r.2)
        | none => none
    else if isPlain c || c == '\n' || (c == '\r' && t.head? == some '\n') then
      (readLines? quote escapes 0 t).map fun r => (c :: r.1, r.2)
    else none

/-- A line end right after the opening quotes does not count. -/
def skipLineEnd : Text → Text
  | '\n' :: t => t
  | '\r' :: '\n' :: t => t
  | t => t

/-- A string at the head of a text; `none` also if there is none. -/
def readString? : Text → Option (Text × Text)
  | '"' :: '"' :: '"' :: t => readLines? '"' true 0 (skipLineEnd t)
  | '"' :: t => readBasic? 0 t
  | '\'' :: '\'' :: '\'' :: t => readLines? '\'' false 0 (skipLineEnd t)
  | '\'' :: t => readLiteral? t
  | _ => none

/-- A string on one line, as a key may be. -/
def readLine? : Text → Option (Text × Text)
  | '"' :: t => readBasic? 0 t
  | '\'' :: t => readLiteral? t
  | _ => none

end FluentSql.Toml
