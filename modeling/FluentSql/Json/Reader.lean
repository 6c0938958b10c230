import FluentSql.Json.Number

namespace FluentSql.Json

def isBlank (c : Char) : Bool := c == ' ' || c == '\n' || c == '\t' || c == '\r'

def skipBlank (t : Text) : Text := t.dropWhile isBlank

def escaped? : Char → Option Char
  | '"' => some '"'
  | '\\' => some '\\'
  | '/' => some '/'
  | 'b' => some '\x08'
  | 'f' => some '\x0c'
  | 'n' => some '\n'
  | 'r' => some '\r'
  | 't' => some '\t'
  | _ => none

def unit? (a b c d : Char) : Option Nat :=
  if [a, b, c, d].all Text.isHexDigit then some (Text.ofHex [a, b, c, d]) else none

/-- The rest of a string after its opening quote, and what follows it. Two escaped halves of a
character outside the first plane have to stand together. -/
def readString? : Text → Option (Text × Text)
  | [] => none
  | '"' :: t => some ([], t)
  | '\\' :: 'u' :: a :: b :: c :: d :: t =>
    match unit? a b c d with
    | none => none
    | some n =>
      if 0xD800 ≤ n && n < 0xDC00 then
        match t with
        | '\\' :: 'u' :: e :: f :: g :: h :: t =>
          match unit? e f g h with
          | none => none
          | some m =>
            if 0xDC00 ≤ m && m < 0xE000 then
              (readString? t).map fun r =>
                (Char.ofNat (0x10000 + (n - 0xD800) * 1024 + (m - 0xDC00)) :: r.1, r.2)
            else none
        | _ => none
      else if 0xDC00 ≤ n && n < 0xE000 then none
      else (readString? t).map fun r => (Char.ofNat n :: r.1, r.2)
  | '\\' :: c :: t =>
    match escaped? c with
    | none => none
    | some c => (readString? t).map fun r => (c :: r.1, r.2)
  | c :: t =>
    if c.toNat < 0x20 || c = '\\' then none else (readString? t).map fun r => (c :: r.1, r.2)

mutual

/-- The value at the head of a text, with `depth` levels of nesting to spare. -/
def readValue? : Nat → Nat → Text → Option (Json × Text)
  | 0, _, _ => none
  | fuel + 1, depth, t =>
    match skipBlank t with
    | [] => none
    | '"' :: t => (readString? t).map fun r => (text r.1, r.2)
    | '[' :: t =>
      match depth with
      | 0 => none
      | depth + 1 =>
        match skipBlank t with
        | ']' :: t => some (array [], t)
        | t => (readItems? fuel depth t).map fun r => (array r.1, r.2)
    | '\x7b' :: t =>
      match depth with
      | 0 => none
      | depth + 1 =>
        match skipBlank t with
        | '\x7d' :: t => some (object [], t)
        | t => (readMembers? fuel depth [] t).map fun r => (object r.1, r.2)
    | '-' :: t => readNumber? true t
    | c :: t =>
      if c.isDigit then readNumber? false (c :: t)
      else
        ((Text.after? "null".toList (c :: t)).map (null, ·)).or <|
        ((Text.after? "true".toList (c :: t)).map (bool true, ·)).or <|
        (Text.after? "false".toList (c :: t)).map (bool false, ·)

/-- One item or more, up to the closing bracket. -/
def readItems? : Nat → Nat → Text → Option (List Json × Text)
  | 0, _, _ => none
  | fuel + 1, depth, t =>
    match readValue? fuel depth t with
    | none => none
    | some (v, t) =>
      match skipBlank t with
      | ',' :: t => (readItems? fuel depth t).map fun r => (v :: r.1, r.2)
      | ']' :: t => some ([v], t)
      | _ => none

/-- One member or more, up to the closing brace, put to the members read before. -/
def readMembers? : Nat → Nat → List (Text × Json) → Text → Option (List (Text × Json) × Text)
  | 0, _, _, _ => none
  | fuel + 1, depth, members, t =>
    match skipBlank t with
    | '"' :: t =>
      match readString? t with
      | none => none
      | some (key, t) =>
        match skipBlank t with
        | ':' :: t =>
          match readValue? fuel depth t with
          | none => none
          | some (v, t) =>
            let members := insert key v members
            match skipBlank t with
            | ',' :: t => readMembers? fuel depth members t
            | '\x7d' :: t => some (members, t)
            | _ => none
        | _ => none
    | _ => none

end

/-- How many arrays and objects may stand inside one another. -/
def maxDepth : Nat := 127

/-- Reads one value and nothing after it. Every step takes a character, so the length is enough. -/
def read? (t : Text) : Option Json :=
  match readValue? (2 * t.length + 2) maxDepth t with
  | some (v, rest) => if (skipBlank rest).isEmpty then some v else none
  | none => none

end FluentSql.Json
