import FluentSql.Toml.Quoted
import FluentSql.Toml.Scalar

namespace FluentSql.Toml

/-- Passes over blanks, line ends and comments. The flag tells that a comment has begun. -/
def skipLines? : Bool → Text → Option Text
  | _, [] => some []
  | _, '\n' :: t => skipLines? false t
  | _, '\r' :: '\n' :: t => skipLines? false t
  | false, '#' :: t => skipLines? true t
  | false, c :: t => if isSpace c then skipLines? false t else some (c :: t)
  | true, c :: t => if isPlain c then skipLines? true t else none

/-- Whether a line may end here, with a comment or without. -/
def endsLine (t : Text) : Bool :=
  match skipSpace t with
  | [] => true
  | '\n' :: _ => true
  | '\r' :: '\n' :: _ => true
  | '#' :: _ => true
  | _ => false

def isBareKey (c : Char) : Bool := c.isAlphanum || c == '_' || c == '-'

def readKey? (t : Text) : Option (Text × Text) :=
  (readLine? t).or <|
    let key := t.takeWhile isBareKey
    if key.isEmpty then none else some (key, t.dropWhile isBareKey)

/-- Up to so many keys with points between them: all but the last, the last, and the rest of the
text. -/
def readKeys? : Nat → Text → Option (List Text × Text × Text)
  | 0, _ => none
  | most + 1, t =>
    match readKey? (skipSpace t) with
    | none => none
    | some (key, t) =>
      match skipSpace t with
      | '.' :: t => (readKeys? most t).map fun r => (key :: r.1, r.2)
      | t => some ([], key, t)

/-- How many arrays and inline tables may stand inside one another, and how many keys in a path. -/
def maxDepth : Nat := 80

/-- The keys of a header or of an assignment. -/
def readPath? (t : Text) : Option (List Text × Text × Text) := readKeys? maxDepth t

/-- What follows the equals sign of a member, which may have lines end on both its sides. -/
def afterEquals? (t : Text) : Option Text :=
  match skipLines? false t with
  | some ('=' :: t) => skipLines? false t
  | _ => none

def endsScalar (c : Char) : Bool :=
  isSpace c || c == '\n' || c == '\r' || c == ',' || c == ']' || c == '\x7d' || c == '#'

/-- The text of a value without quotes or brackets, and the rest. One blank may stand between a day
and a time. -/
def takeScalar (t : Text) : Text × Text :=
  let word := t.takeWhile fun c => !endsScalar c
  let rest := t.dropWhile fun c => !endsScalar c
  match day? word, rest with
  | some (_, []), ' ' :: c :: t =>
    if c.isDigit then
      (word ++ ' ' :: (c :: t).takeWhile fun c => !endsScalar c,
        (c :: t).dropWhile fun c => !endsScalar c)
    else (word, rest)
  | _, _ => (word, rest)

mutual

/-- The value at the head of a text, with `depth` levels of nesting to spare. -/
def readValue? : Nat → Nat → Text → Option (Toml × Text)
  | 0, _, _ => none
  | fuel + 1, depth, t =>
    match t with
    | '"' :: _ => (readString? t).map fun r => (.text r.1, r.2)
    | '\'' :: _ => (readString? t).map fun r => (.text r.1, r.2)
    | '[' :: t =>
      match depth with
      | 0 => none
      | depth + 1 => (readItems? fuel depth t).map fun r => (.array r.1, r.2)
    | '\x7b' :: t =>
      match depth with
      | 0 => none
      | depth + 1 => (readMembers? fuel depth [] t).map fun r => (.table .inline r.1, r.2)
    | t =>
      let (word, rest) := takeScalar t
      (scalar? word).map (·, rest)

/-- Items up to the closing bracket, the last with a comma or without. -/
def readItems? : Nat → Nat → Text → Option (List Toml × Text)
  | 0, _, _ => none
  | fuel + 1, depth, t =>
    match skipLines? false t with
    | none => none
    | some (']' :: t) => some ([], t)
    | some t =>
      match readValue? fuel depth t with
      | none => none
      | some (v, t) =>
        match skipLines? false t with
        | some (',' :: t) => (readItems? fuel depth t).map fun r => (v :: r.1, r.2)
        | some (']' :: t) => some ([v], t)
        | _ => none

/-- Members up to the closing brace, added to those read before. -/
def readMembers? : Nat → Nat → Entries → Text → Option (Entries × Text)
  | 0, _, _, _ => none
  | fuel + 1, depth, es, t =>
    match skipLines? false t with
    | none => none
    | some ('\x7d' :: t) => some (es, t)
    | some t =>
      match readPath? t with
      | none => none
      | some (path, key, t) =>
        match (afterEquals? t).bind (readValue? fuel depth) with
        | none => none
        | some (v, t) =>
          match assign? path key v es with
          | none => none
          | some es =>
            match skipLines? false t with
            | some (',' :: t) => readMembers? fuel depth es t
            | some ('\x7d' :: t) => some (es, t)
            | _ => none

end

/-- Reads headers and assignments to the end. The header at hand is the path of the table that
assignments go to. -/
def readTables? : Nat → List Text → Entries → Text → Option Entries
  | 0, _, _, _ => none
  | fuel + 1, header, es, t =>
    match skipLines? false t with
    | none => none
    | some [] => some es
    | some ('[' :: '[' :: t) =>
      match readPath? t with
      | some (path, key, ']' :: ']' :: t) =>
        if endsLine t then
          (openRow? path key es).bind fun es => readTables? fuel (path ++ [key]) es t
        else none
      | _ => none
    | some ('[' :: t) =>
      match readPath? t with
      | some (path, key, ']' :: t) =>
        if endsLine t then
          (openTable? path key es).bind fun es => readTables? fuel (path ++ [key]) es t
        else none
      | _ => none
    | some t =>
      match readPath? t with
      | some (path, key, '=' :: t) =>
        match readValue? (2 * t.length + 2) maxDepth (skipSpace t) with
        | some (v, t) =>
          if endsLine t then
            (within? false header (fun _ => assign? path key v) .header es).bind fun es =>
              readTables? fuel header es t
          else none
        | none => none
      | _ => none

/-- A byte order mark at the start does not count. -/
def skipMark : Text → Text
  | '\ufeff' :: t => t
  | t => t

/-- Reads a document. Every step takes a character, so the length is enough. -/
def read? (t : Text) : Option Entries := readTables? (t.length + 1) [] [] (skipMark t)

end FluentSql.Toml
