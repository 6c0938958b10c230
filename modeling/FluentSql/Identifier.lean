import FluentSql.Text.Blank
import FluentSql.Text.Clean

namespace FluentSql

/-- A name such as `shop.users`, by its parts and without its quotes. -/
structure Identifier where
  parts : List Text
  deriving DecidableEq, Repr

namespace Identifier

inductive Fault where
  | empty
  | nul
  | trailingDot
  | textAfter (tail : Text)
  | emptyQuoted
  | unclosedQuote
  | emptySegment
  | badStart (c : Char)
  | badCharacter (c : Char)
  deriving DecidableEq, Repr

def Fault.message : Fault → Text
  | empty => "Identifier cannot be empty".toList
  | nul => "Identifier cannot contain NUL character".toList
  | trailingDot => "Trailing '.' in identifier".toList
  | textAfter tail => "Unexpected text after identifier: '".toList ++ tail ++ ['\'']
  | emptyQuoted => "Empty quoted identifier".toList
  | unclosedQuote => "Unclosed quoted identifier".toList
  | emptySegment => "Empty identifier segment".toList
  | badStart c => "Invalid identifier start character: '".toList ++ [c, '\'']
  | badCharacter c => "Invalid character in identifier: '".toList ++ [c, '\'']

def isNameStart (c : Char) : Bool := c == '_' || c.isAlpha

def isNameChar (c : Char) : Bool := c == '_' || c == '$' || c.isAlphanum

/-- A quoted part up to its closing quote, where two quotes stand for one, and what follows. -/
def quotedBody? : Text → Option (Text × Text)
  | [] => none
  | '"' :: '"' :: t => (quotedBody? t).map fun r => ('"' :: r.1, r.2)
  | '"' :: t => some ([], t)
  | c :: t => (quotedBody? t).map fun r => (c :: r.1, r.2)

def quotedPart (t : Text) : Except Fault (Text × Text) :=
  match quotedBody? t with
  | none => .error .unclosedQuote
  | some ([], _) => .error .emptyQuoted
  | some r => .ok r

/-- A plain part: all the text up to the next dot has to be a name. -/
def plainPart (t : Text) : Except Fault (Text × Text) :=
  match t.takeWhile (· != '.') with
  | [] => .error .emptySegment
  | c :: cs =>
    if isNameStart c then
      match cs.find? fun d => !isNameChar d with
      | some d => .error (.badCharacter d)
      | none => .ok (c :: cs, t.dropWhile (· != '.'))
    else .error (.badStart c)

def part : Text → Except Fault (Text × Text)
  | '"' :: t => quotedPart t
  | t => plainPart t

/-- The parts of a dotted name. Every part takes a character, so the length bounds their number. -/
def partsWithin : Nat → Text → Except Fault (List Text)
  | 0, _ => .error .emptySegment
  | n + 1, t =>
    match part t with
    | .error e => .error e
    | .ok (name, []) => .ok [name]
    | .ok (_, ['.']) => .error .trailingDot
    | .ok (name, '.' :: rest) => (partsWithin n rest).map (name :: ·)
    | .ok (_, tail) => .error (.textAfter tail)

def parse (t : Text) : Except Fault Identifier :=
  if t.isEmpty then .error .empty
  else if t.contains '\x00' then .error .nul
  else (partsWithin (t.length + 1) t).map Identifier.mk

/-- Trims and cleans a text before it is read as a name. -/
def ofText (t : Text) : Except Fault Identifier := parse (Text.sanitize (Text.trim t))

def quotePart (p : Text) : Text :=
  '"' :: p.flatMap (fun c => if c = '"' then ['"', '"'] else [c]) ++ ['"']

/-- Every part in double quotes, so that no part is read as anything but a name. -/
def toSql (i : Identifier) : Text := Text.joinWith ['.'] (i.parts.map quotePart)

/-- The last part as a word that a placeholder can be named after. -/
def seed (i : Identifier) : Text :=
  match (i.parts.getLast?.getD []).map fun c => if c.isAlphanum then c else '_' with
  | [] => ['p']
  | s => s

end Identifier

end FluentSql
