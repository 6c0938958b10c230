import FluentSql.Text.Basic

namespace FluentSql.Placeholder

/-- A character of a statement that stays as it is, or a placeholder without its colon. -/
inductive Piece where
  | char (c : Char)
  | name (t : Text)
  deriving DecidableEq, Repr

/-- Where a scan stands: between tokens, behind the first of two colons, inside quotes, or in the
name of the placeholder that was read last. -/
inductive Place where
  | plain
  | secondColon
  | quoted (q : Char)
  | name
  deriving DecidableEq, Repr

def isNameStart (c : Char) : Bool := c == '_' || c.isAlpha

def isNameChar (c : Char) : Bool := c == '_' || c.isAlphanum

/-- What a character between tokens is, given the text after it. -/
def pieceAt (c : Char) (t : Text) : Piece × Place :=
  if c = '\'' || c = '"' then (.char c, .quoted c)
  else if c = ':' then
    match t with
    | [] => (.char c, .plain)
    | d :: _ =>
      if d = ':' then (.char c, .secondColon)
      else if isNameStart d then (.name (t.takeWhile isNameChar), .name)
      else (.char c, .plain)
  else (.char c, .plain)

/-- The pieces of a statement. Quoted sections and pairs of colons hold no placeholders. -/
def piecesFrom : Place → Text → List Piece
  | _, [] => []
  | .plain, c :: t => (pieceAt c t).1 :: piecesFrom (pieceAt c t).2 t
  | .secondColon, c :: t => .char c :: piecesFrom .plain t
  | .quoted q, c :: t => .char c :: piecesFrom (if c = q then .plain else .quoted q) t
  | .name, c :: t =>
    if isNameChar c then piecesFrom .name t
    else (pieceAt c t).1 :: piecesFrom (pieceAt c t).2 t

def pieces (sql : Text) : List Piece := piecesFrom .plain sql

def Piece.name? : Piece → Option Text
  | char _ => none
  | name t => some t

/-- The names of the placeholders in a statement, from left to right. -/
def occurrences (sql : Text) : List Text := (pieces sql).filterMap Piece.name?

end FluentSql.Placeholder
