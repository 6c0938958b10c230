import FluentSql.Text.Visible

namespace FluentSql.Text

/-- How a character stands inside double quotes in a message. -/
def quotedChar (c : Char) : Text :=
  if c = '"' then ['\\', '"']
  else if c = '\\' then ['\\', '\\']
  else if c = '\n' then ['\\', 'n']
  else if c = '\r' then ['\\', 'r']
  else if c = '\t' then ['\\', 't']
  else if c = '\x00' then ['\\', '0']
  else if isVisible c then [c]
  else ['\\', 'u', '\x7b'] ++ hex c.toNat ++ ['\x7d']

/-- A text in double quotes, with every character that does not show by itself escaped. -/
def quoted (t : Text) : Text := '"' :: t.flatMap quotedChar ++ ['"']

/-- Quoted texts in brackets. -/
def quotedList (ts : List Text) : Text := '[' :: joinWith [',', ' '] (ts.map quoted) ++ [']']

end FluentSql.Text
