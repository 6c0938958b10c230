import FluentSql.Text.Basic

namespace FluentSql.Text

/-- How many characters lead up to and include the first `-->`. -/
def commentEnd? : Text → Option Nat
  | [] => none
  | c :: t =>
    if (after? ['-', '-', '>'] (c :: t)).isSome then some 3
    else (commentEnd? t).map (· + 1)

/-- How many characters close a tag: anything but angle brackets, then `>`. -/
def tagEnd? : Text → Option Nat
  | [] => none
  | c :: t =>
    if c = '>' then some 1
    else if c = '<' then none
    else (tagEnd? t).map (· + 1)

/-- The length of the comment or tag at the head of a text. A comment wins over a tag, and one that
never closes may still be a tag. -/
def markLength? : Text → Option Nat
  | [] => none
  | c :: t =>
    if c = '<' then
      match (after? ['!', '-', '-'] t).bind commentEnd? with
      | some n => some (n + 4)
      | none => (tagEnd? t).map (· + 1)
    else none

/-- Drops the given number of characters, then every mark from the left. -/
def stripFrom : Nat → Text → Text
  | _, [] => []
  | n + 1, _ :: t => stripFrom n t
  | 0, c :: t =>
    match markLength? (c :: t) with
    | some n => stripFrom (n - 1) t
    | none => c :: stripFrom 0 t

/-- Removes comments and tags. What remains may look like a new tag; it is kept. -/
def stripTags (t : Text) : Text := stripFrom 0 t

end FluentSql.Text
