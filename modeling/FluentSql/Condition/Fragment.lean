import FluentSql.Condition.Basic

namespace FluentSql.Condition

/-- A piece of a condition between commas. -/
structure Fragment where
  text : Text
  /-- The value opened a quote that no end of a value closes. -/
  unterminated : Bool
  deriving DecidableEq, Repr

/-- A text whose value starts with a quote: the text before the quote, the quote, the rest. -/
def openQuote? (t : Text) : Option (Text × Char × Text) :=
  let (column, rest) := splitColumn (Text.trimStart t)
  if column.isEmpty then none
  else match Comparison.read? (Text.trimStart rest) with
    | none => none
    | some (_, value) =>
      match Text.trimStart value with
      | [] => none
      | q :: body =>
        if q = '\'' || q = '"' then some (t.take (t.length - (body.length + 1)), q, body) else none

/-- Whether a value may end here: only blanks up to a comma or the end. -/
def endsValue (t : Text) : Bool :=
  match Text.trimStart t with
  | [] => true
  | c :: _ => c == ','

/-- The text through the first quote that ends the value and the blanks after it, and what follows:
nothing, or a text that starts with a comma. -/
def closeQuote? (q : Char) : Text → Option (Text × Text)
  | [] => none
  | c :: t =>
    if c = q && endsValue t then some (c :: t.takeWhile Text.isBlank, Text.trimStart t)
    else (closeQuote? q t).map fun r => (c :: r.1, r.2)

/-- The text up to the first comma, and the rest from that comma on. -/
def toComma (t : Text) : Text × Text := (t.takeWhile (· != ','), t.dropWhile (· != ','))

/-- The first fragment and what follows it: nothing, or a text that starts with a comma. -/
def firstFragment (t : Text) : Fragment × Text :=
  let plain := toComma t
  match openQuote? t with
  | none => (⟨plain.1, false⟩, plain.2)
  | some (before, q, body) =>
    match closeQuote? q body with
    | some (inner, rest) => (⟨before ++ q :: inner, false⟩, rest)
    | none => (⟨plain.1, true⟩, plain.2)

/-- Every fragment but the last takes a comma, so the length bounds their number. -/
def fragmentsWithin : Nat → Text → List Fragment
  | 0, _ => []
  | n + 1, t =>
    match firstFragment t with
    | (f, []) => [f]
    | (f, _ :: rest) => f :: fragmentsWithin n rest

/-- The fragments of a condition; a comma inside a quoted value does not split. -/
def fragments (t : Text) : List Fragment := fragmentsWithin (t.length + 1) t

end FluentSql.Condition
