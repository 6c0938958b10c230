import FluentSql.Condition.Fragment

namespace FluentSql.Condition

def Fragment.parse (position : Nat) (f : Fragment) : Except Fault Predicate :=
  match Text.trim f.text with
  | [] => .error (.emptyPredicate position)
  | c :: cs =>
    let trimmed := c :: cs
    let (column, rest) := splitColumn trimmed
    if column.isEmpty then .error (.missingColumn trimmed)
    else match Comparison.read? (Text.trimStart rest) with
      | none => .error (.missingOperator trimmed)
      | some (op, rest) =>
        let value := Text.trim rest
        if value.isEmpty then .error (.missingValue trimmed)
        else if f.unterminated then .error (.unterminatedQuote trimmed)
        else .ok ⟨column, op, value⟩

/-- Reads fragments from a position on, up to the first that is malformed. -/
def parseFrom : Nat → List Fragment → Except Fault (List Predicate)
  | _, [] => .ok []
  | n, f :: fs =>
    match f.parse n with
    | .error e => .error e
    | .ok p => (parseFrom (n + 1) fs).map (p :: ·)

/-- Reads fragments from a position on and sets the malformed ones aside. -/
def readFrom : Nat → List Fragment → Reading
  | _, [] => ⟨[], []⟩
  | n, f :: fs =>
    let r := readFrom (n + 1) fs
    match f.parse n with
    | .ok p => ⟨p :: r.accepted, r.skipped⟩
    | .error e => ⟨r.accepted, ⟨Text.trim f.text, e⟩ :: r.skipped⟩

def isVoid (t : Text) : Bool := t.all Text.isBlank

/-- Fails on the first malformed fragment. -/
def parse (t : Text) : Except Fault (List Predicate) :=
  if isVoid t then .error .empty else parseFrom 0 (fragments t)

/-- Only a blank condition fails. -/
def parseLenient (t : Text) : Except Fault Reading :=
  if isVoid t then .error .empty else .ok (readFrom 0 (fragments t))

end FluentSql.Condition
