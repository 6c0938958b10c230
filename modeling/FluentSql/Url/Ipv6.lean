import FluentSql.Url.Basic

namespace FluentSql.Url.Ipv6

/-- The eight groups of an address. -/
abbrev Groups := List Nat

def group? (t : Text) : Option Nat :=
  if !t.isEmpty && t.length ≤ 4 && t.all Text.isHexDigit then some (Text.ofHex t) else none

/-- A number below 256 without a zero in front. -/
def octet? (t : Text) : Option Nat :=
  let n := Text.ofDecimal t
  if !t.isEmpty && t.all Char.isDigit && n < 256 && Text.decimal n == t then some n else none

/-- The two groups that four octets with points between them make. -/
def octets? (t : Text) : Option Groups :=
  match (Text.splitAt '.' t).mapM octet? with
  | some [a, b, c, d] => some [a * 256 + b, c * 256 + d]
  | _ => none

/-- Groups with colons between them. The last of an address may be written as octets. -/
def groups? (atEnd : Bool) : List Text → Option Groups
  | [] => some []
  | [t] =>
    match group? t with
    | some g => some [g]
    | none => if atEnd then octets? t else none
  | t :: ts => (group? t).bind fun g => (groups? atEnd ts).map (g :: ·)

def side? (atEnd : Bool) (t : Text) : Option Groups :=
  if t.isEmpty then some [] else groups? atEnd (Text.splitAt ':' t)

/-- The text before and after the first two colons in a row. -/
def cut? : Text → Option (Text × Text)
  | [] => none
  | ':' :: ':' :: t => some ([], t)
  | c :: t => (cut? t).map fun r => (c :: r.1, r.2)

/-- Eight groups, or fewer around two colons, which stand for zeros. -/
def read? (t : Text) : Option Groups :=
  match cut? t with
  | none => (side? true t).bind fun gs => if gs.length = 8 then some gs else none
  | some (before, behind) => do
    let before ← side? false before
    let behind ← side? true behind
    let given := before.length + behind.length
    if given < 8 then some (before ++ List.replicate (8 - given) 0 ++ behind) else none

/-- The place and length of the first longest run of zeros, given the run at hand. -/
def zeroRun : Nat → Nat → Nat × Nat → Groups → Nat × Nat
  | _, _, best, [] => best
  | place, run, best, g :: gs =>
    let run := if g = 0 then run + 1 else 0
    zeroRun (place + 1) run (if best.2 < run then (place + 1 - run, run) else best) gs

def joinGroups (gs : Groups) : Text := Text.joinWith [':'] (gs.map Text.hex)

/-- The shortest way to write an address, in brackets. -/
def toText (gs : Groups) : Text :=
  let (place, run) := zeroRun 0 0 (0, 0) gs
  '[' ::
    (if run < 2 then joinGroups gs
    else joinGroups (gs.take place) ++ [':', ':'] ++ joinGroups (gs.drop (place + run))) ++ [']']

end FluentSql.Url.Ipv6
