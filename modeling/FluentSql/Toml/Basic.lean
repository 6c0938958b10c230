import FluentSql.Text.Basic

namespace FluentSql

/-- How a table came to be, which decides what may still be added to it. -/
inductive Toml.Origin where
  /-- Named only on the way to the header of another table. -/
  | implied
  | header
  /-- Named on the way of a dotted key. -/
  | dotted
  | inline
  deriving DecidableEq, Repr

/-- A TOML value. What a float or a moment is counts nowhere, only that it is one. -/
inductive Toml where
  | text (t : Text)
  | integer (i : Int)
  | float
  | boolean (b : Bool)
  | moment
  | array (items : List Toml)
  | table (origin : Toml.Origin) (entries : List (Text × Toml))
  /-- Tables that were opened one by one under the same header. -/
  | tables (rows : List (List (Text × Toml)))

namespace Toml

abbrev Entries := List (Text × Toml)

/-- Changes the value of a key. The change is given `none` for a key that is new, and may refuse. -/
def alter? (key : Text) (change : Option Toml → Option Toml) : Entries → Option Entries
  | [] => (change none).map fun v => [(key, v)]
  | (k, v) :: es =>
    if k = key then (change (some v)).map fun v => (k, v) :: es
    else (alter? key change es).map ((k, v) :: ·)

/-- Follows a path and makes the tables that are missing on it. The path leads into the newest of
tables with one header, and through any other table but an inline one; a dotted key does not lead
through a table that has a header of its own. -/
def within? (dotted : Bool) :
    List Text → (Origin → Entries → Option Entries) → Origin → Entries → Option Entries
  | [], change, origin, es => change origin es
  | key :: path, change, _, es =>
    alter? key (fun
      | none =>
        let origin := if dotted then .dotted else .implied
        (within? dotted path change origin []).map (.table origin)
      | some (.table origin inner) =>
        if origin = .inline ∨ (dotted ∧ origin = .header) then none
        else (within? dotted path change origin inner).map (.table origin)
      | some (.tables rows) =>
        rows.getLast?.bind fun row =>
          (within? dotted path change .header row).map fun row => .tables (rows.dropLast ++ [row])
      | some _ => none) es

/-- Adds a value under a dotted key. The table that it goes to is the one at hand, or one that
dotted keys alone have made. -/
def assign? (path : List Text) (key : Text) (v : Toml) (es : Entries) : Option Entries :=
  within? true path (fun origin es =>
    if path.isEmpty ∨ origin = .dotted then
      alter? key (fun old => if old.isSome then none else some v) es
    else none) .header es

/-- Opens the table of a header, which may have been implied before. -/
def openTable? (path : List Text) (key : Text) (es : Entries) : Option Entries :=
  within? false path (fun _ es =>
    alter? key (fun
      | none => some (.table .header [])
      | some (.table .implied inner) => some (.table .header inner)
      | some _ => none) es) .header es

/-- Opens one more of the tables with a header. -/
def openRow? (path : List Text) (key : Text) (es : Entries) : Option Entries :=
  within? false path (fun _ es =>
    alter? key (fun
      | none => some (.tables [[]])
      | some (.tables rows) => some (.tables (rows ++ [[]]))
      | some _ => none) es) .header es

end Toml

end FluentSql
