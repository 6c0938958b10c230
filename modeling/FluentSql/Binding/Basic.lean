import FluentSql.Value

namespace FluentSql

/-- The clause that a value is bound for, which decides how its placeholder is named. -/
inductive Clause where
  | filter
  | set
  | insert
  deriving DecidableEq, Repr

def Clause.suffix : Clause → Text
  | filter => "_where".toList
  | set => "_set".toList
  | insert => []

/-- A placeholder with its colon, and the value bound to it as it was given. -/
structure Binding where
  name : Text
  clause : Clause
  value : Value
  deriving DecidableEq, Repr

/-- The bindings of a statement in the order in which they were made. -/
abbrev Bindings := List Binding

namespace Bindings

def names (bs : Bindings) : List Text := bs.map Binding.name

def isTaken (bs : Bindings) (name : Text) : Bool := bs.any fun b => b.name = name

def numbered (base : Text) (n : Nat) : Text := base ++ '_' :: Text.decimal n

/-- The first free name among `base_n`, `base_(n+1)`, … Of one name more than there are bindings,
one is free. -/
def freeFrom (bs : Bindings) (base : Text) : Nat → Nat → Text
  | 0, n => numbered base n
  | tries + 1, n =>
    if isTaken bs (numbered base n) then freeFrom bs base tries (n + 1) else numbered base n

/-- A name that no binding has: the base itself or the base with the least number from 2 on. -/
def freshName (bs : Bindings) (base : Text) : Text :=
  if isTaken bs base then freeFrom bs base bs.length 2 else base

def baseName (clause : Clause) (seed : Text) : Text := ':' :: seed ++ clause.suffix

/-- Binds a value at the end, under a fresh name, which is returned as well. -/
def register (bs : Bindings) (clause : Clause) (seed : Text) (value : Value) : Text × Bindings :=
  let name := freshName bs (baseName clause seed)
  (name, bs ++ [⟨name, clause, value⟩])

def removeClause (bs : Bindings) (clause : Clause) : Bindings :=
  bs.filter fun b => b.clause ≠ clause

end Bindings

end FluentSql
