import FluentSql.Binding.Basic
import FluentSql.Binding.Placeholder

namespace FluentSql

/-- A statement with numbered placeholders, with the values in that order and the names that they
were bound under. -/
structure Compiled where
  sql : Text
  params : List Value
  names : List Text
  deriving DecidableEq, Repr

namespace Bindings

def isBound (bs : Bindings) (name : Text) : Bool := isTaken bs (':' :: name)

/-- The bindings that a statement refers to, in the order in which they were made. -/
def referenced (bs : Bindings) (sql : Text) : Bindings :=
  bs.filter fun b => (Placeholder.occurrences sql).any fun n => b.name = ':' :: n

/-- The place of a name among the bindings, from 1 on. -/
def position (bs : Bindings) (name : Text) : Nat :=
  (bs.findIdx fun b => b.name = ':' :: name) + 1

def writePiece (bs : Bindings) : Placeholder.Piece → Text
  | .char c => [c]
  | .name n => '$' :: Text.decimal (position bs n)

/-- Numbers the placeholders of a statement and collects their values, cleaned. Fails with the first
name that no value is bound to. -/
def compile (bs : Bindings) (sql : Text) : Except Text Compiled :=
  match (Placeholder.occurrences sql).find? fun n => !isBound bs n with
  | some name => .error name
  | none =>
    let used := referenced bs sql
    .ok ⟨(Placeholder.pieces sql).flatMap (writePiece used),
      used.map fun b => b.value.sanitized, used.names⟩

end Bindings

end FluentSql
