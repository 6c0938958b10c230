import FluentSql.Proofs.Binding.Fresh
import FluentSql.Proofs.Result
import FluentSql.Proofs.Statement.Numbering

namespace FluentSql

/-- What is known of a binding without its value. -/
def Binding.label (b : Binding) : Text × Clause := (b.name, b.clause)

namespace Bindings

def labels (bs : Bindings) : List (Text × Clause) := bs.map Binding.label

variable {bs cs : Bindings}

theorem names_of_labels (h : bs.labels = cs.labels) : bs.names = cs.names := by
  have hfst := congrArg (List.map Prod.fst) h
  simpa [labels, names, Binding.label, Function.comp_def] using hfst

theorem isTaken_congr (h : bs.names = cs.names) (name : Text) :
    bs.isTaken name = cs.isTaken name := by
  rw [Bool.eq_iff_iff, isTaken_iff, isTaken_iff, h]

theorem freeFrom_congr (h : bs.names = cs.names) (base : Text) (tries n : Nat) :
    bs.freeFrom base tries n = cs.freeFrom base tries n := by
  induction tries generalizing n with
  | zero => rfl
  | succ tries ih => rw [freeFrom, freeFrom, isTaken_congr h, ih]

theorem freshName_congr (h : bs.names = cs.names) (base : Text) :
    bs.freshName base = cs.freshName base := by
  have hlength : bs.length = cs.length := by
    simpa [names] using congrArg List.length h
  rw [freshName, freshName, isTaken_congr h, freeFrom_congr h, hlength]

/-- Bindings that are made alike after alike bindings keep them alike. -/
theorem labels_concat (h : bs.labels = cs.labels) {b c : Binding} (hl : b.label = c.label) :
    labels (bs ++ [b]) = labels (cs ++ [c]) := by
  have hb : labels (bs ++ [b]) = bs.labels ++ [b.label] := List.map_append
  have hc : labels (cs ++ [c]) = cs.labels ++ [c.label] := List.map_append
  rw [hb, hc, h, hl]

theorem labels_removeClause (h : bs.labels = cs.labels) (clause : Clause) :
    (bs.removeClause clause).labels = (cs.removeClause clause).labels := by
  have hkept (xs : Bindings) : (xs.removeClause clause).labels =
      xs.labels.filter fun l => l.2 ≠ clause := by
    rw [labels, labels, List.filter_map]
    rfl
  rw [hkept, hkept, h]

theorem position_congr (h : bs.names = cs.names) (w : Text) : bs.position w = cs.position w := by
  have hindex (xs : Bindings) : xs.position w = xs.names.findIdx (· = ':' :: w) + 1 := by
    rw [position, names, List.findIdx_map]
    rfl
  rw [hindex, hindex, h]

theorem names_referenced (bs : Bindings) (sql : Text) : (bs.referenced sql).names =
    bs.names.filter fun m => (Placeholder.occurrences sql).any fun n => m = ':' :: n := by
  rw [referenced, names, names, List.filter_map]
  rfl

theorem write_congr (h : bs.names = cs.names) (sql : Text) : bs.write sql = cs.write sql := by
  have hpiece : bs.writePiece = cs.writePiece := by
    funext p
    cases p with
    | char c => rfl
    | name w => rw [writePiece, writePiece, position_congr h]
  rw [write, write, hpiece]

/-- What is compiled of a statement, but for the values, is decided by the names alone. -/
theorem compile_congr (h : bs.names = cs.names) (sql : Text) :
    Agree (fun c d => c.sql = d.sql ∧ c.names = d.names) (bs.compile sql) (cs.compile sql) := by
  have hbound : bs.isBound = cs.isBound := funext fun w => isTaken_congr h (':' :: w)
  have hused : (bs.referenced sql).names = (cs.referenced sql).names := by
    rw [names_referenced, names_referenced, h]
  unfold compile
  rw [hbound]
  cases (Placeholder.occurrences sql).find? fun n => !cs.isBound n with
  | some name => exact .error
  | none => exact .ok ⟨write_congr hused sql, hused⟩

end Bindings

end FluentSql
