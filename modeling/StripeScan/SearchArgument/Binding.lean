import StripeScan.Schema
import StripeScan.SearchArgument.Basic

/-! # Search arguments bound to a schema

Binding looks up the column of every predicate and checks that the column is of the kind the
predicate declares.  Predicates are bound in order, and the first that fails decides the
error. -/

namespace StripeScan

/-- A predicate with the position of its column. -/
structure BoundPredicate where
  predicate : Predicate
  column : Nat

/-- A search argument whose predicates know the positions of their columns. -/
structure BoundSearchArgument where
  predicates : List BoundPredicate
  formula : Formula Nat

/-- Looks up the column of a predicate. -/
def Predicate.bind (resolve : ColumnRef → Option (Nat × Kind)) (p : Predicate) :
    Except SearchArgumentError BoundPredicate :=
  match resolve p.column with
  | none => .error (.unresolvedColumn p.column)
  | some (ordinal, kind) =>
    if kind = p.kind then .ok ⟨p, ordinal⟩ else .error (.malformed (.columnKind p kind))

namespace SearchArgument

/-- Looks up the columns of all predicates. -/
def bindWith (resolve : ColumnRef → Option (Nat × Kind)) (s : SearchArgument) :
    Except SearchArgumentError BoundSearchArgument := do
  let predicates ← s.predicates.mapM (Predicate.bind resolve)
  return ⟨predicates, s.formula⟩

/-- Looks up the columns of all predicates in a schema. -/
def bind (s : SearchArgument) (schema : Schema) :
    Except SearchArgumentError BoundSearchArgument := s.bindWith schema.resolve

end SearchArgument

namespace BoundSearchArgument

/-- The search argument without the positions. -/
def argument (b : BoundSearchArgument) : SearchArgument :=
  ⟨b.predicates.map BoundPredicate.predicate, b.formula⟩

/-- The position of each predicate's column. -/
def columns (b : BoundSearchArgument) : List Nat := b.predicates.map BoundPredicate.column

/-- A list sorted in ascending order, without repetitions. -/
def sortedDistinct (xs : List Nat) : List Nat := (xs.mergeSort (· ≤ ·)).eraseReps

/-- The positions of all columns that take part, ascending and each once. -/
def referenced (b : BoundSearchArgument) : List Nat := sortedDistinct b.columns

end BoundSearchArgument

end StripeScan
