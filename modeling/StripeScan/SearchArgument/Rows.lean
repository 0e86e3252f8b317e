import StripeScan.SearchArgument.Binding
import StripeScan.Logic.Kleene

/-! # Search arguments row by row

The meaning of a search argument is what it says of single rows, with nulls making comparisons
unknown.  A row matches if the formula is true of it.  This is what pruning must respect: it may
keep rows that do not match, but never drop one that does.

A comparison with what is no number is never less, equal or greater; "at most" and "between" are
stated as "not greater" and "not outside", so such a value passes them. -/

namespace StripeScan

/-- Whether some literal of a list equals a value. -/
def Test.anyEqual (v : Literal) : List Literal → Except Incomparable Bool
  | [] => .ok false
  | l :: rest => do
    let here ← v.isOrder .eq l
    let there ← anyEqual v rest
    return here || there

/-- What a test says of a value that is not null. -/
def Test.accepts (v : Literal) : Test → Except Incomparable Bool
  | .isNull => .ok false
  | .equals l | .nullSafeEquals l => v.isOrder .eq l
  | .lessThan l => v.isOrder .lt l
  | .lessThanEquals l => (v.isOrder .gt l).map (!·)
  | .between lower upper => do
    if ← v.isOrder .lt lower then return false
    return !(← v.isOrder .gt upper)
  | .isIn first rest => anyEqual v (first :: rest)

/-- What a test says of a null. -/
def Test.ofNull : Test → Verdict
  | .isNull => some true
  | .nullSafeEquals _ => some false
  | _ => none

/-- What a predicate says of a value of its column. -/
def Predicate.verdict (p : Predicate) : Option Literal → Except Incomparable Verdict
  | none => .ok p.test.ofNull
  | some v => (p.test.accepts v).map some

namespace BoundSearchArgument

/-- What the predicates say of a row, given its values by column. -/
def verdicts (b : BoundSearchArgument) (row : Nat → Option Literal) :
    Except Incomparable (List Verdict) :=
  b.predicates.mapM fun p => p.predicate.verdict (row p.column)

/-- What a search argument says of a row, given its values by column. -/
def verdict (b : BoundSearchArgument) (row : Nat → Option Literal) :
    Except Incomparable Verdict := do
  let values ← b.verdicts row
  return b.formula.verdict fun i => (values[i]?).join

end BoundSearchArgument

end StripeScan
