import StripeScan.Value.Literal

/-! # Predicates on one column

A predicate names a column, declares its kind and tests its values.  The test carries exactly
the literals its operator needs, and all of them are of the declared kind: both hold by the
type, so nothing that evaluates a predicate has to check them again. -/

namespace StripeScan

/-- A column, by name or by its position in the schema. -/
inductive ColumnRef where
  | name (name : String)
  | ordinal (index : Nat)
deriving DecidableEq, Repr

/-- The text of a column reference. -/
def ColumnRef.text : ColumnRef → String
  | name n => n
  | ordinal i => s!"#{i}"

/-- The operators of predicates. -/
inductive Operator where
  | equals
  | nullSafeEquals
  | lessThan
  | lessThanEquals
  | between
  | isNull
  | isIn
deriving DecidableEq, Repr

namespace Operator

/-- The name of an operator. -/
def name : Operator → String
  | equals => "EQUALS"
  | nullSafeEquals => "NULL_SAFE_EQUALS"
  | lessThan => "LESS_THAN"
  | lessThanEquals => "LESS_THAN_EQUALS"
  | between => "BETWEEN"
  | isNull => "IS_NULL"
  | isIn => "IN"

/-- All operators, each once. -/
def all : List Operator :=
  [equals, nullSafeEquals, lessThan, lessThanEquals, between, isNull, isIn]

/-- The operator of a name. -/
def ofName? (name : String) : Option Operator := all.find? fun o => o.name == name

end Operator

/-! ### Tests -/

/-- An operator together with the literals it needs. -/
inductive Test where
  | equals (value : Literal)
  | nullSafeEquals (value : Literal)
  | lessThan (value : Literal)
  | lessThanEquals (value : Literal)
  | between (lower upper : Literal)
  | isNull
  | isIn (first : Literal) (rest : List Literal)
deriving DecidableEq

namespace Test

/-- The operator of a test. -/
def operator : Test → Operator
  | equals _ => .equals
  | nullSafeEquals _ => .nullSafeEquals
  | lessThan _ => .lessThan
  | lessThanEquals _ => .lessThanEquals
  | between _ _ => .between
  | isNull => .isNull
  | isIn _ _ => .isIn

/-- The literals of a test, in the order they were given. -/
def literals : Test → List Literal
  | equals v => [v]
  | nullSafeEquals v => [v]
  | lessThan v => [v]
  | lessThanEquals v => [v]
  | between lower upper => [lower, upper]
  | isNull => []
  | isIn first rest => first :: rest

/-- The test of an operator with these literals, if their number suits it. -/
def ofLiterals? : Operator → List Literal → Option Test
  | .equals, [v] => some (.equals v)
  | .nullSafeEquals, [v] => some (.nullSafeEquals v)
  | .lessThan, [v] => some (.lessThan v)
  | .lessThanEquals, [v] => some (.lessThanEquals v)
  | .between, [lower, upper] => some (.between lower upper)
  | .isNull, [] => some .isNull
  | .isIn, first :: rest => some (.isIn first rest)
  | _, _ => none

theorem ofLiterals?_eq_some_iff {op : Operator} {literals : List Literal} {t : Test} :
    ofLiterals? op literals = some t ↔ t.operator = op ∧ t.literals = literals := by
  constructor
  · intro h
    unfold ofLiterals? at h
    split at h <;> cases h <;> exact ⟨rfl, rfl⟩
  · rintro ⟨rfl, rfl⟩
    cases t <;> rfl

end Test

/-! ### Predicates -/

/-- A test of one column, with literals of the declared kind. -/
structure Predicate where
  column : ColumnRef
  kind : Kind
  test : Test
  literal_kinds : ∀ v ∈ test.literals, v.kind = kind
deriving DecidableEq

namespace Predicate

/-- The operator of a predicate. -/
def operator (p : Predicate) : Operator := p.test.operator

/-- The literals of a predicate. -/
def literals (p : Predicate) : List Literal := p.test.literals

/-- Whether two predicates are written alike: literals are compared by `Literal.same`. -/
def same (p q : Predicate) : Bool :=
  p.column == q.column && p.kind == q.kind && p.operator == q.operator
    && p.literals.length == q.literals.length
    && (p.literals.zip q.literals).all fun (a, b) => a.same b

/-- Operator, column and literals in brackets. -/
def text (p : Predicate) : String :=
  "(" ++ " ".intercalate (p.operator.name :: p.column.text :: p.literals.map Literal.text) ++ ")"

end Predicate

end StripeScan
