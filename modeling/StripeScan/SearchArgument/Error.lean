import StripeScan.Predicate.Basic

/-! # What can go wrong with a search argument

A search argument is malformed, names a column the schema lacks, or meets a value of another
kind.  Each error keeps its cause; `message` words it. -/

namespace StripeScan

/-- The connectives that group conditions. -/
inductive Connective where
  | and
  | or
  | not
deriving DecidableEq, Repr

/-- The name of a connective in messages. -/
def Connective.name : Connective → String
  | and => "And"
  | or => "Or"
  | not => "Not"

/-- Why a search argument is malformed. -/
inductive Malformed where
  /-- The operator does not take that many literals. -/
  | arity (operator : Operator) (count : Nat)
  /-- A literal is not of the declared kind. -/
  | literalKind (literal : Literal) (declared : Kind) (column : ColumnRef)
  /-- A group was closed that had never been opened. -/
  | unmatchedEnd
  /-- A group was closed without any part. -/
  | emptyGroup (connective : Connective)
  /-- A negation was closed over several parts. -/
  | negatedParts (count : Nat)
  /-- Groups were left open. -/
  | openGroups (count : Nat)
  /-- There is no condition at all. -/
  | empty
  /-- The declared kind is not the kind of the column. -/
  | columnKind (predicate : Predicate) (actual : Kind)
deriving DecidableEq

/-- The wording of a cause. -/
def Malformed.message : Malformed → String
  | arity operator count => s!"{operator.name} does not accept {count} literal(s)"
  | literalKind literal declared column =>
    s!"{literal.kind.name} literal {literal.text} used with declared type {declared.name}"
      ++ s!" on column {column.text}"
  | unmatchedEnd => "end() called without a matching start"
  | emptyGroup connective => s!"empty {connective.name} frame"
  | negatedParts count => s!"NOT takes exactly one child, got {count}"
  | openGroups count => s!"{count} frame(s) left open"
  | empty => "search argument is empty"
  | columnKind predicate actual =>
    s!"leaf {predicate.text} declares {predicate.kind.name}"
      ++ s!" but column {predicate.column.text} is {actual.name}"

/-- An error of building, binding or evaluating a search argument. -/
inductive SearchArgumentError where
  | malformed (cause : Malformed)
  | unresolvedColumn (column : ColumnRef)
  | incomparable (cause : Incomparable)
deriving DecidableEq

/-- The message of an error. -/
def SearchArgumentError.message : SearchArgumentError → String
  | malformed cause => "Malformed expression: " ++ cause.message
  | unresolvedColumn column => "Unresolved column: " ++ column.text
  | incomparable cause => cause.message

/-! ### Checked predicates -/

/-- The predicate with these parts: first the number of literals is checked, then their kinds
from left to right. -/
def Predicate.ofParts (column : ColumnRef) (operator : Operator) (kind : Kind)
    (literals : List Literal) : Except Malformed Predicate :=
  match Test.ofLiterals? operator literals with
  | none => .error (.arity operator literals.length)
  | some test =>
    match h : test.literals.find? fun v => v.kind != kind with
    | some bad => .error (.literalKind bad kind column)
    | none => .ok ⟨column, kind, test, by simpa using h⟩

end StripeScan
