import StripeScan.Logic.Formula
import StripeScan.SearchArgument.Error

/-! # Search arguments

A search argument is a formula over numbered atoms together with the predicates the numbers
stand for.

`ofCalls` builds one from a sequence of calls that open and close groups and add predicates, as
a stack machine.  The first call that breaks a rule decides the error; later calls do not
matter.  Predicates that are written alike share one number.  Several conditions at the top
level are joined by a conjunction, and the formula is flattened. -/

namespace StripeScan

/-- Numbered predicates and a formula over their numbers. -/
structure SearchArgument where
  predicates : List Predicate
  formula : Formula Nat

namespace SearchArgument

/-- The truth over a partition, from the truth of each predicate there; numbers without a truth
value may be anything. -/
def truth (s : SearchArgument) (values : List Truth) : Truth :=
  s.formula.truth fun i => values.getD i .yesNoNull

/-- All predicates with their numbers, then the formula. -/
def text (s : SearchArgument) : String :=
  let leaves := s.predicates.mapIdx fun i p => s!"leaf-{i} = {p.text}, "
  String.join leaves ++ "expr = " ++ s.formula.text

/-! ### Building -/

/-- One step of spelling a search argument. -/
inductive Call where
  | start (connective : Connective)
  | finish
  | test (column : ColumnRef) (operator : Operator) (kind : Kind) (literals : List Literal)
deriving DecidableEq

/-- A group that has been opened and not yet closed. -/
structure Group where
  connective : Connective
  parts : List (Formula Nat)

/-- The state of building: the predicates so far, the open groups from the innermost outwards,
and the conditions at the top level. -/
structure Builder where
  predicates : List Predicate
  groups : List Group
  top : List (Formula Nat)

namespace Builder

/-- Nothing built yet. -/
def empty : Builder := ⟨[], [], []⟩

/-- Adds a part to the innermost open group, or to the top level. -/
def add (b : Builder) (part : Formula Nat) : Builder :=
  match b.groups with
  | [] => { b with top := b.top ++ [part] }
  | g :: rest => { b with groups := { g with parts := g.parts ++ [part] } :: rest }

/-- The formula of a group that is being closed. -/
def close (g : Group) : Except Malformed (Formula Nat) :=
  match g.connective, g.parts with
  | connective, [] => .error (.emptyGroup connective)
  | .and, parts => .ok (.and parts)
  | .or, parts => .ok (.or parts)
  | .not, [part] => .ok (.not part)
  | .not, parts => .error (.negatedParts parts.length)

/-- The number of a predicate: that of the first one written alike, else a new one. -/
def number (b : Builder) (p : Predicate) : Nat × List Predicate :=
  match b.predicates.findIdx? (·.same p) with
  | some i => (i, b.predicates)
  | none => (b.predicates.length, b.predicates ++ [p])

/-- Executes one call. -/
def step (b : Builder) : Call → Except Malformed Builder
  | .start connective => .ok { b with groups := ⟨connective, []⟩ :: b.groups }
  | .finish =>
    match b.groups with
    | [] => .error .unmatchedEnd
    | g :: rest => (close g).map fun part => add { b with groups := rest } part
  | .test column operator kind literals =>
    (Predicate.ofParts column operator kind literals).map fun p =>
      let (i, predicates) := b.number p
      add { b with predicates := predicates } (.atom i)

/-- The search argument once all calls are made. -/
def build (b : Builder) : Except Malformed SearchArgument :=
  match b.groups, b.top with
  | _ :: _, _ => .error (.openGroups b.groups.length)
  | [], [] => .error .empty
  | [], [part] => .ok ⟨b.predicates, part.flatten⟩
  | [], parts => .ok ⟨b.predicates, (Formula.and parts).flatten⟩

end Builder

/-- The search argument that the calls spell. -/
def ofCalls (calls : List Call) : Except Malformed SearchArgument := do
  let b ← calls.foldlM Builder.step Builder.empty
  b.build

end SearchArgument

end StripeScan
