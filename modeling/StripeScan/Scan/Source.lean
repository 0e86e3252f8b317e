import StripeScan.Access
import StripeScan.Batch

/-! # Sources of stripes

A source knows its schema, its stride and how many stripes it has; everything else has to be
read.  Statistics exist on three levels (file, stripe, row group) and may be unavailable on
each.  Rows are read from one row group at a time.

`recording` keeps a list of all requests, `failing` refuses chosen ones and `altering` changes
the rows that are delivered. -/

namespace StripeScan

/-- A file of stripes on a medium with state `σ`. -/
structure Source (σ : Type) where
  schema : Schema
  stride : Nat
  stripeCount : Nat
  /-- The number of rows of a stripe. -/
  stripeRows (stripe : Nat) : Access σ Nat
  /-- The statistics of a column over the file. -/
  fileStatistics (column : Nat) : Access σ (Option Statistics)
  /-- The statistics of a column over a stripe. -/
  stripeStatistics (stripe column : Nat) : Access σ (Option Statistics)
  /-- How many row groups of a stripe have statistics. -/
  groupCount (stripe : Nat) : Access σ Nat
  /-- The statistics of a column over a row group. -/
  groupStatistics (stripe group column : Nat) : Access σ (Option Statistics)
  /-- The rows `offset` to `offset + count` of a row group. -/
  rows (stripe group offset count : Nat) : Access σ Batch

/-- What can be asked of a source. -/
inductive Request where
  | stripeRows (stripe : Nat)
  | fileStatistics (column : Nat)
  | stripeStatistics (stripe column : Nat)
  | groupCount (stripe : Nat)
  | groupStatistics (stripe group column : Nat)
  | rows (stripe group offset count : Nat)
deriving DecidableEq, Repr

namespace Request

/-- The name of a kind of request. -/
def name : Request → String
  | stripeRows _ => "stripe_row_count"
  | fileStatistics _ => "file_statistics"
  | stripeStatistics _ _ => "stripe_statistics"
  | groupCount _ => "row_group_count"
  | groupStatistics _ _ _ => "row_group_statistics"
  | rows _ _ _ _ => "materialize"

/-- The part of the file that a request is about: its stripe, row group and column, as far as it
names them. -/
def place : Request → List Nat
  | stripeRows stripe => [stripe]
  | fileStatistics column => [column]
  | stripeStatistics stripe column => [stripe, column]
  | groupCount stripe => [stripe]
  | groupStatistics stripe group column => [stripe, group, column]
  | rows stripe group _ _ => [stripe, group]

/-- One line about a request; the layout of the file is not worth one. -/
def line? : Request → Option String
  | stripeRows _ => none
  | fileStatistics column => some s!"file {column}"
  | stripeStatistics stripe column => some s!"stripe {stripe} {column}"
  | groupCount stripe => some s!"groups {stripe}"
  | groupStatistics stripe group column => some s!"group {stripe} {group} {column}"
  | rows stripe group offset count => some s!"rows {stripe} {group} {offset} {count}"

end Request

namespace Source

variable {σ τ : Type}

/-- The source with something done before each request, for instance a refusal. -/
def before (act : Request → Access σ Unit) (s : Source σ) : Source σ where
  schema := s.schema
  stride := s.stride
  stripeCount := s.stripeCount
  stripeRows stripe := do act (.stripeRows stripe); s.stripeRows stripe
  fileStatistics column := do act (.fileStatistics column); s.fileStatistics column
  stripeStatistics stripe column := do
    act (.stripeStatistics stripe column)
    s.stripeStatistics stripe column
  groupCount stripe := do act (.groupCount stripe); s.groupCount stripe
  groupStatistics stripe group column := do
    act (.groupStatistics stripe group column)
    s.groupStatistics stripe group column
  rows stripe group offset count := do
    act (.rows stripe group offset count)
    s.rows stripe group offset count

/-- The source on a medium with a further part that it never touches. -/
def widen (s : Source σ) : Source (σ × τ) where
  schema := s.schema
  stride := s.stride
  stripeCount := s.stripeCount
  stripeRows stripe := (s.stripeRows stripe).onFirst
  fileStatistics column := (s.fileStatistics column).onFirst
  stripeStatistics stripe column := (s.stripeStatistics stripe column).onFirst
  groupCount stripe := (s.groupCount stripe).onFirst
  groupStatistics stripe group column := (s.groupStatistics stripe group column).onFirst
  rows stripe group offset count := (s.rows stripe group offset count).onFirst

/-- The source with a list of all requests, the latest last. -/
def recording (s : Source σ) : Source (σ × List Request) :=
  s.widen.before fun request => .modifySecond (· ++ [request])

/-- The source with some requests refused, each with a reason. -/
def failing (refusal : Request → Option String) (s : Source σ) : Source σ :=
  s.before fun request =>
    match refusal request with
    | some reason => .fail (.access (.refused reason))
    | none => pure ()

/-- The source with the rows of each row group changed on delivery. -/
def altering (change : (stripe group : Nat) → Batch → Except ScanError Batch) (s : Source σ) :
    Source σ :=
  { s with
    rows := fun stripe group offset count => do
      let batch ← s.rows stripe group offset count
      .ofExcept (change stripe group batch) }

end Source

end StripeScan
