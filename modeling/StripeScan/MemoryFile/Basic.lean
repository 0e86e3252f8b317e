import StripeScan.Scan.Layout
import StripeScan.Scan.Source

/-! # Files in memory

A file whose stripes are batches, with statistics derived from their rows.

`build` derives the statistics of every row group, merges them into those of the stripe and
these into those of the file, so that statistics of coarser levels cover the finer ones.
Afterwards single statistics can be replaced or removed, and a stripe can be made to report
another number of indexed row groups.

The medium of the file counts how often rows were read. -/

namespace StripeScan

/-- A stripe with its statistics: per column, and per row group and column. -/
structure MemoryStripe where
  rows : Batch
  statistics : List (Option Statistics)
  groups : List (List (Option Statistics))

/-- A file in memory. -/
structure MemoryFile where
  schema : Schema
  stride : Nat
  stripes : List MemoryStripe
  statistics : List (Option Statistics)
  /-- Reported numbers of indexed row groups, by stripe; the latest first. -/
  groupCounts : List (Nat × Nat)
  failsRows : Bool
  failsStatistics : Bool

namespace MemoryFile

/-- The number of rows. -/
def totalRows (f : MemoryFile) : Nat := totalOf (f.stripes.map (·.rows.rows))

/-- The value of a column at a row of some stripes. -/
def valueIn (column : Nat) : List MemoryStripe → Nat → Option Literal
  | [], _ => none
  | s :: rest, row =>
    if row < s.rows.rows then (s.rows.columns[column]?).bind (·.literalAt? row)
    else valueIn column rest (row - s.rows.rows)

/-- The value of a column at a row; nothing for nulls and outside the file. -/
def value (f : MemoryFile) (column row : Nat) : Option Literal := valueIn column f.stripes row

/-! ### As a source -/

/-- A stripe, or the error that it does not exist. -/
def stripe (f : MemoryFile) (index : Nat) : Except ScanError MemoryStripe :=
  match f.stripes[index]? with
  | some s => .ok s
  | none => .error (.access (.noStripe index))

/-- Fails if the file is set to fail on statistics. -/
def checkStatistics (f : MemoryFile) : Except ScanError Unit :=
  if f.failsStatistics then .error (.access .statisticsUnavailable) else .ok ()

/-- The number of rows of a stripe. -/
def stripeRows (f : MemoryFile) (stripe : Nat) : Except ScanError Nat := do
  return (← f.stripe stripe).rows.rows

/-- The statistics of a column over the file. -/
def fileStatistics (f : MemoryFile) (column : Nat) : Except ScanError (Option Statistics) := do
  f.checkStatistics
  return (f.statistics[column]?).join

/-- The statistics of a column over a stripe. -/
def stripeStatistics (f : MemoryFile) (stripe column : Nat) :
    Except ScanError (Option Statistics) := do
  f.checkStatistics
  return ((← f.stripe stripe).statistics[column]?).join

/-- How many row groups of a stripe have statistics. -/
def groupCount (f : MemoryFile) (stripe : Nat) : Except ScanError Nat :=
  match f.groupCounts.lookup stripe with
  | some count => .ok count
  | none => do return (← f.stripe stripe).groups.length

/-- The statistics of a column over a row group. -/
def groupStatistics (f : MemoryFile) (stripe group column : Nat) :
    Except ScanError (Option Statistics) := do
  f.checkStatistics
  return (((← f.stripe stripe).groups[group]?).bind (·[column]?)).join

/-- Some rows of a row group.  The number of readings is counted unless the file is set to fail
on them. -/
def rows (f : MemoryFile) (stripe group offset count : Nat) : Access Nat Batch :=
  if f.failsRows then .fail (.access .readFailure)
  else do
    .modify (· + 1)
    .ofExcept do (← f.stripe stripe).rows.slice (Word.add (Word.mul group f.stride) offset) count

/-- The file as a source; its medium is the number of readings. -/
def source (f : MemoryFile) : Source Nat where
  schema := f.schema
  stride := f.stride
  stripeCount := f.stripes.length
  stripeRows stripe := .ofExcept (f.stripeRows stripe)
  fileStatistics column := .ofExcept (f.fileStatistics column)
  stripeStatistics stripe column := .ofExcept (f.stripeStatistics stripe column)
  groupCount stripe := .ofExcept (f.groupCount stripe)
  groupStatistics stripe group column := .ofExcept (f.groupStatistics stripe group column)
  rows := f.rows

end MemoryFile

end StripeScan
