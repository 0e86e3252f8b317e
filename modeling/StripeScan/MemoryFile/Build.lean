import StripeScan.MemoryFile.Basic

/-! # Building files in memory

`MemoryFile.build` turns a specification into a file: it derives the statistics of all levels
and then applies the replacements, file first, then stripes, then row groups.  A replacement for
something that does not exist is refused. -/

namespace StripeScan

/-- Why a file could not be built. -/
inductive BuildError where
  | scan (cause : ScanError)
  | incomparable (cause : Incomparable)
  | noColumn (column : Nat)
  | noStripe (stripe : Nat)
  | noGroup (stripe group : Nat)

/-- The message of an error. -/
def BuildError.message : BuildError → String
  | scan cause => cause.message
  | incomparable cause => cause.message
  | noColumn column => s!"no column {column}"
  | noStripe stripe => s!"no stripe {stripe}"
  | noGroup stripe group => s!"no row group {group} in stripe {stripe}"

/-- Statistics put in the place of the derived ones; `none` makes them unavailable. -/
structure Replacement (ι : Type) where
  place : ι
  column : Nat
  statistics : Option Statistics

/-- What a file is built from: the columns of each stripe, and what to replace. -/
structure MemoryFile.Spec where
  schema : Schema
  stride : Nat
  stripes : List Batch
  fileStatistics : List (Replacement Unit)
  stripeStatistics : List (Replacement Nat)
  groupStatistics : List (Replacement (Nat × Nat))
  /-- Reported numbers of indexed row groups, by stripe; a later entry counts. -/
  groupCounts : List (Nat × Nat)
  failsRows : Bool
  failsStatistics : Bool

namespace MemoryFile

/-- A file with the given stripes and nothing replaced. -/
def Spec.ofStripes (schema : Schema) (stride : Nat) (stripes : List Batch) : Spec :=
  ⟨schema, stride, stripes, [], [], [], [], false, false⟩

/-! ### Deriving -/

/-- The statistics of each column over some rows of a stripe. -/
def deriveColumns (rows : Batch) (start count : Nat) :
    Except Incomparable (List (Option Statistics)) :=
  rows.columns.mapM fun c => (Statistics.ofColumn c start count).map some

/-- Merges the statistics of two partitions column by column. -/
def mergeColumns (s t : List (Option Statistics)) :
    Except Incomparable (List (Option Statistics)) :=
  (s.zip t).mapM fun (a, b) => Statistics.mergeOptional a b

/-- Cuts the rows `start` to `total` into chunks of `length` rows, each as its start and its
number of rows; the last may be shorter.  No chunk is empty, so `limit` chunks suffice if it is at
least the number of rows. -/
def chunks (length total : Nat) : (limit start : Nat) → List (Nat × Nat)
  | 0, _ => []
  | limit + 1, start =>
    if total ≤ start then []
    else
      let count := min length (total - start)
      (start, count) :: chunks length total limit (start + count)

/-- The statistics of each row group of a stripe; a stride of zero makes it one group. -/
def deriveGroups (stride : Nat) (rows : Batch) :
    Except Incomparable (List (List (Option Statistics))) :=
  let length := if stride = 0 then rows.rows else stride
  (chunks length rows.rows rows.rows 0).mapM fun (start, count) => deriveColumns rows start count

/-- Nothing known of any column. -/
def unknownColumns (schema : Schema) : List (Option Statistics) :=
  List.replicate schema.size none

/-- A stripe with statistics derived from its rows. -/
def deriveStripe (schema : Schema) (stride : Nat) (rows : Batch) :
    Except Incomparable MemoryStripe := do
  let groups ← deriveGroups stride rows
  let statistics ← groups.foldlM mergeColumns (unknownColumns schema)
  return ⟨rows, statistics, groups⟩

/-- The stripes and the statistics of the file. -/
def deriveAll (schema : Schema) (stride : Nat) (stripes : List Batch) :
    Except Incomparable (List MemoryStripe × List (Option Statistics)) :=
  stripes.foldlM (fun (done, file) rows => do
    let stripe ← deriveStripe schema stride rows
    let file ← mergeColumns file stripe.statistics
    return (done ++ [stripe], file)) ([], unknownColumns schema)

/-! ### Replacing -/

/-- Replaces the statistics of one column. -/
def replaceColumn (columns : List (Option Statistics)) (column : Nat) (s : Option Statistics) :
    Except BuildError (List (Option Statistics)) :=
  if column < columns.length then .ok (columns.set column s) else .error (.noColumn column)

/-- Replaces statistics of the file. -/
def replaceInFile (f : MemoryFile) (r : Replacement Unit) : Except BuildError MemoryFile := do
  let statistics ← replaceColumn f.statistics r.column r.statistics
  return { f with statistics := statistics }

/-- Replaces statistics of a stripe. -/
def replaceInStripe (f : MemoryFile) (r : Replacement Nat) : Except BuildError MemoryFile :=
  match f.stripes[r.place]? with
  | none => .error (.noStripe r.place)
  | some stripe => do
    let statistics ← replaceColumn stripe.statistics r.column r.statistics
    return { f with stripes := f.stripes.set r.place { stripe with statistics := statistics } }

/-- Replaces statistics of a row group. -/
def replaceInGroup (f : MemoryFile) (r : Replacement (Nat × Nat)) :
    Except BuildError MemoryFile :=
  let (index, group) := r.place
  match f.stripes[index]? with
  | none => .error (.noGroup index group)
  | some stripe =>
    match stripe.groups[group]? with
    | none => .error (.noGroup index group)
    | some columns => do
      let columns ← replaceColumn columns r.column r.statistics
      let stripe := { stripe with groups := stripe.groups.set group columns }
      return { f with stripes := f.stripes.set index stripe }

/-- Builds the file of a specification. -/
def build (spec : Spec) : Except BuildError MemoryFile := do
  let (stripes, statistics) ←
    (deriveAll spec.schema spec.stride spec.stripes).mapError .incomparable
  let file : MemoryFile :=
    ⟨spec.schema, spec.stride, stripes, statistics, spec.groupCounts.reverse, spec.failsRows,
      spec.failsStatistics⟩
  let file ← spec.fileStatistics.foldlM replaceInFile file
  let file ← spec.stripeStatistics.foldlM replaceInStripe file
  spec.groupStatistics.foldlM replaceInGroup file

end MemoryFile

end StripeScan
