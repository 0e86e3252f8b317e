import StripeScan.MemoryFile.Build

/-! # Sample files

Two small files with known contents, in row groups of 1000 rows. -/

namespace StripeScan.MemoryFile

/-- The number of rows in a stripe of the samples. -/
def sampleStripeRows : Nat := 3500

/-- The number of rows in a row group of the samples. -/
def sampleStride : Nat := 1000

/-- Fields for 64-bit integers and for texts. -/
def intStringSchema : Schema := .ofTyped [⟨"int1", .long, true⟩, ⟨"string1", .string, true⟩]

/-- The multiples of `step` from `start` on, one for each row of a stripe. -/
def sampleColumn (type : ColumnType) (start step : Int) : Column :=
  (Column.linear? type start step sampleStripeRows 0).getD (Column.empty type)

/-- One stripe: row `i` holds the integer `300 * i` and the text of `10 * i`. -/
def intString : Except ScanError Spec := do
  let rows ← Batch.ofColumns intStringSchema [sampleColumn .long 0 300, sampleColumn .string 0 10]
  return .ofStripes intStringSchema sampleStride [rows]

/-- Two stripes: each row holds its own number. -/
def twoStripe : Except ScanError Spec := do
  let schema : Schema := .ofTyped [⟨"col1", .long, true⟩]
  let stripes ← [0, sampleStripeRows].mapM fun (first : Nat) =>
    Batch.ofColumns schema [sampleColumn .long first 1]
  return .ofStripes schema sampleStride stripes

end StripeScan.MemoryFile
