import StripeScan.MemoryFile.Basic
import StripeScan.SearchArgument.Rows

/-! # Matching rows of a file in memory

The rows that a search argument is true of, found by reading every row. -/

namespace StripeScan.MemoryFile

/-- Whether a row of the file matches. -/
def rowMatches (f : MemoryFile) (b : BoundSearchArgument) (row : Nat) :
    Except Incomparable Bool :=
  (b.verdict fun column => f.value column row).map (· == some true)

/-- The rows of the file that match, in ascending order. -/
def matchingRows (f : MemoryFile) (argument : SearchArgument) :
    Except SearchArgumentError (List Nat) := do
  let b ← argument.bind f.schema
  ((List.range f.totalRows).filterM (f.rowMatches b)).mapError .incomparable

end StripeScan.MemoryFile
