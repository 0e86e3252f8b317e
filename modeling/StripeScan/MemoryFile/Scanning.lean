import StripeScan.MemoryFile.Basic
import StripeScan.Scan.Basic

/-! # Scanning a file in memory

A whole scan in one call: the file is opened, a scan is started and drained into one batch.  The
medium is the number of readings, and starts at zero. -/

namespace StripeScan.MemoryFile

/-- Starts a scan of a freshly opened file. -/
def startScan (f : MemoryFile) (options : ScanOptions) : Access Nat (Source Nat × Scan) := do
  let reader ← Reader.open f.source
  return (reader.source, ← Scan.start reader.source options)

/-- Scans the file to the end in batches of at most `capacity` rows. -/
def scanAll (f : MemoryFile) (options : ScanOptions) (capacity : Nat) :
    Except ScanError (Scan.Drained Nat) := do
  let (started, readings) := (f.startScan options).run 0
  let (source, scan) ← started
  let batch ← scan.createBatch capacity
  let drained := scan.drain source batch readings
  match drained.failure with
  | some e => .error e
  | none => return drained

/-- The plan of a scan of the file with a search argument. -/
def plan (f : MemoryFile) (argument : BoundSearchArgument) (pruning : Pruning) :
    Except ScanError Plan :=
  ((Plan.build f.source (some argument) pruning).run (0, .zero)).1

end StripeScan.MemoryFile
