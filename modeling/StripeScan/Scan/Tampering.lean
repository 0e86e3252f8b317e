import StripeScan.Scan.Source

/-! # Sources that deliver the wrong rows

For trying out what a scan does when a medium misbehaves: one row group loses its last row, or
rows come with other columns or under another schema. -/

namespace StripeScan

/-- What is wrong with delivered rows.  Row groups are named by stripe and group; other columns
and another schema concern all row groups unless one is named. -/
structure Tampering where
  shortGroup : Option (List Nat)
  columns : Option (List Nat)
  schema : Option Schema
  group : Option (List Nat)

namespace Tampering

/-- The rows as they are delivered. -/
def change (t : Tampering) (stripe group : Nat) (b : Batch) : Except ScanError Batch := do
  let b ← if t.shortGroup = some [stripe, group] then b.slice 0 (b.rows - 1) else pure b
  if t.group.all (· == [stripe, group]) then
    let b ← match t.columns with
      | some ordinals => b.project ordinals
      | none => pure b
    match t.schema with
    | some schema => Batch.ofColumns schema b.columns
    | none => return b
  else return b

end Tampering

/-- A source that fails as told, with its rows tampered with, and a list of all requests. -/
def Source.faulty {σ : Type} (s : Source σ) (t : Tampering) (refusal : Request → Option String) :
    Source (σ × List Request) :=
  ((s.altering t.change).failing refusal).recording

end StripeScan
