import StripeScan.Column.Basic
import StripeScan.Schema

/-! # Batches of rows

A batch holds one column per field of its schema, all of the same length, and says how many
rows it may hold.  It is made once for a scan and refilled for every step: `fillFrom` and
`clear` keep its schema and capacity.

`ofColumns` is the only way to put columns together: it checks their number, their kinds and
their lengths, in this order.  A column may still differ from its field in precision, scale or
time zone; only `toRecord` insists on equal types and on fields without nulls where nulls are
forbidden. -/

namespace StripeScan

/-- Columns of equal length with the schema they follow. -/
structure Batch where
  schema : Schema
  columns : List Column
  rows : Nat
  capacity : Nat

namespace Batch

/-- An empty batch that may hold `capacity` rows. -/
def withCapacity (schema : Schema) (capacity : Nat) : Except ScanError Batch :=
  if capacity = 0 then .error (.invalidBatch .zeroCapacity)
  else .ok ⟨schema, schema.fields.map fun f => Column.empty f.type, 0, capacity⟩

/-- The batch of some columns; it is full. -/
def ofColumns (schema : Schema) (columns : List Column) : Except ScanError Batch :=
  if columns.length ≠ schema.size then
    .error (.invalidBatch (.columnCount schema.size columns.length))
  else
    match (schema.kinds.zip columns).find? fun (kind, c) => kind != c.kind with
    | some (kind, c) => .error (.kindMismatch kind c.kind)
    | none =>
      let rows := (columns.head?.map Column.size).getD 0
      match columns.find? fun c => c.size != rows with
      | some c => .error (.invalidBatch (.ragged rows c.size))
      | none => .ok ⟨schema, columns, rows, max rows 1⟩

/-- The column at a position. -/
def columnAt (b : Batch) (ordinal : Nat) : Except ScanError Column :=
  match b.columns[ordinal]? with
  | some c => .ok c
  | none => .error (.missingColumn (.ordinal ordinal))

/-- The column of a name. -/
def column (b : Batch) (name : String) : Except ScanError Column :=
  match b.schema.indexOf? name with
  | some i => b.columnAt i
  | none => .error (.missingColumn (.name name))

/-- The batch without its rows. -/
def clear (b : Batch) : Batch := { b with columns := b.columns.map Column.clear, rows := 0 }

/-- The batch refilled with the rows of another, which must fit and follow the same fields. -/
def fillFrom (b other : Batch) : Except ScanError Batch :=
  if b.capacity < other.rows then .error (.invalidBatch (.tooManyRows other.rows b.capacity))
  else
    (b.schema.check other.schema).map fun _ =>
      { b with columns := other.columns, rows := other.rows }

/-- The rows `offset` to `offset + length`, if there are so many. -/
def slice (b : Batch) (offset length : Nat) : Except ScanError Batch :=
  if b.rows < offset + length then
    .error (.invalidBatch (.sliceBounds offset (offset + length) b.rows))
  else do
    let columns ← b.columns.mapM fun c => c.slice offset length
    return ⟨b.schema, columns, length, max length 1⟩

/-- The columns that several batches have at a position. -/
def columnsAt (batches : List Batch) (ordinal : Nat) : Except ScanError (List Column) :=
  batches.mapM fun b =>
    match b.columns[ordinal]? with
    | some c => Except.ok c
    | none => Except.error .outOfBounds

/-- The rows of several batches one after the other.  All must follow the fields of the first;
a single batch stays as it is. -/
def concat (batches : List Batch) : Except ScanError Batch :=
  match batches with
  | [] => .error (.invalidBatch .nothingToConcatenate)
  | [b] => .ok b
  | first :: rest => do
    rest.forM fun b => first.schema.check b.schema
    let columns ← (List.range first.columns.length).mapM fun i => do
      Column.concat (← columnsAt batches i)
    ofColumns first.schema columns

/-- The columns at the given positions, in the given order. -/
def project (b : Batch) (ordinals : List Nat) : Except ScanError Batch := do
  let schema ← b.schema.project ordinals
  let columns ← ordinals.mapM b.columnAt
  return ⟨schema, columns, b.rows, b.capacity⟩

/-! ### Records -/

/-- Columns that follow their fields to the letter, as other programs exchange them. -/
structure Record where
  fields : List (Schema.Field DataType)
  columns : List Column
  rows : Nat

/-- The first fault of a column as the column of its field: nulls come before types. -/
def recordFault? (fields : List (Schema.Field ColumnType)) (columns : List Column) :
    Option FormatFault :=
  let pairs := fields.zip columns
  match pairs.find? fun (f, c) => !f.nullable && 0 < c.nullCount with
  | some (f, _) => some (.unexpectedNull f.name)
  | none =>
    pairs.zipIdx.findSome? fun ((f, c), i) =>
      if f.type = c.type then none else some (.unlikeField f.type c.type i)

/-- The batch as a record. -/
def toRecord (b : Batch) : Except ScanError Record :=
  if b.columns.isEmpty then .error (.format .noColumns)
  else
    match recordFault? b.schema.fields b.columns with
    | some fault => .error (.format fault)
    | none => .ok ⟨b.schema.fields.map Schema.toField, b.columns, b.rows⟩

/-- The record without rows of some fields; its columns exist only where the type is a column
type. -/
def Record.ofFields (fields : List (Schema.Field DataType)) : Except ScanError Record :=
  if fields.isEmpty then .error (.format .noColumns)
  else
    .ok ⟨fields, fields.filterMap fun f =>
      match f.type with
      | .column type => some (Column.empty type)
      | .foreign _ => none, 0⟩

/-- The batch of a record. -/
def ofRecord (r : Record) : Except ScanError Batch := do
  let schema ← Schema.ofFields r.fields
  ofColumns schema r.columns

end Batch

end StripeScan
