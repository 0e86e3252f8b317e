import StripeScan.Scan.Error
import StripeScan.Statistics.Basic
import StripeScan.Value.Binary64.Rounding

/-! # Columns

A column is a sequence of cells of one type, each possibly null.

`literalAt?` reads a cell as a literal.  A null reads as nothing, and so does a cell past the
end or a day outside the calendar; `nullCount` counts the nulls only.  Slicing past the end is
refused. -/

namespace StripeScan

/-- A typed sequence of cells; `none` is a null. -/
structure Column where
  type : ColumnType
  cells : Array (Option type.Cell)

namespace Column

/-- The kind of the values. -/
def kind (c : Column) : Kind := c.type.kind

/-- The number of cells. -/
def size (c : Column) : Nat := c.cells.size

/-- The number of nulls. -/
def nullCount (c : Column) : Nat := c.cells.countP Option.isNone

/-- A column without cells. -/
def empty (type : ColumnType) : Column := ⟨type, #[]⟩

/-- The value of a cell. -/
def literalAt? (c : Column) (index : Nat) : Option Literal :=
  (c.cells[index]?).join.bind c.type.literal?

/-- The column itself, if it is of the expected kind. -/
def expect (c : Column) (kind : Kind) : Except ScanError Column :=
  if c.kind = kind then .ok c else .error (.kindMismatch kind c.kind)

/-- The cells `offset` to `offset + length`, if there are so many. -/
def slice (c : Column) (offset length : Nat) : Except ScanError Column :=
  if offset + length ≤ c.size then .ok ⟨c.type, c.cells.extract offset (offset + length)⟩
  else .error .outOfBounds

/-- A column without its cells. -/
def clear (c : Column) : Column := empty c.type

/-- The cells of a column as cells of another type; none if the types differ. -/
def cellsAs (type : ColumnType) (c : Column) : Array (Option type.Cell) :=
  if h : c.type = type then h ▸ c.cells else #[]

@[simp] theorem cellsAs_self (c : Column) : cellsAs c.type c = c.cells := by
  simp [cellsAs]

/-- The cells of several columns one after the other.  All must be of one kind, and then of one
type. -/
def concat (parts : List Column) : Except ScanError Column :=
  match parts with
  | [] => .error (.invalidBatch .nothingToConcatenate)
  | first :: _ =>
    match parts.find? fun c => c.kind != first.kind with
    | some other => .error (.kindMismatch first.kind other.kind)
    | none =>
      if parts.any fun c => c.type != first.type then
        .error (.format (.unlikeTypes (parts.map Column.type)))
      else .ok ⟨first.type, parts.foldl (fun cells c => cells ++ cellsAs first.type c) #[]⟩

/-- The type of decimals with these numbers of digits, if there is one. -/
def decimalType (precision : Nat) (scale : Int8) : Except FormatFault ColumnType :=
  if precision = 0 then .error .zeroPrecision
  else if 38 < precision then .error (.precisionTooGreat precision)
  else if 38 < scale.toInt then .error (.scaleTooGreat scale.toInt)
  else if (precision : Int) < scale.toInt then .error (.scaleBeyondPrecision scale.toInt precision)
  else .ok (.decimal precision scale)

/-- A number, if it lies in a range. -/
def within (low high i : Int) : Option Int := if low ≤ i ∧ i ≤ high then some i else none

/-- The cell of an integer, if the type has room for it: floats hold the nearest double, strings
its digits and Booleans whether it is odd. -/
def cellOfInt? : (type : ColumnType) → Int → Option type.Cell
  | .long, i | .timestamp _, i =>
    (within (-0x8000000000000000) 0x7fffffffffffffff i).map Int64.ofInt
  | .date, i => (within (-0x80000000) 0x7fffffff i).map Int32.ofInt
  | .decimal _ _, i => Int128.ofInt? i
  | .float, i => some (Binary64.ofInt i)
  | .string, i => some (toString i)
  | .boolean, i => some (i % 2 == 1)

/-- The column of an arithmetic sequence, if the type has room for it.  Every `nullEvery`-th cell
is null; none is, if `nullEvery` is zero. -/
def linear? (type : ColumnType) (start step : Int) (count nullEvery : Nat) : Option Column := do
  let cells ← (List.range count).mapM fun i =>
    if nullEvery ≠ 0 ∧ i % nullEvery = nullEvery - 1 then some none
    else (cellOfInt? type (start + step * i)).map some
  return ⟨type, cells.toArray⟩

/-- The column without cells of a type named elsewhere. -/
def emptyOf : DataType → Except ScanError Column
  | .column type => .ok (empty type)
  | .foreign type => .error (.unsupportedType "" (.foreign type))

end Column

/-- The summary of the cells `offset` to `offset + length`; cells past the end count as
nulls. -/
def Statistics.ofColumn (c : Column) (offset length : Nat) : Except Incomparable Statistics :=
  Statistics.ofValues ((List.range' offset length).map c.literalAt?)

end StripeScan
