import StripeScan.Value.Literal
import StripeScan.Text.Quoted

/-! # Types of columns

A column has one of seven types, one for each kind of value; decimals carry their precision and
scale and timestamps an optional time zone, which do not change the kind.  A schema received
from elsewhere may also name types that no column can have (`ForeignType`). -/

namespace StripeScan

/-- The type of a column. -/
inductive ColumnType where
  | long
  | float
  | string
  | boolean
  | decimal (precision : Nat) (scale : Int8)
  | date
  | timestamp (zone : Option String)
deriving DecidableEq, Repr

namespace ColumnType

/-- The kind of the values of a column. -/
def kind : ColumnType → Kind
  | long => .long
  | float => .float
  | string => .string
  | boolean => .boolean
  | decimal _ _ => .decimal
  | date => .date
  | timestamp _ => .timestamp

/-- What a cell of a column stores when it is not null: decimals their unscaled value, dates
their day number and timestamps their nanoseconds since the epoch. -/
abbrev Cell : ColumnType → Type
  | long => Int64
  | float => Binary64
  | string => String
  | boolean => Bool
  | decimal _ _ => Int128
  | date => Int32
  | timestamp _ => Int64

/-- The value stored in a cell; a day outside the calendar is no value. -/
def literal? : (type : ColumnType) → type.Cell → Option Literal
  | long, v => some (.long v)
  | float, v => some (.float v)
  | string, v => some (.string v)
  | boolean, v => some (.boolean v)
  | decimal _ scale, v => some (.decimal ⟨v, scale⟩)
  | date, v => (Date.ofDay? v.toInt).map .date
  | timestamp _, v => some (.timestamp (Timestamp.ofNanoseconds v))

/-- A stored value is of the kind of its column. -/
theorem kind_of_literal? {type : ColumnType} {cell : type.Cell} {v : Literal}
    (h : type.literal? cell = some v) : v.kind = type.kind := by
  cases type <;> simp only [literal?, Option.some.injEq, Option.map_eq_some_iff] at h
  case date => obtain ⟨d, _, rfl⟩ := h; rfl
  all_goals subst h; rfl

end ColumnType

/-- The text of an optional time zone. -/
def zoneText : Option String → String
  | none => "None"
  | some zone => "Some(" ++ Quoted.quote zone ++ ")"

/-- The text of a column type. -/
def ColumnType.text : ColumnType → String
  | long => "Int64"
  | float => "Float64"
  | string => "Utf8"
  | boolean => "Boolean"
  | decimal precision scale => s!"Decimal128({precision}, {scale.toInt})"
  | date => "Date32"
  | timestamp zone => s!"Timestamp(Nanosecond, {zoneText zone})"

/-- Units of time too coarse for a timestamp column. -/
inductive CoarseUnit where
  | second
  | millisecond
  | microsecond
deriving DecidableEq, Repr

/-- The text of a unit of time. -/
def CoarseUnit.text : CoarseUnit → String
  | second => "Second"
  | millisecond => "Millisecond"
  | microsecond => "Microsecond"

/-- Types that no column can have. -/
inductive ForeignType where
  | null
  | int8
  | int16
  | int32
  | uInt8
  | uInt64
  | float32
  | largeUtf8
  | binary
  | date64
  | timestamp (unit : CoarseUnit) (zone : Option String)
deriving DecidableEq, Repr

/-- The text of a foreign type. -/
def ForeignType.text : ForeignType → String
  | null => "Null"
  | int8 => "Int8"
  | int16 => "Int16"
  | int32 => "Int32"
  | uInt8 => "UInt8"
  | uInt64 => "UInt64"
  | float32 => "Float32"
  | largeUtf8 => "LargeUtf8"
  | binary => "Binary"
  | date64 => "Date64"
  | timestamp unit zone => s!"Timestamp({unit.text}, {zoneText zone})"

/-- A type named in a schema. -/
inductive DataType where
  | column (type : ColumnType)
  | foreign (type : ForeignType)
deriving DecidableEq, Repr

/-- The types that a plain name stands for. -/
def DataType.plain : List DataType :=
  [.column .long, .column .float, .column .string, .column .boolean, .column .date,
    .foreign .null, .foreign .int8, .foreign .int16, .foreign .int32, .foreign .uInt8,
    .foreign .uInt64, .foreign .float32, .foreign .largeUtf8, .foreign .binary, .foreign .date64]

/-- The text of a type named in a schema. -/
def DataType.text : DataType → String
  | column type => type.text
  | foreign type => type.text

/-- The type of a plain name. -/
def DataType.ofName? (name : String) : Option DataType := plain.find? fun t => t.text == name

end StripeScan
