import StripeScan.Column.DataType
import StripeScan.SearchArgument.Error

/-! # Errors of scans

One error type for everything between a search argument and the rows it selects.  Each error
keeps its cause as data, and `ScanError.message` words it. -/

namespace StripeScan

/-- Where columns cannot be put together as the columnar format demands. -/
inductive FormatFault where
  /-- A projection names a field that does not exist. -/
  | projection (index fields : Nat)
  /-- Columns of these different types cannot be joined. -/
  | unlikeTypes (types : List ColumnType)
  /-- A record needs a column to have a number of rows. -/
  | noColumns
  /-- A field that forbids nulls has some. -/
  | unexpectedNull (field : String)
  /-- A column is not of the type of its field. -/
  | unlikeField (expected found : ColumnType) (index : Nat)
  /-- A decimal needs at least one digit. -/
  | zeroPrecision
  /-- A decimal has at most 38 digits. -/
  | precisionTooGreat (precision : Nat)
  /-- A decimal has at most 38 fraction digits. -/
  | scaleTooGreat (scale : Int)
  /-- A decimal has at most as many fraction digits as digits. -/
  | scaleBeyondPrecision (scale : Int) (precision : Nat)
deriving DecidableEq

/-- The distinct types of a list in order of appearance, at most ten of them. -/
def distinctTypesText (types : List ColumnType) : String :=
  let distinct := types.foldl (fun seen t => if t ∈ seen then seen else seen ++ [t]) []
  let shown := (distinct.take 10).map ColumnType.text
  ", ".intercalate (if distinct.length ≤ 10 then shown else shown ++ ["..."])

/-- The wording of a fault. -/
def FormatFault.message : FormatFault → String
  | projection index fields =>
    s!"Schema error: project index {index} out of bounds, max field {fields}"
  | unlikeTypes types =>
    "Invalid argument error: It is not possible to concatenate arrays of different data types ("
      ++ distinctTypesText types ++ ")."
  | noColumns =>
    "Invalid argument error: must either specify a row count or at least one column"
  | unexpectedNull field =>
    s!"Invalid argument error: Column '{field}' is declared as non-nullable"
      ++ " but contains null values"
  | unlikeField expected found index =>
    s!"Invalid argument error: column types must match schema types, expected {expected.text}"
      ++ s!" but found {found.text} at column index {index}"
  | zeroPrecision =>
    "Invalid argument error: precision cannot be 0, has to be between [1, 38]"
  | precisionTooGreat precision =>
    s!"Invalid argument error: precision {precision} is greater than max 38"
  | scaleTooGreat scale => s!"Invalid argument error: scale {scale} is greater than max 38"
  | scaleBeyondPrecision scale precision =>
    s!"Invalid argument error: scale {scale} is greater than precision {precision}"

/-- Why a source could not deliver what was asked for. -/
inductive AccessFault where
  /-- Statistics cannot be read. -/
  | statisticsUnavailable
  /-- The stripe does not exist. -/
  | noStripe (stripe : Nat)
  /-- Rows cannot be read. -/
  | readFailure
  /-- A row group delivered another number of rows than asked for. -/
  | shortRead (stripe group rows expected : Nat)
  /-- The medium refused the request, in its own words. -/
  | refused (reason : String)
deriving DecidableEq

/-- The wording of a fault. -/
def AccessFault.message : AccessFault → String
  | statisticsUnavailable => "statistics unavailable"
  | noStripe stripe => s!"no stripe {stripe}"
  | readFailure => "injected read failure"
  | shortRead stripe group rows expected =>
    s!"stripe {stripe} group {group} returned {rows} rows, expected {expected}"
  | refused reason => reason

/-- Why a batch of rows is unusable. -/
inductive BatchFault where
  | zeroCapacity
  | zeroBatchSize
  /-- The schema has another number of fields than there are columns. -/
  | columnCount (fields columns : Nat)
  /-- Two columns differ in length. -/
  | ragged (rows other : Nat)
  | tooManyRows (rows capacity : Nat)
  | sliceBounds (start stop rows : Nat)
  | nothingToConcatenate
  /-- Two schemas differ in their number of fields. -/
  | fieldCount (expected actual : Nat)
  /-- Two fields at the same position differ in name or type. -/
  | unlikeFields (actual : String) (actualType : DataType) (expected : String)
      (expectedType : DataType)
  | unknownStripe (stripe : Nat)
deriving DecidableEq

/-- The wording of a fault. -/
def BatchFault.message : BatchFault → String
  | zeroCapacity => "batch capacity must be greater than zero"
  | zeroBatchSize => "batch size must be greater than zero"
  | columnCount fields columns => s!"schema has {fields} columns, got {columns}"
  | ragged rows other => s!"ragged columns: {rows} rows vs {other} rows"
  | tooManyRows rows capacity => s!"{rows} rows exceed batch capacity {capacity}"
  | sliceBounds start stop rows => s!"slice {start}..{stop} out of bounds for {rows} rows"
  | nothingToConcatenate => "nothing to concatenate"
  | fieldCount expected actual => s!"expected {expected} columns, got {actual}"
  | unlikeFields actual actualType expected expectedType =>
    s!"column {actual} ({actualType.text}) does not match {expected} ({expectedType.text})"
  | unknownStripe stripe => s!"range references unknown stripe {stripe}"

/-- An error of a scan. -/
inductive ScanError where
  | argument (cause : SearchArgumentError)
  | format (fault : FormatFault)
  | seekBeyondEnd (target total : Nat)
  | access (fault : AccessFault)
  | kindMismatch (expected actual : Kind)
  | missingColumn (column : ColumnRef)
  | invalidBatch (fault : BatchFault)
  | unsupportedType (column : String) (type : DataType)
  /-- A column was asked for rows or a place it does not have. -/
  | outOfBounds
deriving DecidableEq

/-- The message of an error. -/
def ScanError.message : ScanError → String
  | argument cause => "Search argument error: " ++ cause.message
  | format fault => "Arrow error: " ++ fault.message
  | seekBeyondEnd target total =>
    s!"Seek to row {target} is beyond the total row count {total}"
  | access fault => "Data access error: " ++ fault.message
  | kindMismatch expected actual =>
    s!"Column kind mismatch: expected {expected.name}, got {actual.name}"
  | missingColumn column => "Missing column: " ++ column.text
  | invalidBatch fault => "Invalid batch: " ++ fault.message
  | unsupportedType column type => s!"Unsupported column type for {column}: {type.text}"
  | outOfBounds => "Column access out of bounds"

end StripeScan
