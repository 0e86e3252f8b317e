/-! # Kinds of values

A column, a literal and a predicate each have one of seven kinds.  Values of different kinds
are never comparable. -/

namespace StripeScan

/-- The seven kinds of values a scan can filter on. -/
inductive Kind where
  | long
  | float
  | string
  | date
  | decimal
  | timestamp
  | boolean
deriving DecidableEq, Repr, Inhabited

namespace Kind

/-- The name of a kind in messages. -/
def name : Kind → String
  | long => "LONG"
  | float => "FLOAT"
  | string => "STRING"
  | date => "DATE"
  | decimal => "DECIMAL"
  | timestamp => "TIMESTAMP"
  | boolean => "BOOLEAN"

/-- All kinds, each once. -/
def all : List Kind := [long, float, string, date, decimal, timestamp, boolean]

/-- The kind of a name; names are case sensitive. -/
def ofName? (name : String) : Option Kind := all.find? fun k => k.name == name

end Kind

end StripeScan
