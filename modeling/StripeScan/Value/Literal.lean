import StripeScan.Value.Kind
import StripeScan.Value.Decimal
import StripeScan.Value.Binary64.Shortest
import StripeScan.Value.Timestamp

/-! # Literals

A literal is one non-null value of one of the seven kinds.

* `compare?` orders literals of the same kind.  It is undecided (`none`) when a float is no
  number, and fails on literals of different kinds.
* `same` is equality of what was written: decimals by unscaled value and scale, floats as
  numbers, so that both zeros are the same and what is no number is not even itself. -/

namespace StripeScan

/-- A value of a known kind. -/
inductive Literal where
  | long (value : Int64)
  | float (value : Binary64)
  | string (value : String)
  | boolean (value : Bool)
  | decimal (value : Decimal)
  | date (value : Date)
  | timestamp (value : Timestamp)
deriving DecidableEq

/-- Two literals whose kinds differ were compared. -/
structure Incomparable where
  left : Kind
  right : Kind
deriving DecidableEq, Repr

/-- The message of a failed comparison. -/
def Incomparable.message (e : Incomparable) : String :=
  s!"Cannot compare {e.left.name} literal with {e.right.name} literal"

namespace Literal

/-- The kind of a literal. -/
def kind : Literal → Kind
  | long _ => .long
  | float _ => .float
  | string _ => .string
  | boolean _ => .boolean
  | decimal _ => .decimal
  | date _ => .date
  | timestamp _ => .timestamp

/-- The text of a literal. -/
def text : Literal → String
  | long v => toString v.toInt
  | float v => v.text
  | string v => v
  | boolean v => if v then "true" else "false"
  | decimal v => v.text
  | date v => v.text
  | timestamp v => v.text

/-- Whether two literals are written alike. -/
def same : Literal → Literal → Bool
  | float a, float b => a.same b
  | a, b => a == b

/-- The order of two literals of the same kind; strings are ordered by code points. -/
def compare? : Literal → Literal → Except Incomparable (Option Ordering)
  | long a, long b => .ok (some (Ord.compare a.toInt b.toInt))
  | float a, float b => .ok (a.compare? b)
  | string a, string b => .ok (some (Ord.compare a b))
  | boolean a, boolean b => .ok (some (Ord.compare a b))
  | decimal a, decimal b => .ok (some (a.compare b))
  | date a, date b => .ok (some (Ord.compare a.day b.day))
  | timestamp a, timestamp b => .ok (some (a.compare b))
  | a, b => .error ⟨a.kind, b.kind⟩

/-- Whether the order of two literals is decided and is the given one. -/
def isOrder (order : Ordering) (a b : Literal) : Except Incomparable Bool :=
  (a.compare? b).map (· == some order)

/-- Literals compare without failing exactly when their kinds agree. -/
theorem isOk_compare?_iff {a b : Literal} :
    (∃ order, a.compare? b = .ok order) ↔ a.kind = b.kind := by
  cases a <;> cases b <;> simp [compare?, kind]

theorem compare?_of_kind_ne {a b : Literal} (h : a.kind ≠ b.kind) :
    a.compare? b = .error ⟨a.kind, b.kind⟩ := by
  cases a <;> cases b <;> simp_all [compare?, kind]

end Literal

end StripeScan
