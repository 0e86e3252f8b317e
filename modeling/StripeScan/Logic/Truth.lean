/-! # Truth of a condition over a partition

A partition's statistics rarely decide a condition for every row.  A truth value says which
outcomes may occur among the rows:

* `yes` and `no`: the condition is true (false) of every row;
* `yesNo`: it may be true of some rows and false of others;
* the three `…Null` values: as before, and it may be unknown for some rows because of nulls.

`and` and `or` combine the values of two conditions over the same partition, and are each
other's dual under `not`.  A partition is needed unless no row can satisfy the condition. -/

namespace StripeScan

/-- The outcomes a condition may have over the rows of a partition. -/
inductive Truth where
  | yes
  | no
  | yesNo
  | yesNull
  | noNull
  | yesNoNull
deriving DecidableEq, Repr, Inhabited

namespace Truth

/-- The name of a truth value in answers. -/
def name : Truth → String
  | yes => "YES"
  | no => "NO"
  | yesNo => "YES_NO"
  | yesNull => "YES_NULL"
  | noNull => "NO_NULL"
  | yesNoNull => "YES_NO_NULL"

/-- All truth values, each once. -/
def all : List Truth := [yes, no, yesNo, yesNull, noNull, yesNoNull]

/-- The truth value of a name. -/
def ofName? (name : String) : Option Truth := all.find? fun t => t.name == name

/-- Conjunction: `no` decides it, then `noNull`; `yes` leaves the other side. -/
def and (a b : Truth) : Truth :=
  if a = no ∨ b = no then no
  else if a = noNull ∨ b = noNull then noNull
  else if a = yes then b
  else if b = yes then a
  else if a = b then a
  else yesNoNull

/-- Disjunction: `yes` decides it, then `yesNull`; `no` leaves the other side. -/
def or (a b : Truth) : Truth :=
  if a = yes ∨ b = yes then yes
  else if a = yesNull ∨ b = yesNull then yesNull
  else if a = no then b
  else if b = no then a
  else if a = b then a
  else yesNoNull

/-- Negation exchanges the outcomes true and false. -/
def not : Truth → Truth
  | yes => no
  | no => yes
  | yesNo => yesNo
  | yesNull => noNull
  | noNull => yesNull
  | yesNoNull => yesNoNull

/-- Whether some row may satisfy the condition. -/
def isNeeded (t : Truth) : Bool := t != no && t != noNull

/-- The truth of a comparison once it is known whether the partition holds nulls. -/
def withNulls (t : Truth) (hasNull : Bool) : Truth :=
  match t, hasNull with
  | yes, true => yesNull
  | no, true => noNull
  | yesNo, true => yesNoNull
  | t, _ => t

theorem not_not (t : Truth) : t.not.not = t := by cases t <;> rfl

theorem not_and (a b : Truth) : (a.and b).not = a.not.or b.not := by
  cases a <;> cases b <;> rfl

theorem not_or (a b : Truth) : (a.or b).not = a.not.and b.not := by
  cases a <;> cases b <;> rfl

theorem and_comm (a b : Truth) : a.and b = b.and a := by
  cases a <;> cases b <;> rfl

theorem and_assoc (a b c : Truth) : (a.and b).and c = a.and (b.and c) := by
  cases a <;> cases b <;> cases c <;> rfl

theorem or_comm (a b : Truth) : a.or b = b.or a := by
  cases a <;> cases b <;> rfl

theorem or_assoc (a b c : Truth) : (a.or b).or c = a.or (b.or c) := by
  cases a <;> cases b <;> cases c <;> rfl

end Truth

end StripeScan
