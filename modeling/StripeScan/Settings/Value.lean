import StripeScan.Value.Binary64.Reading

/-! # Values of settings

Settings come from several places, each of which gives values to paths such as
`scan.batch_size`.  `Setting.assign` puts a value at a path.  A table put onto a table is merged
with it, key by key; everything else takes the place of what was there, and what stands in the
way of a path is replaced by a table (or a list, for a numbered step).

A value is read leniently: `toCount?` and `toFlag?` also take numbers, truth values and texts
for each other. -/

namespace StripeScan

/-- A value of settings. -/
inductive Setting where
  | absent
  | boolean (value : Bool)
  | integer (value : Int)
  | float (value : Binary64)
  | text (value : String)
  | list (items : List Setting)
  | table (entries : List (String × Setting))

namespace Setting

/-- The integers of settings have 64 bits. -/
def fits (i : Int) : Bool := -0x8000000000000000 ≤ i && i < 0x8000000000000000

/-- The entries of a table; none for anything else. -/
def entries : Setting → List (String × Setting)
  | table entries => entries
  | _ => []

/-- The items of a list; none for anything else. -/
def items : Setting → List Setting
  | list items => items
  | _ => []

/-- The value of a key. -/
def get? (s : Setting) (key : String) : Option Setting := s.entries.lookup key

/-- The entries with a new value for a key; a new key comes last. -/
def insert (key : String) (value : Setting) : List (String × Setting) → List (String × Setting)
  | [] => [(key, value)]
  | (k, v) :: rest => if k == key then (k, value) :: rest else (k, v) :: insert key value rest

mutual
/-- Puts a value onto another one. -/
def merge (old : Setting) : Setting → Setting
  | .table incoming =>
    match old with
    | .table entries => .table (mergeEntries entries incoming)
    | _ => .table incoming
  | new => new
/-- Puts entries onto those of a table. -/
def mergeEntries (entries : List (String × Setting)) :
    List (String × Setting) → List (String × Setting)
  | [] => entries
  | (key, value) :: rest =>
    mergeEntries (insert key (merge ((entries.lookup key).getD .absent) value) entries) rest
end

/-! ### Paths -/

/-- A step into a value: a key of a table or a place in a list, counted from the end if
negative. -/
inductive Step where
  | key (name : String)
  | place (index : Int)
deriving DecidableEq, Repr

/-- A list with room for a place, and where the place then is.  Places beyond the end are filled
up, and so are places before the start. -/
def room (items : List Setting) (index : Int) : List Setting × Nat :=
  if 0 ≤ index then
    (items ++ List.replicate (index.toNat + 1 - items.length) .absent, index.toNat)
  else if 0 ≤ items.length + index then (items, (items.length + index).toNat)
  else (List.replicate (-(items.length + index)).toNat .absent ++ items, 0)

/-- Puts a value at a path. -/
def assign : List Step → Setting → Setting → Setting
  | [], new, old => merge old new
  | .key name :: rest, new, old =>
    .table (insert name (assign rest new ((old.get? name).getD .absent)) old.entries)
  | .place index :: rest, new, old =>
    let (items, i) := room old.items index
    .list (items.set i (assign rest new (items[i]?.getD .absent)))

/-- Whether a character may stand in a key of a path. -/
def isKeyChar (c : Char) : Bool := c.isAlphanum || c == '_' || c == '-'

/-- The place between brackets: an integer of 64 bits, with blanks around it. -/
def readPlace? (chars : List Char) : Option Int :=
  let isBlank (c : Char) : Bool := c == ' ' || c == '\t'
  let inner := ((chars.dropWhile isBlank).reverse.dropWhile isBlank).reverse
  if inner.head? = some '+' then none else (readInteger? inner).filter fits

/-- The steps after the first key.  Each takes a character, so `limit` steps suffice if it is at
least the number of characters. -/
def readSteps : (limit : Nat) → List Char → Option (List Step)
  | _, [] => some []
  | 0, _ => none
  | limit + 1, '.' :: rest =>
    match rest.takeWhile isKeyChar with
    | [] => none
    | name => do
      let steps ← readSteps limit (rest.dropWhile isKeyChar)
      return .key (String.ofList name) :: steps
  | limit + 1, '[' :: rest =>
    match rest.dropWhile (· != ']') with
    | ']' :: after => do
      let index ← readPlace? (rest.takeWhile (· != ']'))
      let steps ← readSteps limit after
      return .place index :: steps
    | _ => none
  | _, _ => none

/-- The path that a name spells.  A name that spells no path is a key by itself. -/
def path (name : String) : List Step :=
  let chars := name.toList
  let steps := match chars.takeWhile isKeyChar with
    | [] => none
    | first =>
      (readSteps chars.length (chars.dropWhile isKeyChar)).map fun steps =>
        Step.key (String.ofList first) :: steps
  steps.getD [.key name]

/-- Puts the values of one place onto the settings so far; each name is read as a path. -/
def overlay (settings : Setting) (values : List (String × Setting)) : Setting :=
  values.foldl (fun s (name, value) => assign (path name) value s) settings

/-! ### Reading -/

/-- A text in lower case, as the words for truth values are compared. -/
def lower (s : String) : String := s.map Char.toLower

/-- Whether a text is a word for true or for false. -/
def wordToFlag? (s : String) : Option Bool :=
  if lower s ∈ ["true", "on", "yes"] then some true
  else if lower s ∈ ["false", "off", "no"] then some false
  else none

/-- A count below `2 ^ 64` in digits, with an optional plus sign. -/
def textToCount? (s : String) : Option Nat :=
  let digits := match s.toList with
    | '+' :: rest => rest
    | chars => chars
  if digits ≠ [] ∧ digits.all Char.isDigit ∧ digitsToNat digits < 0x10000000000000000 then
    some (digitsToNat digits)
  else none

/-- A value as a count. -/
def toCount? : Setting → Option Nat
  | boolean b => some (if b then 1 else 0)
  | integer i => if 0 ≤ i then some i.toNat else none
  | float x => some x.toCount
  | text s =>
    match wordToFlag? s with
    | some b => some (if b then 1 else 0)
    | none => textToCount? s
  | absent | list _ | table _ => none

/-- A value as a truth value. -/
def toFlag? : Setting → Option Bool
  | boolean b => some b
  | integer i => some (i != 0)
  | float x => some x.isNonzero
  | text s => if s = "1" then some true else if s = "0" then some false else wordToFlag? s
  | absent | list _ | table _ => none

end Setting

end StripeScan
