import StripeScan.Scan.Error

/-! # Schemas

A schema lists the fields of a table.  A field of any type can be named (`Field DataType`); a
`Schema` holds only fields that have a column type, so each of its fields has a kind.  The kinds are
kept beside the fields.  A name stands for the first field that carries it. -/

namespace StripeScan

/-- A named and typed place for a column. -/
structure Schema.Field (τ : Type) where
  name : String
  type : τ
  nullable : Bool
deriving DecidableEq

/-- The fields of a table, in order, and their kinds. -/
structure Schema where
  fields : List (Schema.Field ColumnType)
  kinds : List Kind
  kinds_eq : kinds = fields.map (·.type.kind)
deriving DecidableEq

namespace Schema

/-- The schema of some fields. -/
def ofTyped (fields : List (Field ColumnType)) : Schema :=
  ⟨fields, fields.map (·.type.kind), rfl⟩

/-- The kind of a named type, or the error that it has none. -/
def kindOf (column : String) : DataType → Except ScanError Kind
  | .column type => .ok type.kind
  | .foreign type => .error (.unsupportedType column (.foreign type))

/-- A field with a column type, or the error that its type is foreign. -/
def ofField (f : Field DataType) : Except ScanError (Field ColumnType) :=
  match f.type with
  | .column type => .ok ⟨f.name, type, f.nullable⟩
  | .foreign type => .error (.unsupportedType f.name (.foreign type))

/-- The schema of a list of fields; the first foreign type is refused. -/
def ofFields (fields : List (Field DataType)) : Except ScanError Schema :=
  (fields.mapM ofField).map ofTyped

/-- A field seen as a field of any type. -/
def toField (f : Field ColumnType) : Field DataType := ⟨f.name, .column f.type, f.nullable⟩

/-- The number of fields. -/
def size (s : Schema) : Nat := s.kinds.length

theorem size_eq (s : Schema) : s.size = s.fields.length := by
  rw [size, s.kinds_eq, List.length_map]

/-- The kind of a field. -/
def kind? (s : Schema) (ordinal : Nat) : Option Kind := s.kinds[ordinal]?

theorem kind?_eq (s : Schema) (ordinal : Nat) :
    s.kind? ordinal = (s.fields[ordinal]?).map (·.type.kind) := by
  rw [kind?, s.kinds_eq, List.getElem?_map]

/-- The position of the first field of a name. -/
def indexOf? (s : Schema) (name : String) : Option Nat :=
  s.fields.findIdx? fun f => f.name == name

/-- The position a column reference stands for, with the kind of the field there. -/
def resolve (s : Schema) (column : ColumnRef) : Option (Nat × Kind) := do
  let ordinal ← match column with
    | .name name => s.indexOf? name
    | .ordinal i => some i
  let kind ← s.kind? ordinal
  return (ordinal, kind)

/-- The field at a position, or the error that there is none. -/
def fieldAt (s : Schema) (ordinal : Nat) : Except ScanError (Field ColumnType) :=
  match s.fields[ordinal]? with
  | some f => .ok f
  | none => .error (.format (.projection ordinal s.fields.length))

/-- The kind at a position, or the error that there is none. -/
def kindAt (s : Schema) (ordinal : Nat) : Except ScanError Kind :=
  match s.kind? ordinal with
  | some kind => .ok kind
  | none => .error (.missingColumn (.ordinal ordinal))

theorem kindAt_of_fieldAt {s : Schema} {ordinal : Nat} {f : Field ColumnType}
    (h : s.fieldAt ordinal = .ok f) : s.kindAt ordinal = .ok f.type.kind := by
  rw [kindAt, kind?_eq]
  unfold fieldAt at h
  split at h
  · rename_i hf
    cases h
    rw [hf]
    rfl
  · cases h

/-- Where all fields are found, so are their kinds. -/
theorem mapM_kindAt {s : Schema} {ordinals : List Nat} {fields : List (Field ColumnType)}
    (h : ordinals.mapM s.fieldAt = .ok fields) :
    ordinals.mapM s.kindAt = .ok (fields.map (·.type.kind)) := by
  induction ordinals generalizing fields with
  | nil =>
      cases h
      rfl
  | cons ordinal rest ih =>
      rw [List.mapM_cons] at h ⊢
      cases hf : s.fieldAt ordinal with
      | error e =>
          rw [hf] at h
          cases h
      | ok f =>
          cases hrest : rest.mapM s.fieldAt with
          | error e =>
              rw [hf, hrest] at h
              cases h
          | ok others =>
              rw [hf, hrest] at h
              cases h
              rw [kindAt_of_fieldAt hf, ih hrest]
              rfl

/-- The fields at the given positions, in the given order, with the kinds that are found there. -/
def project (s : Schema) (ordinals : List Nat) : Except ScanError Schema :=
  match hfields : ordinals.mapM s.fieldAt with
  | .error e => .error e
  | .ok fields =>
    match hkinds : ordinals.mapM s.kindAt with
    | .error e => .error e
    | .ok kinds => .ok ⟨fields, kinds, Except.ok.inj (hkinds.symm.trans (mapM_kindAt hfields))⟩

/-- The kinds of a projection are always found. -/
theorem project_eq (s : Schema) (ordinals : List Nat) :
    s.project ordinals = (ordinals.mapM s.fieldAt).map ofTyped := by
  unfold project
  split
  · rename_i e hfields
    rw [hfields]
    rfl
  · rename_i fields hfields
    have hmap : (ordinals.mapM s.fieldAt).map ofTyped = .ok (ofTyped fields) := by
      rw [hfields]
      rfl
    rw [hmap]
    split
    · rename_i e hkinds
      rw [mapM_kindAt hfields] at hkinds
      cases hkinds
    · rename_i kinds hkinds
      obtain rfl := Except.ok.inj (hkinds.symm.trans (mapM_kindAt hfields))
      rfl

/-- Checks that two lists of fields agree in number and, place by place, in name and type. -/
def matchFields (expected actual : List (Field DataType)) : Except BatchFault Unit :=
  if expected.length ≠ actual.length then .error (.fieldCount expected.length actual.length)
  else
    match (expected.zip actual).find? fun (e, a) => e.name != a.name || e.type != a.type with
    | some (e, a) => .error (.unlikeFields a.name a.type e.name e.type)
    | none => .ok ()

/-- Checks that the fields of a batch agree with those expected. -/
def check (expected actual : Schema) : Except ScanError Unit :=
  (matchFields (expected.fields.map toField) (actual.fields.map toField)).mapError .invalidBatch

end Schema

end StripeScan
