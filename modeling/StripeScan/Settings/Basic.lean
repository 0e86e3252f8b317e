import StripeScan.Settings.Toml.Document
import StripeScan.Text.Utf8

/-! # Settings of scans

How many rows a batch has and which levels of statistics are consulted, unless a scan says
otherwise.  Settings are put together from three places, each overriding the ones before it:

1. the standard settings;
2. a TOML document, if one is given;
3. the environment, where `READER_SCAN__BATCH_SIZE` stands for `scan.batch_size`.

An environment value is a truth value, a number or a text, whichever it can be read as first.
Unknown settings are ignored. -/

namespace StripeScan

/-- The settings of scans. -/
structure ScanSettings where
  batchSize : Nat
  filePruning : Bool
  stripePruning : Bool
  rowGroupPruning : Bool
deriving DecidableEq, Repr

/-- Why settings could not be loaded. -/
inductive SettingsError where
  | fileNotFound (path : String)
  /-- The path is not text; undecodable bytes are replaced. -/
  | pathNotText (path : String)
  /-- The document breaks the rules of its format. -/
  | malformed
  /-- A value cannot be read as what it should be. -/
  | mistyped
  | zeroBatchSize
deriving DecidableEq, Repr

/-- The message of an error. -/
def SettingsError.message : SettingsError → String
  | fileNotFound path => "Configuration file not found: " ++ path
  | pathNotText path => "Configuration path is not valid UTF-8: " ++ path
  | malformed => "Failed to build configuration"
  | mistyped => "Failed to deserialize configuration"
  | zeroBatchSize => "scan batch_size must be greater than zero"

namespace ScanSettings

/-- 1024 rows at a time, with statistics consulted on every level. -/
def standard : ScanSettings := ⟨1024, true, true, true⟩

/-- Settings must let a batch hold a row. -/
def validate (s : ScanSettings) : Except SettingsError ScanSettings :=
  if s.batchSize = 0 then .error .zeroBatchSize else .ok s

/-! ### Places -/

/-- The standard settings as values. -/
def standardValues : Setting :=
  .table [("scan", .table
    [("batch_size", .integer 1024), ("file_pruning", .boolean true),
      ("stripe_pruning", .boolean true), ("row_group_pruning", .boolean true)])]

/-- The value of an environment variable. -/
def environmentValue (text : String) : Setting :=
  if Setting.lower text = "true" then .boolean true
  else if Setting.lower text = "false" then .boolean false
  else
    match (readInteger? text.toList).filter Setting.fits with
    | some i => .integer i
    | none =>
      match Binary64.read? text.toList with
      | some x => .float x
      | none => .text text

/-- A list without a beginning, if it has that beginning. -/
def dropBeginning? : List Char → List Char → Option (List Char)
  | [], chars => some chars
  | b :: beginning, c :: chars => if b = c then dropBeginning? beginning chars else none
  | _ :: _, [] => none

/-- Puts a point for each pair of underscores, from left to right. -/
def pointed : List Char → List Char
  | '_' :: '_' :: rest => '.' :: pointed rest
  | c :: rest => c :: pointed rest
  | [] => []

/-- The name of the setting that an environment variable is for, if it is for one. -/
def environmentName? (variable_ : String) : Option String :=
  (dropBeginning? "reader_".toList (Setting.lower variable_).toList).map fun rest =>
    String.ofList (pointed rest)

/-- The settings of an environment. -/
def environmentValues (environment : List (String × String)) : List (String × Setting) :=
  environment.filterMap fun (variable_, text) =>
    (environmentName? variable_).map fun name => (name, environmentValue text)

/-! ### Reading -/

/-- The error for a value that is there and cannot be read. -/
def readWith {α : Type} (read? : Setting → Option α) (standard : α) :
    Option Setting → Except SettingsError α
  | none => .ok standard
  | some value =>
    match read? value with
    | some a => .ok a
    | none => .error .mistyped

/-- Settings from the values of the four fields; a missing value is the standard one. -/
def ofFields (batchSize file stripe rowGroup : Option Setting) :
    Except SettingsError ScanSettings := do
  return {
    batchSize := ← readWith Setting.toCount? standard.batchSize batchSize
    filePruning := ← readWith Setting.toFlag? standard.filePruning file
    stripePruning := ← readWith Setting.toFlag? standard.stripePruning stripe
    rowGroupPruning := ← readWith Setting.toFlag? standard.rowGroupPruning rowGroup }

/-- Settings from the value of `scan`: a table, or a list with the fields in order. -/
def ofSetting : Setting → Except SettingsError ScanSettings
  | .table entries =>
    ofFields (entries.lookup "batch_size") (entries.lookup "file_pruning")
      (entries.lookup "stripe_pruning") (entries.lookup "row_group_pruning")
  | .list items => ofFields items[0]? items[1]? items[2]? items[3]?
  | _ => .error .mistyped

/-- Settings from all values together. -/
def ofValues (values : Setting) : Except SettingsError ScanSettings :=
  match values.get? "scan" with
  | none => .ok standard
  | some scan => ofSetting scan

/-- Settings from a document and an environment. -/
def load (document : Option String) (environment : List (String × String)) :
    Except SettingsError ScanSettings := do
  let fromDocument ← match document with
    | none => pure []
    | some text =>
      match Toml.read? text with
      | some values => pure values
      | none => .error .malformed
  let values := (standardValues.overlay fromDocument).overlay (environmentValues environment)
  (← ofValues values).validate

/-- The error for a path, given by its bytes, where there is no file. -/
def missingFile (path : List Nat) : SettingsError :=
  match Utf8.decode? path with
  | some text => .fileNotFound text
  | none => .pathNotText (Utf8.decodeLossy path)

end ScanSettings

end StripeScan
