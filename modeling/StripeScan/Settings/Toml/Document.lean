import StripeScan.Settings.Toml.Scalar

/-! # TOML documents

A document is a sequence of lines: blank lines, headers of tables, and assignments to the table
of the last header.

While it is read, every table remembers how it came about (`Origin`), because that decides what
may still be added to it: a header opens a table once, but may open one that so far was only the
way to another; a dotted key may go through tables that no header has opened, and through the
last table of an array, and after it no header opens the tables it went through; an array or
table written as a value is closed.  Keys have at most `maxDepth` parts, and values are at most
`maxDepth` levels deep.  Whatever breaks a rule makes the whole document malformed. -/

namespace StripeScan.Toml

/-- How a table came about. -/
inductive Origin where
  /-- By its own header. -/
  | header
  /-- As the way to the table of a header. -/
  | way
  /-- By a dotted key, or else used by one. -/
  | dotted
deriving DecidableEq, Repr

/-- A value while the document is read. -/
inductive Node where
  | closed (value : Setting)
  | table (origin : Origin) (entries : List (String × Node))
  | tables (items : List (List (String × Node)))

/-- The entries of a table while the document is read. -/
abbrev Entries := List (String × Node)

/-- The entries with a node for a key; a new key comes last. -/
def put (key : String) (node : Node) : Entries → Entries
  | [] => [(key, node)]
  | (k, n) :: rest => if k == key then (k, node) :: rest else (k, n) :: put key node rest

/-- Changes the last item of a list. -/
def changeLast {α : Type} (change : α → Option α) : List α → Option (List α)
  | [] => none
  | [a] => (change a).map fun a => [a]
  | a :: rest => (changeLast change rest).map (a :: ·)

/-! ### Headers and assignments -/

/-- Changes the table at the end of a way of keys.  The way goes through tables and through the
last table of an array; missing tables are made. -/
def along (change : Entries → Option Entries) : List String → Entries → Option Entries
  | [], entries => change entries
  | key :: rest, entries =>
    match entries.lookup key with
    | none => (along change rest []).map fun sub => put key (.table .way sub) entries
    | some (.table origin sub) =>
      (along change rest sub).map fun sub => put key (.table origin sub) entries
    | some (.tables items) =>
      (changeLast (along change rest) items).map fun items => put key (.tables items) entries
    | some (.closed _) => none

/-- Opens a table by its header. -/
def openTable (key : String) (entries : Entries) : Option Entries :=
  match entries.lookup key with
  | none => some (put key (.table .header []) entries)
  | some (.table .way sub) => some (put key (.table .header sub) entries)
  | _ => none

/-- Adds a table to an array of tables. -/
def addTable (key : String) (entries : Entries) : Option Entries :=
  match entries.lookup key with
  | none => some (put key (.tables [[]]) entries)
  | some (.tables items) => some (put key (.tables (items ++ [[]])) entries)
  | _ => none

/-- Gives a value to a dotted key of a table.  The tables of an array have headers, so the key may
go through the last of them but not end there. -/
def assign (value : Setting) : List String → Entries → Option Entries
  | [], _ => none
  | [key], entries =>
    if (entries.lookup key).isNone then some (entries ++ [(key, .closed value)]) else none
  | key :: rest, entries =>
    match entries.lookup key with
    | none => (assign value rest []).map fun sub => put key (.table .dotted sub) entries
    | some (.table .header _) | some (.closed _) => none
    | some (.table _ sub) =>
      (assign value rest sub).map fun sub => put key (.table .dotted sub) entries
    | some (.tables items) =>
      if rest.length = 1 then none
      else
        (changeLast (assign value rest) items).map fun items => put key (.tables items) entries

mutual
/-- The value that a node has become. -/
def toSetting : Node → Setting
  | .closed value => value
  | .table _ entries => .table (toEntries entries)
  | .tables items => .list (toItems items)
/-- The entries that those of a table have become. -/
def toEntries : List (String × Node) → List (String × Setting)
  | [] => []
  | (key, node) :: rest => (key, toSetting node) :: toEntries rest
/-- The items that the tables of an array have become. -/
def toItems : List (List (String × Node)) → List Setting
  | [] => []
  | entries :: rest => .table (toEntries entries) :: toItems rest
end

/-! ### Reading -/

/-- How many parts a key may have, and how many levels a value. -/
def maxDepth : Nat := 80

/-- A text without the comment at its start, if there is one. -/
def skipComment? : List Char → Option (List Char)
  | '#' :: rest =>
    let isEnd (c : Char) : Bool := c == '\n' || c == '\r'
    if (rest.takeWhile (!isEnd ·)).all isPlain then some (rest.dropWhile (!isEnd ·)) else none
  | chars => some chars

/-- A text without blanks, comments and line ends at its start; `inComment` says whether it starts
within a comment. -/
def skipSpace? : (inComment : Bool) → List Char → Option (List Char)
  | _, [] => some []
  | _, '\n' :: rest => skipSpace? false rest
  | _, '\r' :: '\n' :: rest => skipSpace? false rest
  | true, c :: rest => if isPlain c then skipSpace? true rest else none
  | false, '#' :: rest => skipSpace? true rest
  | false, c :: rest => if c = ' ' ∨ c = '\t' then skipSpace? false rest else some (c :: rest)

/-- Whether a character may stand in a key without quotes. -/
def isBareKeyChar (c : Char) : Bool := c.isAlphanum || c == '_' || c == '-'

/-- A key at the start of a text; strings of several lines are no keys. -/
def simpleKey? (chars : List Char) : Option (String × List Char) :=
  match chars with
  | '"' :: rest =>
    (basicString? (rest.length + 1) rest).map fun (content, rest) =>
      (String.ofList content, rest)
  | '\x27' :: rest =>
    (literalString? rest).map fun (content, rest) => (String.ofList content, rest)
  | _ =>
    match chars.takeWhile isBareKeyChar with
    | [] => none
    | name => some (String.ofList name, chars.dropWhile isBareKeyChar)

/-- A dotted key of at most `limit` parts at the start of a text, with blanks around it and its
dots. -/
def key? : (limit : Nat) → List Char → Option (List String × List Char)
  | 0, _ => none
  | limit + 1, chars => do
    let (name, rest) ← simpleKey? (skipBlanks chars)
    match skipBlanks rest with
    | '.' :: rest => do
      let (names, rest) ← key? limit rest
      return (name :: names, rest)
    | rest => return ([name], rest)

/-- What reads a value at the start of a text. -/
abbrev Reader := List Char → Option (Setting × List Char)

/-- The items of an array, after its opening bracket; the last may have a comma after it.  Here
and below each round takes a character, so `limit` rounds suffice if it is more than the number of
characters. -/
def items? (value? : Reader) : (limit : Nat) → List Char → Option (List Setting × List Char)
  | 0, _ => none
  | limit + 1, chars => do
    match ← skipSpace? false chars with
    | ']' :: rest => return ([], rest)
    | chars => do
      let (item, rest) ← value? chars
      match ← skipSpace? false rest with
      | ',' :: rest => do
        let (items, rest) ← items? value? limit rest
        return (item :: items, rest)
      | ']' :: rest => return ([item], rest)
      | _ => none

/-- The members of a table in braces, after its opening brace and those read before; the last may
have a comma after it. -/
def members? (value? : Reader) :
    (limit : Nat) → Entries → List Char → Option (Entries × List Char)
  | 0, _, _ => none
  | limit + 1, entries, chars => do
    match ← skipSpace? false chars with
    | '}' :: rest => return (entries, rest)
    | chars => do
      let (key, rest) ← key? maxDepth chars
      match ← skipSpace? false rest with
      | '=' :: rest => do
        let (value, rest) ← value? (← skipSpace? false rest)
        let entries ← assign value key entries
        match ← skipSpace? false rest with
        | ',' :: rest => members? value? limit entries rest
        | '}' :: rest => return (entries, rest)
        | _ => none
      | _ => none

/-- A value of at most `depth` levels at the start of a text of less than `limit` characters. -/
def value? (limit : Nat) : (depth : Nat) → Reader
  | 0, '[' :: _ | 0, '{' :: _ => none
  | depth + 1, '[' :: rest =>
    (items? (value? limit depth) limit rest).map fun (items, rest) => (.list items, rest)
  | depth + 1, '{' :: rest =>
    (members? (value? limit depth) limit [] rest).map fun (entries, rest) =>
      (.table (toEntries entries), rest)
  | _, chars =>
    match string? limit chars with
    | some (text, rest) => some (.text text, rest)
    | none =>
      let (run, rest) := scalarRun chars
      (scalar? run).map fun s => (s, rest)

/-- The rest of a line after its content: blanks, a comment, and a line end unless the document
ends. -/
def endLine? (chars : List Char) : Option (List Char) := do
  let rest ← skipComment? (skipBlanks chars)
  if rest.isEmpty then return [] else newline? rest

/-- A document being read: its tables, and the way to the table of the last header. -/
structure Draft where
  root : Entries
  here : List String

/-- Reads a header after its opening bracket; `close` are its closing brackets. -/
def header? (d : Draft) (opening : String → Entries → Option Entries) (close chars : List Char) :
    Option (Draft × List Char) := do
  let (keys, rest) ← key? maxDepth chars
  let last ← keys.getLast?
  if rest.take close.length = close then
    let root ← along (opening last) keys.dropLast d.root
    return (⟨root, keys⟩, rest.drop close.length)
  else none

/-- Reads the content of one line of a text of less than `limit` characters. -/
def statement? (limit : Nat) (d : Draft) (chars : List Char) : Option (Draft × List Char) :=
  match chars with
  | [] => some (d, [])
  | '#' :: _ => some (d, chars)
  | '[' :: '[' :: rest => header? d addTable [']', ']'] rest
  | '[' :: rest => header? d openTable [']'] rest
  | c :: _ =>
    if c = '\n' ∨ c = '\r' then some (d, chars)
    else do
      let (key, rest) ← key? maxDepth chars
      match rest with
      | '=' :: rest => do
        let (value, rest) ← value? limit maxDepth (skipBlanks rest)
        let root ← along (assign value key) d.here d.root
        return ({ d with root := root }, rest)
      | _ => none

/-- Reads lines to the end.  Each line but the last takes a character. -/
def lines? : (limit : Nat) → Draft → List Char → Option Draft
  | 0, _, _ => none
  | limit + 1, d, chars => do
    let (d, rest) ← statement? (limit + 1) d (skipBlanks chars)
    match ← endLine? rest with
    | [] => return d
    | rest => lines? limit d rest

/-- A text without the byte order mark at its start, if there is one. -/
def skipMark : List Char → List Char
  | '\uFEFF' :: rest => rest
  | chars => chars

/-- The settings of a document; nothing if it is malformed.  Two byte order marks may stand before
it: one that belongs to the file, and one that belongs to the document. -/
def read? (document : String) : Option (List (String × Setting)) := do
  let chars := skipMark (skipMark document.toList)
  let d ← lines? (chars.length + 1) ⟨[], []⟩ chars
  return toEntries d.root

end StripeScan.Toml
