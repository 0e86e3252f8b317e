import StripeScan.Settings.Value

/-! # Scalars of TOML

Numbers, truth values, dates and strings as TOML 1.1 writes them.

A scalar without quotes is a run of letters, digits and a few signs.  Numbers may group their
digits with underscores, each between two digits; integers have no leading zeros and fit into 64
bits; a decimal too great for a double is refused.  Dates and times are checked against the
calendar and kept as text; a time may leave out its seconds. -/

namespace StripeScan.Toml

/-! ### Digits -/

/-- The digits of a group with its underscores taken out; `afterDigit` says whether the character
before was a digit. -/
def ungroup (isDigit : Char → Bool) : (afterDigit : Bool) → List Char → Option (List Char)
  | true, [] => some []
  | false, [] => none
  | afterDigit, c :: rest =>
    if isDigit c then (ungroup isDigit true rest).map (c :: ·)
    else if c = '_' ∧ afterDigit = true then ungroup isDigit false rest
    else none

/-- Digits in a base, grouped. -/
def grouped? (isDigit : Char → Bool) (chars : List Char) : Option (List Char) :=
  ungroup isDigit false chars

/-- Decimal digits without a leading zero, grouped. -/
def decimalDigits? (chars : List Char) : Option (List Char) := do
  let digits ← grouped? Char.isDigit chars
  if digits.head? = some '0' ∧ digits.length ≠ 1 then none else return digits

/-- The value of a digit in any base up to sixteen. -/
def digitValue (c : Char) : Nat :=
  if c.isDigit then c.toNat - '0'.toNat else c.toLower.toNat - 'a'.toNat + 10

/-- Whether a character is a digit of a base. -/
def isDigitOf (base : Nat) (c : Char) : Bool :=
  (c.isDigit || ('a' ≤ c.toLower && c.toLower ≤ 'f')) && digitValue c < base

/-- The number of grouped digits in a base. -/
def based? (base : Nat) (chars : List Char) : Option Int := do
  let digits ← grouped? (isDigitOf base) chars
  return (digits.foldl (fun n c => base * n + digitValue c) 0 : Nat)

/-! ### Numbers -/

/-- An integer, before it is known to fit. -/
def integer? : List Char → Option Int
  | '0' :: 'x' :: digits => based? 16 digits
  | '0' :: 'o' :: digits => based? 8 digits
  | '0' :: 'b' :: digits => based? 2 digits
  | chars => do
    let (negative, rest) := splitSign chars
    let n := digitsToNat (← decimalDigits? rest)
    return if negative then -(n : Int) else n

/-- The fraction digits at the start of a text, if it starts with a point, and what follows. -/
def fraction? (chars : List Char) : Option (List Char × List Char) :=
  match chars with
  | '.' :: rest => do
    let isMark (c : Char) : Bool := c == 'e' || c == 'E'
    let digits ← grouped? Char.isDigit (rest.takeWhile (!isMark ·))
    return (digits, rest.dropWhile (!isMark ·))
  | _ => some ([], chars)

/-- The exponent that a text is: nothing, or a mark, a sign and digits. -/
def exponent? (chars : List Char) : Option Int :=
  match chars with
  | [] => some 0
  | mark :: rest =>
    if mark = 'e' ∨ mark = 'E' then do
      let (negative, digits) := splitSign rest
      let n := digitsToNat (← grouped? Char.isDigit digits)
      return if negative then -(n : Int) else n
    else none

/-- A decimal with a fraction or an exponent. -/
def decimal? (negative : Bool) (chars : List Char) : Option Binary64 := do
  let isEnd (c : Char) : Bool := c == '.' || c == 'e' || c == 'E'
  let whole ← decimalDigits? (chars.takeWhile (!isEnd ·))
  let rest := chars.dropWhile (!isEnd ·)
  if rest.isEmpty then none
  else
    let (fraction, rest) ← fraction? rest
    let exponent ← exponent? rest
    let x := Binary64.ofScientific negative (digitsToNat (whole ++ fraction))
      (exponent - fraction.length)
    if x.isInfinite then none else return x

/-- A float. -/
def float? (chars : List Char) : Option Binary64 :=
  let (negative, rest) := splitSign chars
  if rest = "inf".toList then some (.infinity negative)
  else if rest = "nan".toList then some .nan
  else decimal? negative rest

/-! ### Dates and times -/

/-- The number of exactly `width` digits. -/
def fixedDigits? (width : Nat) (chars : List Char) : Option Nat :=
  if chars.length = width ∧ chars.all Char.isDigit then some (digitsToNat chars) else none

/-- The number of days of a month. -/
def daysInMonth (year month : Nat) : Nat :=
  if month = 2 then
    if year % 4 = 0 ∧ (year % 100 ≠ 0 ∨ year % 400 = 0) then 29 else 28
  else if month ∈ [4, 6, 9, 11] then 30
  else 31

/-- Whether a text is a date of the calendar. -/
def isDate (chars : List Char) : Bool :=
  match fixedDigits? 4 (chars.take 4), chars.drop 4 with
  | some year, '-' :: rest =>
    match fixedDigits? 2 (rest.take 2), rest.drop 2 with
    | some month, '-' :: rest =>
      match fixedDigits? 2 rest with
      | some day => 1 ≤ month && month ≤ 12 && 1 ≤ day && day ≤ daysInMonth year month
      | none => false
    | _, _ => false
  | _, _ => false

/-- Whether a text is two numbers of two digits around a colon, below the given limits. -/
def isClock (hours minutes : Nat) (chars : List Char) : Bool :=
  match fixedDigits? 2 (chars.take 2), chars.drop 2 with
  | some h, ':' :: rest =>
    match fixedDigits? 2 rest with
    | some m => h < hours && m < minutes
    | none => false
  | _, _ => false

/-- Whether a text is nothing, or a point and digits. -/
def isFraction : List Char → Bool
  | [] => true
  | '.' :: digits => !digits.isEmpty && digits.all Char.isDigit
  | _ => false

/-- Whether a text is a time of day, perhaps without seconds; a minute may have a second 60. -/
def isTime (chars : List Char) : Bool :=
  isClock 24 60 (chars.take 5) &&
    match chars.drop 5 with
    | [] => true
    | ':' :: rest =>
      match fixedDigits? 2 (rest.take 2) with
      | some s => s ≤ 60 && isFraction (rest.drop 2)
      | none => false
    | _ => false

/-- Whether a text is a time of day, perhaps with an offset from UTC. -/
def isZonedTime (chars : List Char) : Bool :=
  let isSign (c : Char) : Bool := c == '+' || c == '-'
  match chars.dropWhile (!isSign ·), chars.getLast? with
  | _ :: offset, _ => isTime (chars.takeWhile (!isSign ·)) && isClock 24 60 offset
  | [], some 'Z' => isTime chars.dropLast
  | [], some 'z' => isTime chars.dropLast
  | [], _ => isTime chars

/-- Whether a text is a date, a time, or a date and a time. -/
def isDateTime (chars : List Char) : Bool :=
  isDate chars || isTime chars ||
    (isDate (chars.take 10) &&
      match chars.drop 10 with
      | mark :: time => (mark == 'T' || mark == 't' || mark == ' ') && isZonedTime time
      | [] => false)

/-! ### Scalars without quotes -/

/-- Whether a character may stand in a scalar without quotes. -/
def isScalarChar (c : Char) : Bool :=
  c.isAlphanum || c == '+' || c == '-' || c == '_' || c == '.' || c == ':'

/-- The run of characters at the start of a text that make up a scalar, and what follows.  A date
may be followed by a blank and a time. -/
def scalarRun (chars : List Char) : List Char × List Char :=
  let run := chars.takeWhile isScalarChar
  let rest := chars.dropWhile isScalarChar
  match rest with
  | ' ' :: c :: more =>
    if isDate run && c.isDigit then
      (run ++ ' ' :: (c :: more).takeWhile isScalarChar, (c :: more).dropWhile isScalarChar)
    else (run, rest)
  | _ => (run, rest)

/-- The scalar that a run of characters spells. -/
def scalar? (run : List Char) : Option Setting :=
  if run = "true".toList then some (.boolean true)
  else if run = "false".toList then some (.boolean false)
  else if isDateTime run then some (.text (String.ofList run))
  else
    match integer? run with
    | some i => if Setting.fits i then some (.integer i) else none
    | none => (float? run).map .float

/-! ### Strings -/

/-- Whether a character may stand in a string or comment as it is; line ends may not. -/
def isPlain (c : Char) : Bool := c == '\t' || (0x20 ≤ c.toNat && c.toNat ≠ 0x7f)

/-- The character of a code point in exactly `width` hexadecimal digits. -/
def unicode? (width : Nat) (chars : List Char) : Option (Char × List Char) :=
  let digits := chars.take width
  let code := digits.foldl (fun n c => 16 * n + digitValue c) 0
  if digits.length = width ∧ digits.all (isDigitOf 16) ∧ code.isValidChar then
    some (Char.ofNat code, chars.drop width)
  else none

/-- The character of an escape sequence, after its backslash. -/
def escape? : List Char → Option (Char × List Char)
  | 'b' :: rest => some ('\x08', rest)
  | 't' :: rest => some ('\t', rest)
  | 'n' :: rest => some ('\n', rest)
  | 'f' :: rest => some ('\x0c', rest)
  | 'r' :: rest => some ('\r', rest)
  | 'e' :: rest => some ('\x1b', rest)
  | '"' :: rest => some ('"', rest)
  | '\\' :: rest => some ('\\', rest)
  | 'x' :: rest => unicode? 2 rest
  | 'u' :: rest => unicode? 4 rest
  | 'U' :: rest => unicode? 8 rest
  | _ => none

/-- What a string in double quotes holds, after its opening quote.  Here and below each step takes
a character, so `limit` steps suffice if it is more than the number of characters. -/
def basicString? : (limit : Nat) → List Char → Option (List Char × List Char)
  | 0, _ => none
  | _, [] => none
  | _, '"' :: rest => some ([], rest)
  | limit + 1, '\\' :: rest => do
    let (c, rest) ← escape? rest
    let (content, rest) ← basicString? limit rest
    return (c :: content, rest)
  | limit + 1, c :: rest =>
    if isPlain c then (basicString? limit rest).map fun (content, rest) => (c :: content, rest)
    else none

/-- What a string in single quotes holds, after its opening quote. -/
def literalString? (chars : List Char) : Option (List Char × List Char) :=
  match chars.dropWhile fun c => c != '\x27' with
  | '\x27' :: rest =>
    let content := chars.takeWhile fun c => c != '\x27'
    if content.all isPlain then some (content, rest) else none
  | _ => none

/-- A line end at the start of a text, and what follows. -/
def newline? : List Char → Option (List Char)
  | '\n' :: rest => some rest
  | '\r' :: '\n' :: rest => some rest
  | _ => none

/-- A text without a line end at its start. -/
def skipNewline (chars : List Char) : List Char := (newline? chars).getD chars

/-- A text without blanks at its start. -/
def skipBlanks (chars : List Char) : List Char :=
  chars.dropWhile fun c => c == ' ' || c == '\t'

/-- Whether a text is a rest of a line without content; such a line end may be escaped. -/
def endsLine (chars : List Char) : Bool := (newline? (skipBlanks chars)).isSome

/-- A text without blanks and line ends at its start.  Each round takes a character. -/
def skipLines : (limit : Nat) → List Char → List Char
  | 0, chars => chars
  | limit + 1, chars =>
    match newline? (skipBlanks chars) with
    | some rest => skipLines limit rest
    | none => skipBlanks chars

/-- The quotes at the end of a string of several lines: up to two of those before the closing
three belong to the string. -/
def closing? (quote : Char) (chars : List Char) : Option (List Char × List Char) :=
  let quotes := (chars.takeWhile (· == quote)).length
  if 3 ≤ quotes then
    let kept := min (quotes - 3) 2
    some (List.replicate kept quote, chars.drop (kept + 3))
  else none

/-- What a string of several lines holds, after its opening quotes; escapes stand only between
double quotes. -/
def longString? (quote : Char) : (limit : Nat) → List Char → Option (List Char × List Char)
  | 0, _ => none
  | _, [] => none
  | limit + 1, c :: rest =>
    let go (kept : List Char) (rest : List Char) : Option (List Char × List Char) :=
      (longString? quote limit rest).map fun (content, rest) => (kept ++ content, rest)
    if c = quote then
      match closing? quote (c :: rest) with
      | some ending => some ending
      | none => go [c] rest
    else if c = '\\' ∧ quote = '"' then
      if endsLine rest then go [] (skipLines rest.length rest)
      else
        match escape? rest with
        | some (e, rest) => go [e] rest
        | none => none
    else if isPlain c then go [c] rest
    else
      match newline? (c :: rest) with
      | some after => go ['\n'] after
      | none => none

/-- A string in any of its four forms. -/
def string? (limit : Nat) (chars : List Char) : Option (String × List Char) :=
  let content := match chars with
    | '"' :: '"' :: '"' :: rest => longString? '"' limit (skipNewline rest)
    | '\x27' :: '\x27' :: '\x27' :: rest => longString? '\x27' limit (skipNewline rest)
    | '"' :: rest => basicString? limit rest
    | '\x27' :: rest => literalString? rest
    | _ => none
  content.map fun (content, rest) => (String.ofList content, rest)

end StripeScan.Toml
