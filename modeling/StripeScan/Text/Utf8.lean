/-! # Reading bytes as text

Bytes are read as UTF-8.  `decode?` refuses bytes that are not UTF-8; `decodeLossy` puts the
replacement character in the place of every longest run of bytes that could have begun a
character and does not complete one. -/

namespace StripeScan.Utf8

/-- The bytes that may follow a first byte, in order, each as its least and greatest value; none
if no character starts with that byte. -/
def followers? (first : Nat) : Option (List (Nat × Nat)) :=
  let tail := (0x80, 0xbf)
  if first < 0x80 then some []
  else if 0xc2 ≤ first ∧ first ≤ 0xdf then some [tail]
  else if first = 0xe0 then some [(0xa0, 0xbf), tail]
  else if first = 0xed then some [(0x80, 0x9f), tail]
  else if 0xe1 ≤ first ∧ first ≤ 0xef then some [tail, tail]
  else if first = 0xf0 then some [(0x90, 0xbf), tail, tail]
  else if 0xf1 ≤ first ∧ first ≤ 0xf3 then some [tail, tail, tail]
  else if first = 0xf4 then some [(0x80, 0x8f), tail, tail]
  else none

/-- The bytes at the start of a list that stay in the given ranges, one range for each, and the
bytes after them. -/
def takeFollowers : List (Nat × Nat) → List Nat → List Nat × List Nat
  | (low, high) :: ranges, b :: rest =>
    if low ≤ b ∧ b ≤ high then
      let (taken, left) := takeFollowers ranges rest
      (b :: taken, left)
    else ([], b :: rest)
  | _, bytes => ([], bytes)

/-- The value of the payload bits of a first byte, given how many bytes follow. -/
def firstPayload (first followers : Nat) : Nat :=
  match followers with
  | 0 => first
  | 1 => first - 0xc0
  | 2 => first - 0xe0
  | _ => first - 0xf0

/-- The characters of some bytes, `none` for each run that is no character.  One character takes
at least one byte, so `limit` steps suffice if it is at least the number of bytes. -/
def decodeRuns : (limit : Nat) → List Nat → List (Option Char)
  | 0, _ => []
  | _, [] => []
  | limit + 1, first :: rest =>
    match followers? first with
    | none => none :: decodeRuns limit rest
    | some ranges =>
      let (taken, left) := takeFollowers ranges rest
      if taken.length = ranges.length then
        let payload := firstPayload first ranges.length
        let code := taken.foldl (fun n b => 64 * n + (b - 0x80)) payload
        some (Char.ofNat code) :: decodeRuns limit left
      else none :: decodeRuns limit left

/-- The text of some bytes, if they are UTF-8. -/
def decode? (bytes : List Nat) : Option String :=
  ((decodeRuns bytes.length bytes).mapM id).map String.ofList

/-- The text of some bytes, with replacement characters where they are not UTF-8. -/
def decodeLossy (bytes : List Nat) : String :=
  String.ofList ((decodeRuns bytes.length bytes).map fun c => c.getD '\uFFFD')

end StripeScan.Utf8
