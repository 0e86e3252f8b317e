import StripeScan.Text.Combining
import StripeScan.Text.Formless

/-! # Quoted text

A text in double quotes.  The quote, the backslash and the common control characters have short
escapes; combining marks and characters without a form are written by their code points. -/

namespace StripeScan.Quoted

/-- The hexadecimal digits of a number. -/
def hexDigits (n : Nat) : List Char := Nat.toDigits 16 n

/-- Whether a character is seen as itself wherever it stands. -/
def isVisible (c : Char) : Bool := !CodePoints.combining.has c && !CodePoints.formless.has c

/-- A character as it stands between the quotes. -/
def escape (c : Char) : List Char :=
  match c with
  | '"' => ['\\', '"']
  | '\\' => ['\\', '\\']
  | '\n' => ['\\', 'n']
  | '\r' => ['\\', 'r']
  | '\t' => ['\\', 't']
  | '\x00' => ['\\', '0']
  | c => if isVisible c then [c] else "\\u\x7b".toList ++ hexDigits c.toNat ++ ['\x7d']

/-- The text between double quotes. -/
def quote (s : String) : String := String.ofList ('"' :: s.toList.flatMap escape ++ ['"'])

end StripeScan.Quoted
