import Mathlib
import StripeScan.Value.Binary64.Reading

/-! # Digits in texts

Where digits are followed by something that does not begin with a digit, both are determined
(`toDigits_append_inj`), and reading as many digits as there are finds them.  The number that digits
stand for does not change with zeros before them, and zeros behind them are powers of ten. -/

namespace StripeScan

/-! ### Where digits end -/

/-- Whether digits end before these characters. -/
def Delimits (rest : List Char) : Prop := ∀ c ∈ rest.head?, c.isDigit = false

theorem delimits_nil : Delimits [] := fun _ hc => nomatch hc

theorem delimits_cons {c : Char} (h : c.isDigit = false) (rest : List Char) :
    Delimits (c :: rest) := by
  intro d hd
  cases hd
  exact h

section digits

variable {digits rest : List Char} (isDigits : ∀ c ∈ digits, c.isDigit = true)
variable (h : Delimits rest)

include isDigits h

theorem takeWhile_digits : (digits ++ rest).takeWhile Char.isDigit = digits := by
  rw [List.takeWhile_append_of_pos isDigits]
  cases rest with
  | nil => exact List.append_nil _
  | cons c rest =>
      rw [List.takeWhile_cons_of_neg (by rw [h c rfl]; exact Bool.false_ne_true), List.append_nil]

theorem dropWhile_digits : (digits ++ rest).dropWhile Char.isDigit = rest := by
  rw [List.dropWhile_append_of_pos isDigits]
  cases rest with
  | nil => rfl
  | cons c rest =>
      exact List.dropWhile_cons_of_neg (by rw [h c rfl]; exact Bool.false_ne_true)

end digits

theorem isDigit_of_mem_toDigits (n : ℕ) : ∀ c ∈ Nat.toDigits 10 n, c.isDigit = true :=
  fun _ hc => Nat.isDigit_of_mem_toDigits (by omega) le_rfl hc

/-- A number and what follows its digits are determined. -/
theorem toDigits_append_inj {m n : ℕ} {r s : List Char} (hr : Delimits r) (hs : Delimits s)
    (h : Nat.toDigits 10 m ++ r = Nat.toDigits 10 n ++ s) : m = n ∧ r = s := by
  have hdigits : Nat.toDigits 10 m = Nat.toDigits 10 n := by
    rw [← takeWhile_digits (isDigit_of_mem_toDigits m) hr, h,
      takeWhile_digits (isDigit_of_mem_toDigits n) hs]
  refine ⟨?_, List.append_cancel_left (hdigits ▸ h)⟩
  rw [← Nat.ofDigitChars_ten_toDigits (n := m), hdigits, Nat.ofDigitChars_ten_toDigits]

/-! ### What digits stand for -/

theorem digitsToNat_eq (digits : List Char) : digitsToNat digits = Nat.ofDigitChars 10 digits 0 :=
  Nat.ofDigitChars_eq_foldl.symm

theorem digitsToNat_toDigits (n : ℕ) : digitsToNat (Nat.toDigits 10 n) = n := by
  rw [digitsToNat_eq, Nat.ofDigitChars_ten_toDigits]

theorem digitsToNat_append (a b : List Char) :
    digitsToNat (a ++ b) = 10 ^ b.length * digitsToNat a + digitsToNat b := by
  rw [digitsToNat_eq, Nat.ofDigitChars_append, Nat.ofDigitChars_eq_ofDigitChars_zero,
    digitsToNat_eq, digitsToNat_eq]

theorem digitsToNat_zeros (k : ℕ) : digitsToNat (List.replicate k '0') = 0 := by
  rw [digitsToNat_eq, Nat.ofDigitChars_replicate_zero, Nat.mul_zero]

end StripeScan
