/-! # Machine words

Rows and values are counted in words of 64 bits, and nothing checks for overflow: a sum or product
that is too great wraps around, and so does a difference below zero.  A result that fits into a
word is the plain one. -/

namespace StripeScan.Word

/-- The sum of two words. -/
def add (a b : Nat) : Nat := (a + b) % UInt64.size

/-- The difference of two words. -/
def sub (a b : Nat) : Nat := (a + UInt64.size - b) % UInt64.size

/-- The product of two words. -/
def mul (a b : Nat) : Nat := a * b % UInt64.size

/-- The sum of several words, from left to right. -/
def sum (words : List Nat) : Nat := words.foldl add 0

theorem add_eq {a b : Nat} (h : a + b < UInt64.size) : add a b = a + b := Nat.mod_eq_of_lt h

theorem mul_eq {a b : Nat} (h : a * b < UInt64.size) : mul a b = a * b := Nat.mod_eq_of_lt h

theorem sub_eq {a b : Nat} (hle : b ≤ a) (h : a < UInt64.size) : sub a b = a - b := by
  rw [sub, show a + UInt64.size - b = a - b + UInt64.size by omega, Nat.add_mod_right]
  exact Nat.mod_eq_of_lt (by omega)

/-- A sum is a word. -/
theorem add_lt (a b : Nat) : add a b < UInt64.size := Nat.mod_lt _ (by decide)

/-- Taking a summand off again leaves the other one, whether or not the sum wraps around. -/
theorem sub_add_self {a b : Nat} (ha : a < UInt64.size) (hb : b < UInt64.size) :
    sub (add a b) a = b := by
  unfold sub add
  rcases Nat.lt_or_ge (a + b) UInt64.size with hlt | hge
  · rw [Nat.mod_eq_of_lt hlt, show a + b + UInt64.size - a = b + UInt64.size by omega,
      Nat.add_mod_right]
    exact Nat.mod_eq_of_lt hb
  · have hwrap : a + b - UInt64.size < UInt64.size := by omega
    rw [Nat.mod_eq_sub_mod hge, Nat.mod_eq_of_lt hwrap,
      show a + b - UInt64.size + UInt64.size - a = b by omega]
    exact Nat.mod_eq_of_lt hb

end StripeScan.Word
