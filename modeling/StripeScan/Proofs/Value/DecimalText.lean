import StripeScan.Proofs.Text.Digits
import StripeScan.Proofs.Value.Order

/-! # Texts of decimals

A `Numeral` is decimal notation taken apart: a sign, digits, and, behind a point, further digits.
`Numeral.read?` takes any characters apart, and `Numeral.value` is the number that they denote.
The text of a decimal is laid out in one of three ways (`Decimal.numeral`), and in each of them it
denotes exactly the number that the decimal stands for (`Decimal.text_exact`). -/

namespace StripeScan

/-- Whether there is a minus sign, the digits before the point, and, if there is a point, those
behind it. -/
structure Numeral where
  negative : Bool
  whole : List Char
  fraction : Option (List Char)

namespace Numeral

/-- The characters of a numeral. -/
def chars (n : Numeral) : List Char :=
  (if n.negative then ['-'] else []) ++ n.whole ++ n.fraction.elim [] ('.' :: ·)

/-- The number that a numeral denotes. -/
def value (n : Numeral) : ℚ :=
  (if n.negative then -1 else 1) * (digitsToNat n.whole +
    n.fraction.elim 0 fun digits => (digitsToNat digits : ℚ) / 10 ^ digits.length)

/-- Whether there are digits before the point and, if there is one, behind it, and nothing else. -/
structure Proper (n : Numeral) : Prop where
  whole_ne : n.whole ≠ []
  whole : ∀ c ∈ n.whole, c.isDigit = true
  fraction_ne : n.fraction ≠ some []
  fraction : ∀ digits ∈ n.fraction, ∀ c ∈ digits, c.isDigit = true

/-- The numeral that characters spell. -/
def read? (chars : List Char) : Option Numeral :=
  let (negative, rest) := splitSign chars
  let whole := rest.takeWhile Char.isDigit
  if whole = [] then none
  else
    match rest.dropWhile Char.isDigit with
    | [] => some ⟨negative, whole, none⟩
    | '.' :: digits =>
      if digits ≠ [] ∧ digits.all Char.isDigit then some ⟨negative, whole, some digits⟩ else none
    | _ => none

theorem splitSign_digits {digits rest : List Char} (ne : digits ≠ [])
    (isDigits : ∀ c ∈ digits, c.isDigit = true) :
    splitSign (digits ++ rest) = (false, digits ++ rest) := by
  obtain ⟨c, digits, rfl⟩ := List.exists_cons_of_ne_nil ne
  have hc := isDigits c List.mem_cons_self
  rw [List.cons_append, splitSign]
  · rintro rest ⟨⟩
    cases hc
  · rintro rest ⟨⟩
    cases hc

/-- Reading finds the parts that the characters are made of. -/
theorem read?_chars {n : Numeral} (proper : n.Proper) : read? n.chars = some n := by
  obtain ⟨negative, whole, fraction⟩ := n
  obtain ⟨whole_ne, hwhole, fraction_ne, hfraction⟩ := proper
  simp only at whole_ne hwhole fraction_ne hfraction
  have hsign : splitSign (chars ⟨negative, whole, fraction⟩) =
      (negative, whole ++ fraction.elim [] ('.' :: ·)) := by
    cases negative with
    | true => rfl
    | false => exact splitSign_digits whole_ne hwhole
  have hdelimits : Delimits (fraction.elim [] ('.' :: ·)) := by
    cases fraction with
    | none => exact delimits_nil
    | some digits => exact delimits_cons rfl digits
  unfold read?
  rw [hsign]
  simp only
  rw [takeWhile_digits hwhole hdelimits, dropWhile_digits hwhole hdelimits, if_neg whole_ne]
  cases fraction with
  | none => rfl
  | some digits =>
      have hdigits : digits ≠ [] ∧ digits.all Char.isDigit = true :=
        ⟨fun h => fraction_ne (congrArg some h), List.all_eq_true.mpr (hfraction digits rfl)⟩
      exact if_pos hdigits

end Numeral

namespace Decimal

/-! ### Padded digits -/

theorem isDigit_of_mem_zeros (k : ℕ) : ∀ c ∈ List.replicate k '0', c.isDigit = true := by
  intro c hc
  rw [List.eq_of_mem_replicate hc]
  rfl

theorem isDigit_of_mem_paddedDigits (n width : ℕ) :
    ∀ c ∈ paddedDigits n width, c.isDigit = true := fun c hc =>
  (List.mem_append.mp hc).elim (isDigit_of_mem_zeros _ c) (isDigit_of_mem_toDigits n c)

theorem le_length_paddedDigits (n width : ℕ) : width ≤ (paddedDigits n width).length := by
  rw [paddedDigits, List.length_append, List.length_replicate]
  omega

/-- Zeros before digits do not count. -/
theorem digitsToNat_paddedDigits (n width : ℕ) : digitsToNat (paddedDigits n width) = n := by
  rw [paddedDigits, digitsToNat_append, digitsToNat_zeros, Nat.mul_zero, Nat.zero_add,
    digitsToNat_toDigits]

/-- A point divides what digits stand for by a power of ten. -/
theorem point_divides (whole fraction : List Char) :
    (digitsToNat whole : ℚ) + (digitsToNat fraction : ℚ) / 10 ^ fraction.length =
      digitsToNat (whole ++ fraction) * 10 ^ (-(fraction.length : ℤ)) := by
  rw [digitsToNat_append, zpow_neg, zpow_natCast]
  push_cast
  field_simp

/-! ### Texts -/

/-- Of the decimals that stand for one number, each scale has at most one. -/
theorem eq_of_value_eq {d e : Decimal} (scale : d.scale = e.scale) (value : d.value = e.value) :
    d = e := by
  obtain ⟨unscaled, s⟩ := d
  obtain ⟨unscaled', s'⟩ := e
  obtain rfl : s = s' := scale
  have hcast := mul_right_cancel₀ (power_pos (-s.toInt)).ne' value
  obtain rfl : unscaled = unscaled' := Int128.ext (Int.cast_injective hcast)
  rfl

section text

variable (d : Decimal)

/-- The text taken apart. -/
def numeral : Numeral :=
  let negative := decide (d.unscaled.toInt < 0)
  let magnitude := d.unscaled.toInt.natAbs
  let scale := d.scale.toInt.toNat
  if 0 < scale then
    let digits := paddedDigits magnitude (scale + 1)
    ⟨negative, digits.take (digits.length - scale), some (digits.drop (digits.length - scale))⟩
  else
    ⟨negative, Nat.toDigits 10 magnitude ++ List.replicate (-d.scale.toInt).toNat '0', none⟩

theorem textChars_eq : d.textChars = d.numeral.chars := by
  unfold textChars numeral Numeral.chars
  simp only
  split
  · simp only [decide_eq_true_eq, Option.elim_some]
  · simp only [decide_eq_true_eq, Option.elim_none, List.append_nil, List.append_assoc]

theorem numeral_proper : d.numeral.Proper := by
  unfold numeral
  simp only
  split
  · generalize hdigits : paddedDigits _ _ = digits
    have hlength : d.scale.toInt.toNat + 1 ≤ digits.length := hdigits ▸ le_length_paddedDigits _ _
    have isDigits : ∀ c ∈ digits, c.isDigit = true := hdigits ▸ isDigit_of_mem_paddedDigits _ _
    refine ⟨List.ne_nil_of_length_pos ?_, fun c hc => isDigits c (List.mem_of_mem_take hc),
      fun h => ?_, ?_⟩
    · rw [List.length_take]
      omega
    · have := congrArg List.length (Option.some.inj h)
      rw [List.length_drop, List.length_nil] at this
      omega
    · rintro _ ⟨⟩ c hc
      exact isDigits c (List.mem_of_mem_drop hc)
  · refine ⟨List.append_ne_nil_of_left_ne_nil Nat.toDigits_ne_nil _, fun c hc => ?_, nofun, nofun⟩
    exact (List.mem_append.mp hc).elim (isDigit_of_mem_toDigits _ c) (isDigit_of_mem_zeros _ c)

theorem numeral_negative : d.numeral.negative = decide (d.unscaled.toInt < 0) := by
  unfold numeral
  simp only
  split <;> rfl

/-- There is a point exactly if the scale is positive, and behind it as many digits as that. -/
theorem length_fraction : d.numeral.fraction.map List.length =
    if 0 < d.scale.toInt then some d.scale.toInt.toNat else none := by
  unfold numeral
  simp only
  split
  · have := le_length_paddedDigits d.unscaled.toInt.natAbs (d.scale.toInt.toNat + 1)
    rw [if_pos (by omega), Option.map_some, List.length_drop]
    congr 1
    omega
  · rw [if_neg (by omega), Option.map_none]

theorem sign_mul_natAbs (i : ℤ) : (if i < 0 then -1 else 1 : ℚ) * i.natAbs = i := by
  split
  · rename_i hneg
    rw [Nat.cast_natAbs, abs_of_neg hneg]
    push_cast
    ring
  · rename_i hnonneg
    rw [Nat.cast_natAbs, abs_of_nonneg (not_lt.mp hnonneg), one_mul]

theorem numeral_value : d.numeral.value = d.value := by
  unfold Numeral.value value
  rw [numeral_negative, ← sign_mul_natAbs d.unscaled.toInt, mul_assoc]
  simp only [decide_eq_true_eq]
  congr 1
  unfold numeral
  simp only
  split
  · generalize hdigits : paddedDigits _ _ = digits
    have hlength : d.scale.toInt.toNat + 1 ≤ digits.length := hdigits ▸ le_length_paddedDigits _ _
    have hscale : ((digits.drop (digits.length - d.scale.toInt.toNat)).length : ℤ) =
        d.scale.toInt := by
      rw [List.length_drop]
      omega
    rw [Option.elim_some, point_divides, List.take_append_drop, hscale, ← hdigits,
      digitsToNat_paddedDigits]
  · obtain ⟨zeros, hzeros⟩ : ∃ zeros : ℕ, -d.scale.toInt = zeros :=
      ⟨(-d.scale.toInt).toNat, by omega⟩
    rw [Option.elim_none, add_zero, digitsToNat_append, digitsToNat_zeros, digitsToNat_toDigits,
      List.length_replicate, hzeros, zpow_natCast, Int.toNat_natCast]
    push_cast
    ring

/-- The text of a decimal is an optional minus sign, digits, and, exactly if the scale is positive,
a point with as many digits behind it as the scale says.  Read as a numeral, it denotes the number
that the decimal stands for.  So decimals of one scale have the same text only if they are equal,
and decimals of any scales that have the same text compare as equal. -/
theorem text_exact :
    ∃ n : Numeral, d.text.toList = n.chars ∧ n.Proper ∧ Numeral.read? d.text.toList = some n ∧
      (n.negative = true ↔ d.unscaled.toInt < 0) ∧
      n.fraction.map List.length =
        (if 0 < d.scale.toInt then some d.scale.toInt.toNat else none) ∧
      n.value = (d.unscaled.toInt : ℚ) * 10 ^ (-d.scale.toInt) ∧
      ∀ e : Decimal, d.text = e.text → (d.scale = e.scale → d = e) ∧ d.compare e = .eq := by
  have hread (e : Decimal) : Numeral.read? e.text.toList = some e.numeral := by
    rw [text, String.toList_ofList, textChars_eq, Numeral.read?_chars e.numeral_proper]
  have hchars : d.text.toList = d.numeral.chars := by
    rw [text, String.toList_ofList, textChars_eq]
  refine ⟨d.numeral, hchars, d.numeral_proper, hread d, ?_, d.length_fraction, d.numeral_value,
    fun e he => ?_⟩
  · rw [numeral_negative, decide_eq_true_iff]
  · have hnumeral : d.numeral = e.numeral := Option.some.inj (by rw [← hread, ← hread, he])
    have hvalue : d.value = e.value := by rw [← numeral_value, ← numeral_value, hnumeral]
    refine ⟨fun hscale => eq_of_value_eq hscale hvalue, ?_⟩
    rw [compare_eq, compare_eq_iff_eq, hvalue]

end text

/-- Seven with the scale -2 and seven hundred with the scale 0 have the same text. -/
theorem text_exact_sevenHundred :
    let hundreds : Decimal := ⟨⟨7, by decide, by decide⟩, -2⟩
    let units : Decimal := ⟨⟨700, by decide, by decide⟩, 0⟩
    hundreds.text = units.text ∧ hundreds.scale ≠ units.scale ∧
      hundreds.compare units = .eq := by
  intro hundreds units
  have htext : hundreds.text = units.text := by decide +kernel
  obtain ⟨-, -, -, -, -, -, -, halike⟩ := hundreds.text_exact
  exact ⟨htext, by decide, (halike units htext).2⟩

/-- The layouts: digits with a point among them, zeros before the digits, and zeros behind them. -/
example :
    text ⟨⟨-0x80000000000000000000000000000000, by decide, by decide⟩, 38⟩ =
        "-1.70141183460469231731687303715884105728" ∧
      text ⟨⟨-5, by decide, by decide⟩, 3⟩ = "-0.005" ∧
      text ⟨⟨7, by decide, by decide⟩, -2⟩ = "700" := by
  decide +kernel

end Decimal

end StripeScan
