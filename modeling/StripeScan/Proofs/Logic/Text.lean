import StripeScan.Logic.Formula
import StripeScan.Proofs.Text.Digits

/-! # Texts of formulas

No two formulas over numbered atoms have the same text (`Formula.text_inj`).  A group does not say
how many parts it has, and a number not how many digits: a group ends at its bracket, and a number
where no digit follows.  So the induction is about a text with something behind it that does not
begin with a digit, and it says that the formula and what is behind it are both determined
(`Formula.Readable`). -/

namespace StripeScan

namespace Formula

/-! ### What texts begin with -/

@[simp] theorem textChars_atom (i : ℕ) :
    textChars (.atom i) = ['l', 'e', 'a', 'f', '-'] ++ Nat.toDigits 10 i := rfl

@[simp] theorem textChars_and (fs : List (Formula ℕ)) :
    textChars (.and fs) = ['(', 'a', 'n', 'd'] ++ textCharsList fs ++ [')'] := rfl

@[simp] theorem textChars_or (fs : List (Formula ℕ)) :
    textChars (.or fs) = ['(', 'o', 'r'] ++ textCharsList fs ++ [')'] := rfl

@[simp] theorem textChars_not (f : Formula ℕ) :
    textChars (.not f) = ['(', 'n', 'o', 't', ' '] ++ textChars f ++ [')'] := rfl

theorem textCharsList_cons (f : Formula ℕ) (fs : List (Formula ℕ)) :
    textCharsList (f :: fs) = ' ' :: (textChars f ++ textCharsList fs) := rfl

/-- Whether a formula and what follows its text are determined. -/
def Readable (f : Formula ℕ) : Prop :=
  ∀ {g : Formula ℕ} {r s : List Char}, Delimits r → Delimits s →
    textChars f ++ r = textChars g ++ s → f = g ∧ r = s

/-! ### Groups -/

/-- Behind a part of a group there is a blank or the bracket. -/
theorem delimits_textCharsList (fs : List (Formula ℕ)) (r : List Char) :
    Delimits (textCharsList fs ++ ')' :: r) := by
  cases fs with
  | nil => exact delimits_cons rfl r
  | cons f fs => exact delimits_cons rfl _

/-- The parts of a group and what follows its bracket are determined if each part is readable. -/
theorem textCharsList_append_inj {fs gs : List (Formula ℕ)} (readable : ∀ f ∈ fs, f.Readable)
    {r s : List Char} (h : textCharsList fs ++ ')' :: r = textCharsList gs ++ ')' :: s) :
    fs = gs ∧ r = s := by
  induction fs generalizing gs with
  | nil =>
      cases gs with
      | nil => exact ⟨rfl, (List.cons.inj h).2⟩
      | cons g gs => exact absurd (List.cons.inj h).1 (by decide)
  | cons f fs ih =>
      cases gs with
      | nil => exact absurd (List.cons.inj h).1 (by decide)
      | cons g gs =>
          simp only [textCharsList_cons, List.cons_append, List.append_assoc, List.cons.injEq,
            true_and] at h
          obtain ⟨rfl, hrest⟩ := readable f List.mem_cons_self (delimits_textCharsList fs r)
            (delimits_textCharsList gs s) h
          obtain ⟨rfl, hr⟩ := ih (fun f hf => readable f (List.mem_cons_of_mem _ hf)) hrest
          exact ⟨rfl, hr⟩

/-! ### Formulas -/

/-- The kinds of formulas begin differently, so only formulas of one kind are left to compare. -/
theorem readable (f : Formula ℕ) : f.Readable := by
  induction f using Formula.induction with
  | atom i =>
      intro g r s hr hs h
      cases g with
      | atom j =>
          simp only [textChars_atom, List.append_assoc, List.append_cancel_left_eq] at h
          obtain ⟨rfl, hrest⟩ := toDigits_append_inj hr hs h
          exact ⟨rfl, hrest⟩
      | _ => simp at h
  | and parts ih =>
      intro g r s _ _ h
      cases g with
      | and parts' =>
          simp only [textChars_and, List.append_assoc, List.singleton_append,
            List.append_cancel_left_eq] at h
          obtain ⟨rfl, hrest⟩ := textCharsList_append_inj ih h
          exact ⟨rfl, hrest⟩
      | _ => simp at h
  | or parts ih =>
      intro g r s _ _ h
      cases g with
      | or parts' =>
          simp only [textChars_or, List.append_assoc, List.singleton_append,
            List.append_cancel_left_eq] at h
          obtain ⟨rfl, hrest⟩ := textCharsList_append_inj ih h
          exact ⟨rfl, hrest⟩
      | _ => simp at h
  | not part ih =>
      intro g r s _ _ h
      cases g with
      | not part' =>
          simp only [textChars_not, List.append_assoc, List.singleton_append,
            List.append_cancel_left_eq] at h
          obtain ⟨rfl, hrest⟩ := ih (delimits_cons rfl r) (delimits_cons rfl s) h
          exact ⟨rfl, (List.cons.inj hrest).2⟩
      | _ => simp at h

/-- Formulas with the same text are the same, however they are nested, whatever their atoms are
numbered, and also where groups have no parts. -/
theorem text_inj {f g : Formula ℕ} : f.text = g.text ↔ f = g := by
  refine ⟨fun h => ?_, congrArg text⟩
  have hchars : textChars f ++ [] = textChars g ++ [] := by
    rw [List.append_nil, List.append_nil]
    exact String.ofList_injective h
  exact (f.readable delimits_nil delimits_nil hchars).1

end Formula

end StripeScan
