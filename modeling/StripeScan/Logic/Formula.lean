import StripeScan.Logic.Truth
import StripeScan.Logic.Kleene

/-! # Boolean formulas

Formulas over atoms of any type, with conjunctions and disjunctions of any number of parts.

* `truth` evaluates over a partition, from the truth of each atom there.
* `verdict` evaluates on one row, from the verdict of each atom there.
* `flatten` merges a conjunction into a conjunction around it, and a disjunction likewise.
* `text` prints a formula over numbered atoms. -/

namespace StripeScan

/-- A Boolean formula over atoms of type `α`. -/
inductive Formula (α : Type) where
  | atom (a : α)
  | and (parts : List (Formula α))
  | or (parts : List (Formula α))
  | not (part : Formula α)

namespace Formula

variable {α β : Type}

/-- Induction where a conjunction or disjunction may assume the property of each of its parts. -/
theorem induction {motive : Formula α → Prop} (atom : ∀ a, motive (.atom a))
    (and : ∀ parts, (∀ f ∈ parts, motive f) → motive (.and parts))
    (or : ∀ parts, (∀ f ∈ parts, motive f) → motive (.or parts))
    (not : ∀ part, motive part → motive (.not part)) : ∀ f, motive f := by
  intro f
  refine Formula.rec (motive_2 := fun fs => ∀ f ∈ fs, motive f) atom and or not
    (fun _ h => by cases h) (fun head tail ihHead ihTail f h => ?_) f
  rcases List.mem_cons.1 h with rfl | h
  · exact ihHead
  · exact ihTail f h

/-! ### Decidable equality -/

mutual
/-- Whether two formulas are equal. -/
def decEq [DecidableEq α] : (f g : Formula α) → Decidable (f = g)
  | .atom a, .atom b => decidable_of_iff (a = b) (by simp)
  | .and fs, .and gs => @decidable_of_iff _ (fs = gs) (by simp) (decEqList fs gs)
  | .or fs, .or gs => @decidable_of_iff _ (fs = gs) (by simp) (decEqList fs gs)
  | .not f, .not g => @decidable_of_iff _ (f = g) (by simp) (decEq f g)
  | .atom _, .and _ | .atom _, .or _ | .atom _, .not _ => isFalse (by simp)
  | .and _, .atom _ | .and _, .or _ | .and _, .not _ => isFalse (by simp)
  | .or _, .atom _ | .or _, .and _ | .or _, .not _ => isFalse (by simp)
  | .not _, .atom _ | .not _, .and _ | .not _, .or _ => isFalse (by simp)
/-- Whether two lists of formulas are equal. -/
def decEqList [DecidableEq α] : (fs gs : List (Formula α)) → Decidable (fs = gs)
  | [], [] => isTrue rfl
  | f :: fs, g :: gs =>
    match decEq f g, decEqList fs gs with
    | isTrue h, isTrue hs => isTrue (by rw [h, hs])
    | isFalse h, _ => isFalse (by simp [h])
    | _, isFalse hs => isFalse (by simp [hs])
  | [], _ :: _ => isFalse (by simp)
  | _ :: _, [] => isFalse (by simp)
end

instance [DecidableEq α] : DecidableEq (Formula α) := decEq

/-! ### Evaluation -/

mutual
/-- The truth over a partition, from the truth of the atoms. -/
def truth (value : α → Truth) : Formula α → Truth
  | .atom a => value a
  | .and parts => (truthList value parts).foldl Truth.and .yes
  | .or parts => (truthList value parts).foldl Truth.or .no
  | .not part => (truth value part).not
/-- The truths of the parts. -/
def truthList (value : α → Truth) : List (Formula α) → List Truth
  | [] => []
  | f :: fs => truth value f :: truthList value fs
end

theorem truthList_eq_map (value : α → Truth) (fs : List (Formula α)) :
    truthList value fs = fs.map (truth value) := by
  induction fs with
  | nil => rfl
  | cons f fs ih => rw [truthList, ih, List.map_cons]

mutual
/-- The verdict on a row, from the verdicts of the atoms. -/
def verdict (value : α → Verdict) : Formula α → Verdict
  | .atom a => value a
  | .and parts => Verdict.all (verdictList value parts)
  | .or parts => Verdict.any (verdictList value parts)
  | .not part => (verdict value part).not
/-- The verdicts of the parts. -/
def verdictList (value : α → Verdict) : List (Formula α) → List Verdict
  | [] => []
  | f :: fs => verdict value f :: verdictList value fs
end

theorem verdictList_eq_map (value : α → Verdict) (fs : List (Formula α)) :
    verdictList value fs = fs.map (verdict value) := by
  induction fs with
  | nil => rfl
  | cons f fs ih => rw [verdictList, ih, List.map_cons]

/-! ### Atoms -/

mutual
/-- The atoms from left to right, with repetitions. -/
def atoms : Formula α → List α
  | .atom a => [a]
  | .and parts => atomsList parts
  | .or parts => atomsList parts
  | .not part => atoms part
/-- The atoms of a list of formulas. -/
def atomsList : List (Formula α) → List α
  | [] => []
  | f :: fs => atoms f ++ atomsList fs
end

theorem atomsList_eq_flatMap (fs : List (Formula α)) : atomsList fs = fs.flatMap atoms := by
  induction fs with
  | nil => rfl
  | cons f fs ih => rw [atomsList, ih, List.flatMap_cons]

mutual
/-- The formula with every atom replaced. -/
def map (g : α → β) : Formula α → Formula β
  | .atom a => .atom (g a)
  | .and parts => .and (mapList g parts)
  | .or parts => .or (mapList g parts)
  | .not part => .not (map g part)
/-- The formulas with every atom replaced. -/
def mapList (g : α → β) : List (Formula α) → List (Formula β)
  | [] => []
  | f :: fs => map g f :: mapList g fs
end

theorem mapList_eq_map (g : α → β) (fs : List (Formula α)) : mapList g fs = fs.map (map g) := by
  induction fs with
  | nil => rfl
  | cons f fs ih => rw [mapList, ih, List.map_cons]

/-! ### Flattening -/

/-- What a formula contributes to a conjunction around it: its parts, if it is one itself. -/
def conjuncts : Formula α → List (Formula α)
  | .and parts => parts
  | f => [f]

/-- What a formula contributes to a disjunction around it: its parts, if it is one itself. -/
def disjuncts : Formula α → List (Formula α)
  | .or parts => parts
  | f => [f]

mutual
/-- Merges conjunctions into the conjunctions around them, and disjunctions likewise. -/
def flatten : Formula α → Formula α
  | .atom a => .atom a
  | .and parts => .and ((flattenList parts).flatMap conjuncts)
  | .or parts => .or ((flattenList parts).flatMap disjuncts)
  | .not part => .not (flatten part)
/-- Flattens each formula of a list. -/
def flattenList : List (Formula α) → List (Formula α)
  | [] => []
  | f :: fs => flatten f :: flattenList fs
end

theorem flattenList_eq_map (fs : List (Formula α)) : flattenList fs = fs.map flatten := by
  induction fs with
  | nil => rfl
  | cons f fs ih => rw [flattenList, ih, List.map_cons]

/-! ### Text -/

mutual
/-- The characters of a formula over numbered atoms. -/
def textChars : Formula Nat → List Char
  | .atom i => "leaf-".toList ++ Nat.toDigits 10 i
  | .and parts => "(and".toList ++ textCharsList parts ++ [')']
  | .or parts => "(or".toList ++ textCharsList parts ++ [')']
  | .not part => "(not ".toList ++ textChars part ++ [')']
/-- The characters of the parts of a group, each after a blank. -/
def textCharsList : List (Formula Nat) → List Char
  | [] => []
  | f :: fs => ' ' :: textChars f ++ textCharsList fs
end

/-- The text of a formula over numbered atoms. -/
def text (f : Formula Nat) : String := String.ofList f.textChars

end Formula

end StripeScan
