import StripeScan.Access
import StripeScan.SearchArgument.Binding
import StripeScan.Statistics.Truth

/-! # Evaluating a search argument over a partition

The truth of a search argument over a partition is that of its formula once every predicate is
evaluated against the statistics of its column there.  Statistics are fetched in the order in
which predicates first ask for a column, each column once; what was fetched is remembered for
later predicates.  The first error, of fetching or of comparing, ends the evaluation. -/

namespace StripeScan

variable {σ : Type}

/-- The truth of a predicate given what is known of its column. -/
def Predicate.check (p : Predicate) (s : Option Statistics) : Access σ Truth :=
  .ofExcept ((p.truthOptional s).mapError fun e => .argument (.incomparable e))

namespace BoundSearchArgument

/-- The statistics fetched so far, by column. -/
abbrev Known := List (Nat × Option Statistics)

/-- The statistics of a column, fetched only if not yet known. -/
def statisticsOf (fetch : Nat → Access σ (Option Statistics)) (known : Known) (column : Nat) :
    Access σ (Option Statistics × Known) :=
  match known.lookup column with
  | some s => pure (s, known)
  | none => do
    let s ← fetch column
    return (s, (column, s) :: known)

/-- The truth of every predicate, in order. -/
def truths (fetch : Nat → Access σ (Option Statistics)) :
    Known → List BoundPredicate → Access σ (List Truth)
  | _, [] => pure []
  | known, b :: rest => do
    let (s, known) ← statisticsOf fetch known b.column
    let t ← b.predicate.check s
    return t :: (← truths fetch known rest)

/-- The truth over a partition whose statistics `fetch` delivers. -/
def evaluate (b : BoundSearchArgument) (fetch : Nat → Access σ (Option Statistics)) :
    Access σ Truth := do
  let values ← truths fetch [] b.predicates
  return b.argument.truth values

/-- Whether a partition may hold matching rows; without a search argument it may. -/
def isNeeded (b : BoundSearchArgument) (fetch : Nat → Access σ (Option Statistics)) :
    Access σ Bool :=
  Truth.isNeeded <$> b.evaluate fetch

end BoundSearchArgument

end StripeScan
