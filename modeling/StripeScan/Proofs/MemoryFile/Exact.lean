import StripeScan.Proofs.MemoryFile.DerivedScans
import StripeScan.Proofs.SearchArgument.Constant

/-! # Scans that deliver the matching rows only

In a file with a stride of one every row is a row group of its own.  Where it holds neither a null
nor a float in the columns that take part, its statistics are those of a constant partition, and
evaluating them gives the verdict on the row.  So a scan that consults row groups delivers exactly
the rows that match (`Derived.drained_eq`); this is the case of a constant partition in
`pruning_exact`. -/

namespace StripeScan

namespace MemoryFile

/-- Values that are no floats are boundable. -/
theorem boundableColumn_of_kind {schema : Schema} {stride : ℕ} {rows : Batch}
    (regular : rows.Regular) (hschema : rows.schema = schema) {column : ℕ} {kind : Kind}
    (hkind : schema.kind? column = some kind) (notFloat : kind ≠ .float) :
    BoundableColumn stride rows column := by
  rintro chunk - c hc ⟨v, hv, hnan⟩
  exfalso
  obtain ⟨field, hfield, hcolumn⟩ := regular.exists_field hc
  rw [← hschema, Schema.kind?_eq, hfield] at hkind
  cases hkind
  apply notFloat
  show field.type.kind = _
  rw [hcolumn, ← Column.kind_of_values hv]
  exact Literal.kind_eq_of_isNaN hnan

/-- With a stride of one, each row is a row group of its own. -/
theorem groupChunks_one {rows row : ℕ} (h : row < rows) :
    (groupChunks 1 rows)[row]? = some (row, 1) := by
  rw [groupChunks, if_neg Nat.one_ne_zero, chunks_getElem? Nat.one_pos (by omega),
    if_pos (by omega)]
  congr 2
  · omega
  · omega

variable {schema : Schema} {stripes : List Batch} {f : MemoryFile}

/-- The statistics of a row group of one row are constant in each column that holds neither a null
nor a float there. -/
theorem Derived.exists_constant (derived : Derived schema 1 stripes f) {m : MemoryStripe}
    (hm : m ∈ f.stripes) {row : ℕ} (hrow : row < m.rows.rows) :
    ∃ entries, m.groups[f.groupOf row]? = some entries ∧
      ∀ column v, m.value column row = some v → v.kind ≠ .float →
        ∃ s, entries[column]? = some (some s) ∧ s.Constant v := by
  obtain ⟨rows, -, hderived⟩ := derived.exists_rows hm
  have hgroup : f.groupOf row = row := by
    rw [groupOf, derived.stride_eq, if_neg Nat.one_ne_zero, Nat.div_one]
  have hrow' : row < rows.rows := hderived.rows_eq ▸ hrow
  obtain ⟨hg, hchunk⟩ := List.getElem?_eq_some_iff.mp (groupChunks_one hrow')
  have hg' := hderived.groups.length_eq ▸ hg
  obtain ⟨-, hsummaries⟩ := hderived.groups.get hg hg'
  rw [hgroup]
  refine ⟨_, List.getElem?_eq_getElem hg', fun column v hv notFloat => ?_⟩
  obtain ⟨c, hc, hliteral⟩ := Option.bind_eq_some_iff.mp hv
  rw [hderived.rows_eq] at hc
  obtain ⟨s, hs, hsummary⟩ := hsummaries column c hc
  have hvalues : c.values (row, 1) = [some v] := by
    rw [Column.values, List.range'_one, List.map_singleton, hliteral]
  rw [List.get_eq_getElem, hchunk, hvalues] at hsummary
  refine ⟨s, hs, hsummary.constant (List.cons_ne_nil _ _) fun r hr => ⟨v, ?_, ?_⟩⟩
  · exact List.mem_singleton.mp hr
  · exact Literal.compare?_eq_eq_iff.mpr ⟨.refl v, Literal.isNaN_eq_false notFloat⟩

section row

variable {b : BoundSearchArgument} {pruning : Pruning} {v : Survey} {u u' i row : ℕ}
variable {m : MemoryStripe}
variable (derived : Derived schema 1 stripes f) (follow : Follow schema 1 stripes)
variable (kinds : ∀ p ∈ b.predicates, schema.kind? p.column = some p.predicate.kind)
variable (notFloat : ∀ p ∈ b.predicates, p.predicate.kind ≠ .float)
variable (hv : (survey f.source (some b) pruning).run u = (.ok v, u'))
variable (hm : f.stripes[i]? = some m) (hrow : row < m.rows.rows)

include derived follow kinds notFloat hv hm hrow

theorem Derived.retains_of_matches
    (matching : b.answer (fun column => m.value column row) = some true) :
    (v.plan f.stride).retains (totalOf (f.lengths.take i) + row) = true := by
  have wf := derived.wellFormed follow
  refine MemoryFile.retains_of_matches wf (fun p hp => ?_) hv hm hrow matching
  apply derived.describesColumn follow (lt_size_of_kind? (kinds p hp))
  intro rows hrows
  obtain ⟨columns, hcolumns⟩ := follow.made rows hrows
  obtain ⟨regular, hschema, -⟩ := Batch.regular_of_ofColumns hcolumns
  exact boundableColumn_of_kind regular hschema (kinds p hp) (notFloat p hp)

/-- A row whose row group is kept matches. -/
theorem Derived.matches_of_retains (inRange : b.InRange) (consulted : pruning.rowGroup = true)
    (nonnull : ∀ p ∈ b.predicates, m.value p.column row ≠ none)
    (retains : (v.plan f.stride).retains (totalOf (f.lengths.take i) + row) = true) :
    b.answer (fun column => m.value column row) = some true := by
  have wf := derived.wellFormed follow
  obtain ⟨found, hfound, hstripe, hgroup⟩ := (retains_iff wf hv hm hrow).mp retains
  have hmem := List.mem_of_getElem? hm
  obtain ⟨entries, hentries, hconstant⟩ := derived.exists_constant hmem hrow
  have hstride : f.stride ≠ 0 := by
    rw [derived.stride_eq]
    exact Nat.one_ne_zero
  obtain ⟨t, w, w', ht, hrun⟩ := exists_groupTruth wf hm hrow hv hfound consulted hstride
    (derived.statistics_eq.2 i m hm).2.1 hentries hstripe
  have hvalue {p : BoundPredicate} (hp : p ∈ b.predicates) :
      m.value p.column row = some ((m.value p.column row).getD (.boolean false)) := by
    obtain ⟨value, hvalue⟩ := Option.ne_none_iff_exists'.mp (nonnull p hp)
    rw [hvalue, Option.getD_some]
  have suits : b.Suits fun column => (m.value column row).getD (.boolean false) := by
    refine ⟨fun p hp => ?_, notFloat⟩
    have hkind := kind_of_value wf hmem (hvalue hp)
    rw [derived.schema_eq, kinds p hp, Option.some.injEq] at hkind
    exact hkind.symm
  have holds : b.Holds (fun column => (m.value column row).getD (.boolean false))
      fun column => m.value column row := by
    intro p hp
    refine ⟨_, hvalue hp, Literal.compare?_eq_eq_iff.mpr ⟨.refl _, Literal.isNaN_eq_false ?_⟩⟩
    rw [suits.kind p hp]
    exact notFloat p hp
  obtain ⟨x, rfl, hrows⟩ := BoundSearchArgument.evaluate_constant suits inRange
    (fun p hp x z z' hfetch => by
      obtain ⟨s, hs, hst⟩ := hconstant p.column _ (hvalue hp) (by
        rw [suits.kind p hp]
        exact notFloat p hp)
      refine ⟨s, ?_, hst⟩
      rw [run_groupStatistics hm hfetch, hentries, Option.bind_some, hs]
      rfl) hrun
  obtain ⟨hanswer, -⟩ := hrows _ holds
  rw [ht] at hgroup
  cases x with
  | true => exact hanswer
  | false => cases hgroup

end row

/-- A whole scan that consults row groups of one row delivers exactly the rows that match. -/
theorem Derived.drained_eq (derived : Derived schema 1 stripes f) (follow : Follow schema 1 stripes)
    {argument : SearchArgument} {b : BoundSearchArgument} (hbind : argument.bind schema = .ok b)
    (inRange : b.InRange) (notFloat : ∀ p ∈ b.predicates, p.predicate.kind ≠ .float)
    (nonnull : ∀ p ∈ b.predicates, ∀ row < f.totalRows, f.value p.column row ≠ none)
    {options : ScanOptions} (asks : options.Asks schema argument)
    (consulted : options.pruning.rowGroup = true) {capacity : ℕ} (positive : 0 < capacity) :
    ∃ matching drained, f.matchingRows argument = .ok matching ∧
      f.scanAll options capacity = .ok drained ∧ drained.failure = none ∧
      drained.scan.cursor.state = .exhausted ∧ drained.rows = matching := by
  have wf := derived.wellFormed follow
  obtain ⟨scan, readings, hstart⟩ := derived.startScan_succeeds asks
  obtain ⟨drained, hdrained, hfailure, hexhausted, hrows⟩ :=
    scanAll_rows wf derived.realizes.failsRows_eq hstart positive
  obtain ⟨-, htotal, -⟩ := serves_of_startScan wf hstart
  obtain ⟨b', v, hb, hv, hplan⟩ := plan_of_startScan asks.asked hstart
  have hmatching := matchingRows_eq wf hb
  rw [derived.schema_eq, hbind] at hb
  cases hb
  have kinds := SearchArgument.bind_kinds hbind
  refine ⟨_, drained, hmatching, hdrained, hfailure, hexhausted, ?_⟩
  rw [hrows, Plan.rowsFrom, htotal, Nat.sub_zero, List.range_eq_range']
  apply List.filter_congr
  intro row hrow
  have hlt := (List.mem_range'_1.mp hrow).2
  rw [Nat.zero_add] at hlt
  have hvalues := fun p hp => nonnull p hp row hlt
  obtain ⟨i, m, k, hm, hk, rfl⟩ := MemoryFile.exists_stripe hlt
  rw [funext (value_eq hm hk), hplan, Bool.eq_iff_iff, beq_iff_eq]
  simp only [value_eq hm hk] at hvalues
  exact ⟨derived.matches_of_retains follow kinds notFloat hv hm hk inRange consulted hvalues,
    derived.retains_of_matches follow kinds notFloat hv hm hk⟩

/-- Pruning is exact on constant rows without nulls and floats.  Take an argument that was built.
Bound to columns that are no floats, over any rows that all hold the same value in each column that
takes part, it evaluates to `yes` if it is true of the rows and to `no` if it is not.  So in a file
with a stride of one, whose columns that take part hold no null, every scan that consults row groups
comes to its end and has delivered exactly the rows that match. -/
theorem pruning_exact {calls : List SearchArgument.Call} {argument : SearchArgument}
    (built : SearchArgument.ofCalls calls = .ok argument) :
    (∀ (resolve : ColumnRef → Option (ℕ × Kind)) (b : BoundSearchArgument),
      argument.bindWith resolve = .ok b → ∀ value : ℕ → Literal, b.Suits value →
      ∀ stats : ℕ → Statistics, (∀ p ∈ b.predicates, (stats p.column).Constant (value p.column)) →
      ∀ (σ : Type) (s : σ), ∃ x : Bool,
        (b.evaluate fun column => pure (some (stats column))).run s =
          (.ok (if x then .yes else .no), s) ∧
        ∀ row, b.Holds value row → b.verdict row = .ok (some x)) ∧
    ∀ (schema : Schema) (stripes : List Batch) (b : BoundSearchArgument), Follow schema 1 stripes →
      argument.bind schema = .ok b → (∀ p ∈ b.predicates, p.predicate.kind ≠ .float) →
      ∃ f, build (.ofStripes schema 1 stripes) = .ok f ∧
        ((∀ p ∈ b.predicates, ∀ row < f.totalRows, f.value p.column row ≠ none) →
          ∀ (options : ScanOptions) (capacity : ℕ), options.Asks schema argument →
            options.pruning.rowGroup = true → 0 < capacity →
            ∃ matching drained, f.matchingRows argument = .ok matching ∧
              f.scanAll options capacity = .ok drained ∧ drained.failure = none ∧
              drained.scan.cursor.state = .exhausted ∧ drained.rows = matching) := by
  constructor
  · intro resolve b hbind value suits stats constant σ s
    have inRange := BoundSearchArgument.inRange_of_bindWith built hbind
    exact BoundSearchArgument.exists_evaluate_constant suits inRange constant s
  · intro schema stripes b follow hbind notFloat
    have inRange := BoundSearchArgument.inRange_of_bindWith built hbind
    obtain ⟨f, hbuild, derived⟩ := build_ofStripes follow
    refine ⟨f, hbuild, fun nonnull options capacity asks consulted positive => ?_⟩
    exact derived.drained_eq follow hbind inRange notFloat nonnull asks consulted positive

/-- A decimal literal. -/
def price (unscaled : Int) (scale : Int8) : Literal :=
  .decimal ⟨(Int128.ofInt? unscaled).getD default, scale⟩

/-- The calls for a price of 1.0, or between 3 and 1, or above 2.5. -/
def priceCalls : List SearchArgument.Call :=
  [.start .or, .test (.name "price") .equals .decimal [price 10 1],
    .test (.name "price") .between .decimal [price 3 0, price 1 0], .start .not,
    .test (.name "price") .lessThanEquals .decimal [price 25 1], .finish, .finish]

/-- The prices 1.00, 2.50 and 3.00, beside weights of which one is no number. -/
def prices : Batch :=
  let cents (i : Int) : Option Int128 := Int128.ofInt? i
  ⟨.ofTyped [⟨"price", .decimal 5 2, true⟩, ⟨"weight", .float, true⟩],
    [⟨.decimal 5 2, #[cents 100, cents 250, cents 300]⟩,
      ⟨.float, #[some ⟨0x3ff0000000000000⟩, some .nan, none]⟩], 3, 3⟩

/-- The argument that these calls build, with the place of its column. -/
def boundPrices : BoundSearchArgument where
  predicates := [
    ⟨⟨.name "price", .decimal, .equals (price 10 1), by decide⟩, 0⟩,
    ⟨⟨.name "price", .decimal, .between (price 3 0) (price 1 0), by decide⟩, 0⟩,
    ⟨⟨.name "price", .decimal, .lessThanEquals (price 25 1), by decide⟩, 0⟩]
  formula := .or [.atom 0, .atom 1, .not (.atom 2)]

theorem pruning_exact_prices :
    (∃ x : Bool, (boundPrices.evaluate fun _ =>
        pure (some (.ofRange (price 10 1) (price 100 2) 4))).run () =
          (.ok (if x then .yes else .no), ()) ∧
      boundPrices.verdict (fun _ => some (price 1 0)) = .ok (some x)) ∧
    ∃ f drained, build (.ofStripes prices.schema 1 [prices]) = .ok f ∧
      f.matchingRows boundPrices.argument = .ok [0, 2] ∧
      f.scanAll ⟨some boundPrices.argument, 8, none, ⟨false, false, true⟩⟩ 2 = .ok drained ∧
      drained.scan.cursor.state = .exhausted ∧ drained.rows = [0, 2] := by
  have built : SearchArgument.ofCalls priceCalls = .ok boundPrices.argument := rfl
  have hbind : boundPrices.argument.bind prices.schema = .ok boundPrices := rfl
  obtain ⟨constant, delivers⟩ := pruning_exact built
  constructor
  · have hmin : (price 10 1).compare? (price 1 0) = .ok (some .eq) := by decide +kernel
    have hmax : (price 100 2).compare? (price 1 0) = .ok (some .eq) := by decide +kernel
    have hself : (price 1 0).compare? (price 1 0) = .ok (some .eq) := by decide +kernel
    obtain ⟨x, hrun, hrows⟩ := constant _ boundPrices hbind (fun _ => price 1 0)
      ⟨by decide, by decide⟩ (fun _ => .ofRange (price 10 1) (price 100 2) 4)
      (fun _ _ => ⟨rfl, by decide, ⟨_, rfl, hmin⟩, ⟨_, rfl, hmax⟩⟩) Unit ()
    exact ⟨x, hrun, hrows _ fun _ _ => ⟨_, rfl, hself⟩⟩
  · have follow : Follow prices.schema 1 [prices] := by
      refine ⟨fun rows hrows => ?_, by decide, by decide⟩
      rw [List.mem_singleton.mp hrows]
      exact ⟨prices.columns, rfl⟩
    have hf : build (.ofStripes prices.schema 1 [prices]) = .ok _ := rfl
    obtain ⟨f, hbuild, hdelivers⟩ := delivers prices.schema [prices] _ follow hbind (by decide)
    obtain rfl := Except.ok.inj (hf.symm.trans hbuild)
    obtain ⟨matching, drained, hmatching, hdrained, -, hexhausted, hrows⟩ := hdelivers (by decide)
      ⟨some boundPrices.argument, 8, none, ⟨false, false, true⟩⟩ 2
      ⟨rfl, ⟨_, hbind⟩, by decide, ⟨_, rfl⟩⟩ rfl (by decide)
    refine ⟨_, drained, hbuild, rfl, hdrained, hexhausted, ?_⟩
    rw [hrows]
    exact (Except.ok.inj hmatching).symm

end MemoryFile

end StripeScan
