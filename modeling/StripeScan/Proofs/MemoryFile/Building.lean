import StripeScan.MemoryFile.Build
import StripeScan.Proofs.MemoryFile.Reading

/-! # Building files in memory

A file that is built has the schema, the stride and the rows of its specification, whatever is
replaced (`build_realizes`): replacing touches statistics only.  So it is well formed if the stripes
follow the schema (`build_wellFormed`). -/

namespace StripeScan

namespace MemoryFile

variable {schema : Schema} {stride : ℕ}

theorem deriveStripe_rows {rows : Batch} {m : MemoryStripe}
    (h : deriveStripe schema stride rows = .ok m) : m.rows = rows := by
  obtain ⟨groups, -, h⟩ := bind_eq_ok_iff.mp h
  obtain ⟨statistics, -, h⟩ := bind_eq_ok_iff.mp h
  cases h
  rfl

theorem deriveAll_rows {stripes : List Batch} {ms : List MemoryStripe}
    {file : List (Option Statistics)} (h : deriveAll schema stride stripes = .ok (ms, file)) :
    ms.map (·.rows) = stripes := by
  refine foldlM_preserves (P := fun done p => p.1.map (·.rows) = done) h rfl ?_
  rintro done rows ⟨ms, acc⟩ ⟨ms', acc'⟩ hstep hdone
  obtain ⟨m, hm, hstep⟩ := bind_eq_ok_iff.mp hstep
  obtain ⟨merged, -, hstep⟩ := bind_eq_ok_iff.mp hstep
  cases hstep
  show (ms ++ [m]).map (·.rows) = done ++ [rows]
  rw [List.map_append, List.map_singleton, deriveStripe_rows hm]
  exact congrArg (· ++ [rows]) hdone

variable {spec : Spec} {f g : MemoryFile}

/-- Whether a file is what a specification says, whatever its statistics are. -/
structure Realizes (f : MemoryFile) (spec : Spec) : Prop where
  schema_eq : f.schema = spec.schema
  stride_eq : f.stride = spec.stride
  rows_eq : f.stripes.map (·.rows) = spec.stripes
  groupCounts_eq : f.groupCounts = spec.groupCounts.reverse
  failsRows_eq : f.failsRows = spec.failsRows
  failsStatistics_eq : f.failsStatistics = spec.failsStatistics

section replacing

variable (hf : f.Realizes spec)

include hf

theorem Realizes.set {i : ℕ} {old m : MemoryStripe} (hold : f.stripes[i]? = some old)
    (hrows : m.rows = old.rows) : Realizes { f with stripes := f.stripes.set i m } spec where
  schema_eq := hf.schema_eq
  stride_eq := hf.stride_eq
  rows_eq := by
    rw [← hf.rows_eq]
    obtain ⟨hi, rfl⟩ := List.getElem?_eq_some_iff.mp hold
    refine List.ext_getElem (by simp) fun j _ _ => ?_
    rw [List.getElem_map, List.getElem_map, List.getElem_set]
    split
    · rename_i hij
      subst hij
      exact hrows
    · rfl
  groupCounts_eq := hf.groupCounts_eq
  failsRows_eq := hf.failsRows_eq
  failsStatistics_eq := hf.failsStatistics_eq

/-- Replacing statistics keeps everything else. -/
theorem Realizes.replaceInFile {r : Replacement Unit} (h : replaceInFile f r = .ok g) :
    g.Realizes spec := by
  obtain ⟨statistics, -, h⟩ := bind_eq_ok_iff.mp h
  cases h
  exact { hf with }

theorem Realizes.replaceInStripe {r : Replacement ℕ} (h : replaceInStripe f r = .ok g) :
    g.Realizes spec := by
  unfold MemoryFile.replaceInStripe at h
  split at h
  · cases h
  · rename_i m hm
    obtain ⟨statistics, -, h⟩ := bind_eq_ok_iff.mp h
    cases h
    exact hf.set hm rfl

theorem Realizes.replaceInGroup {r : Replacement (ℕ × ℕ)} (h : replaceInGroup f r = .ok g) :
    g.Realizes spec := by
  unfold MemoryFile.replaceInGroup at h
  simp only at h
  split at h
  · cases h
  · rename_i m hm
    split at h
    · cases h
    · obtain ⟨columns, -, h⟩ := bind_eq_ok_iff.mp h
      cases h
      exact hf.set hm rfl

end replacing

/-- A file that is built is what its specification says. -/
theorem build_realizes (h : build spec = .ok f) : f.Realizes spec := by
  obtain ⟨⟨ms, file⟩, hderived, h⟩ := bind_eq_ok_iff.mp h
  obtain ⟨f₁, h₁, h⟩ := bind_eq_ok_iff.mp h
  obtain ⟨f₂, h₂, h₃⟩ := bind_eq_ok_iff.mp h
  have hrows := deriveAll_rows (mapError_eq_ok_iff.mp hderived)
  have keeps {ι : Type} {replace : MemoryFile → Replacement ι → Except BuildError MemoryFile}
      (hreplace : ∀ {f r g}, f.Realizes spec → replace f r = .ok g → g.Realizes spec)
      {rs : List (Replacement ι)} {f g : MemoryFile} (hf : f.Realizes spec)
      (hfold : rs.foldlM replace f = .ok g) : g.Realizes spec :=
    foldlM_preserves (P := fun _ g => g.Realizes spec) hfold hf fun _ _ _ _ hstep hg =>
      hreplace hg hstep
  have hfile := keeps (fun hf h => hf.replaceInFile h) ⟨rfl, rfl, hrows, rfl, rfl, rfl⟩ h₁
  have hstripe := keeps (fun hf h => hf.replaceInStripe h) hfile h₂
  exact keeps (fun hf h => hf.replaceInGroup h) hstripe h₃

/-- A file that is built of stripes that follow its schema is well formed. -/
theorem build_wellFormed (follow : Follow spec.schema spec.stride spec.stripes)
    (h : build spec = .ok f) : f.WellFormed := by
  have realizes := build_realizes h
  rw [WellFormed, realizes.schema_eq, realizes.stride_eq, realizes.rows_eq]
  exact follow

end MemoryFile

end StripeScan
