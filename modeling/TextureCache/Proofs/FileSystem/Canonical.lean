import Mathlib.Data.List.Basic
import TextureCache.Proofs.FileSystem.Separate
import TextureCache.Storage

/-! Resolved directories. Where a way ends, no dots, parents or empty names are left of it, so the
path of a location spells its steps one by one. Two resolved paths with the same steps are the same
path. -/
namespace TextureCache

namespace Path

/-- A segment stands for a step of its own name exactly when it is no blank, dot or parent. -/
theorem componentOf_of_plain {name : String}
    (plain : FileSystem.LastStep.ofSegment name = .name name) :
    componentOf name = some (.name name) := by
  obtain ⟨proper, notCurrent, notParent⟩ := FileSystem.LastStep.ofSegment_eq_name_iff.mp plain
  unfold componentOf
  split
  · exact absurd rfl proper
  · exact absurd rfl notCurrent
  · exact absurd rfl notParent
  · rfl

/-- Only names of entries, of which none stands for another step. -/
def PlainNames (names : List String) : Prop :=
  ∀ name ∈ names, FileSystem.LastStep.ofSegment name = .name name

private theorem filterMap_componentOf {names : List String} (plain : PlainNames names) :
    names.filterMap componentOf = names.map .name := by
  rw [← List.filterMap_eq_map]
  exact List.filterMap_congr fun name member => componentOf_of_plain (plain name member)

/-- The steps of the path of a location are the root and the names that lead there. -/
theorem components_ofNames {names : List String} (plain : PlainNames names) :
    (ofNames names).components = .root :: names.map .name := by
  cases names with
  | nil => rfl
  | cons first rest =>
    change .root :: (first :: rest).filterMap componentOf = _
    rw [filterMap_componentOf plain]

/-- A path from the root without blanks, dots and parents. -/
def IsResolved (path : Path) : Prop := ∃ names, path = ofNames names ∧ PlainNames names

theorem IsResolved.eq_of_components {first second : Path} (resolved : first.IsResolved)
    (resolved' : second.IsResolved) (same : first.components = second.components) :
    first = second := by
  obtain ⟨names, rfl, plain⟩ := resolved
  obtain ⟨names', rfl, plain'⟩ := resolved'
  rw [components_ofNames plain, components_ofNames plain'] at same
  have steps := (List.cons.inj same).2
  rw [List.map_injective_iff.mpr (fun _ _ equal => Component.name.inj equal) steps]

end Path

namespace FileSystem

variable {files : FileSystem} {location : Location}

end FileSystem
end TextureCache
