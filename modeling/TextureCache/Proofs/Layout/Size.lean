import Mathlib.Algebra.Order.BigOperators.Group.List
import Mathlib.Algebra.Order.Group.Nat
import TextureCache.Proofs.Dds.Size
import TextureCache.Proofs.Layout

/-! The size of an RGBA8 buffer. It can be counted level by level without leaving the machine word
as long as it fits itself, and it can be had without a walk through all levels, since those that no
shift of a word reaches are alike. -/
namespace TextureCache

namespace Shape

/-- Add the size of a level, unless a product or the sum leaves the machine word. -/
def addRgba8Level (total : Nat) (level : Level) : Option Nat := do
  let texels ← fitsWord (level.width * level.height)
  let slice ← fitsWord (texels * 4)
  let slices ← fitsWord (slice * level.slices)
  fitsWord (total + slices)

/-- The bytes of an RGBA8 buffer, counted level by level. -/
def guardedRgba8Size (shape : Shape) : Option Nat := shape.mipChain.foldlM addRgba8Level 0

private theorem addRgba8Level_eq {total : Nat} {level : Level}
    (slice : level.width * level.height * 4 < wordLimit)
    (fits : total + level.width * level.height * 4 * level.slices < wordLimit) :
    addRgba8Level total level = some (total + level.width * level.height * 4 * level.slices) := by
  unfold addRgba8Level
  rw [fitsWord_of_lt (by omega : level.width * level.height < wordLimit)]
  simp only [Option.bind_eq_bind, Option.bind_some]
  rw [fitsWord_of_lt slice]
  simp only [Option.bind_some]
  rw [fitsWord_of_lt (by omega : level.width * level.height * 4 * level.slices < wordLimit)]
  exact fitsWord_of_lt fits

private theorem foldlM_addRgba8Level {levels : List Level}
    (slice : ∀ level ∈ levels, level.width * level.height * 4 < wordLimit) (total : Nat)
    (fits : total + (levels.map fun level =>
      level.width * level.height * 4 * level.slices).sum < wordLimit) :
    levels.foldlM addRgba8Level total = some (total + (levels.map fun level =>
      level.width * level.height * 4 * level.slices).sum) := by
  induction levels generalizing total with
  | nil => rfl
  | cons level rest ih =>
    rw [List.map_cons, List.sum_cons, ← Nat.add_assoc] at fits ⊢
    have first := addRgba8Level_eq (slice level List.mem_cons_self)
      (Nat.lt_of_le_of_lt (Nat.le_add_right _ _) fits)
    rw [List.foldlM_cons, first]
    exact ih (fun other member => slice other (List.mem_cons_of_mem _ member)) _ fits

/-- A size that fits the machine word is counted without leaving it, as long as the slices of every
level do, which are multiplied out also if there are none. -/
theorem guardedRgba8Size_of_slices {shape : Shape}
    (slice : ∀ level ∈ shape.mipChain, level.width * level.height * 4 < wordLimit)
    (fits : shape.rgba8Size < wordLimit) : shape.guardedRgba8Size = some shape.rgba8Size := by
  have counted := foldlM_addRgba8Level slice 0 (by rwa [Nat.zero_add])
  rw [Nat.zero_add] at counted
  exact counted

theorem guardedRgba8Size_eq {shape : Shape} (filled : ∀ level, 0 < shape.slicesAt level)
    (fits : shape.rgba8Size < wordLimit) : shape.guardedRgba8Size = some shape.rgba8Size := by
  refine guardedRgba8Size_of_slices (fun level member => ?_) fits
  have slices : 0 < level.slices := by
    obtain ⟨index, _, rfl⟩ := List.mem_map.mp member
    exact filled index
  calc level.width * level.height * 4
      ≤ level.width * level.height * 4 * level.slices := Nat.le_mul_of_pos_right _ slices
    _ ≤ shape.rgba8Size := List.le_sum_of_mem (List.mem_map_of_mem member)
    _ < wordLimit := fits

private theorem rgba8LevelSize_of_large (shape : Shape) {index : Nat} (large : 32 ≤ index) :
    shape.rgba8LevelSize index = shape.rgba8LevelSize 32 := by
  have least (size : UInt32) {shift : Nat} (large : 32 ≤ shift) :
      mipExtent size.toNat shift = 1 := by
    have small : size.toNat < 2 ^ shift :=
      Nat.lt_of_lt_of_le size.toNat_lt (Nat.pow_le_pow_right (by decide) large)
    rw [mipExtent, Nat.shiftRight_eq_div_pow, Nat.div_eq_of_lt small]
    rfl
  simp only [rgba8LevelSize, slicesAt, least _ large, least _ (Nat.le_refl 32)]

theorem bufferSize_eq (shape : Shape) : shape.bufferSize = shape.rgba8Size := by
  have walked : shape.rgba8Size =
      ((List.range shape.levels.toNat).map shape.rgba8LevelSize).sum := by
    rw [rgba8Size, mipChain, total_eq_sum, List.map_map]
    rfl
  obtain ⟨more, levels⟩ := Nat.exists_eq_add_of_le (Nat.min_le_right 32 shape.levels.toNat)
  have alike : ∀ index ∈ List.range more,
      shape.rgba8LevelSize (min 32 shape.levels.toNat + index) = shape.rgba8LevelSize 32 := by
    intro index inside
    have some := List.mem_range.mp inside
    exact rgba8LevelSize_of_large shape (by omega)
  rw [bufferSize, walked, total_eq_sum]
  generalize min 32 shape.levels.toNat = varied at levels alike ⊢
  rw [levels, List.range_add, List.map_append, List.sum_append, List.map_map,
    Nat.add_sub_cancel_left]
  refine congrArg _ ?_
  calc more * shape.rgba8LevelSize 32
      = ((List.range more).map fun _ => shape.rgba8LevelSize 32).sum := by
        rw [List.map_const', List.length_range, List.sum_replicate_nat]
    _ = ((List.range more).map (shape.rgba8LevelSize ∘ (varied + ·))).sum :=
        congrArg List.sum (List.map_congr_left alike).symm

end Shape
end TextureCache
