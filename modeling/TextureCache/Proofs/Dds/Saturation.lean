import Mathlib.Algebra.Order.Floor.Div
import TextureCache.Proofs.Dds.Canonical

/-! The size of a payload as a machine counts it. It is the sum over all levels of the blocks across
times the blocks down times the bytes of a block times the slices, or the largest machine word if
that sum is too large; no count gives up before the sum is too large. Where the sum fits, so does
every number on the way to the places of the slices. -/
namespace TextureCache

theorem mipExtent_eq_div (size level : Nat) : mipExtent size level = max 1 (size / 2 ^ level) := by
  rw [mipExtent, Nat.shiftRight_eq_div_pow]

private theorem divCeil_eq_ceilDiv (count size : Nat) : divCeil count size = count ⌈/⌉ size :=
  (Nat.ceilDiv_eq_add_pred_div count size).symm

/-- Texels across and down one block and the bytes of a block; a texel by itself is a block of
one. -/
def StorageClass.unit : StorageClass → Nat × Nat × Nat
  | packed bytes => (1, 1, bytes)
  | block across down bytes => (across, down, bytes)

private theorem StorageClass.sliceSize_eq_ceilDiv (storage : StorageClass) (width height : Nat) :
    storage.sliceSize width height =
      (width ⌈/⌉ storage.unit.1) * (height ⌈/⌉ storage.unit.2.1) * storage.unit.2.2 := by
  cases storage with
  | packed bytes => simp only [sliceSize, unit, Nat.ceilDiv_eq_add_pred_div, Nat.div_one,
      Nat.add_sub_cancel]
  | block across down bytes => simp only [sliceSize, unit, divCeil_eq_ceilDiv]

namespace ImageInfo

def formulaSize (info : ImageInfo) (level : Nat) : Nat :=
  let (across, down, bytes) := info.format.storage.unit
  let width := max 1 (info.width.toNat / 2 ^ level)
  let height := max 1 (info.height.toNat / 2 ^ level)
  let slices :=
    if info.dimensions = .volume then max 1 (info.depthOrLayers.toNat / 2 ^ level)
    else max 1 info.depthOrLayers.toNat
  (width ⌈/⌉ across) * (height ⌈/⌉ down) * bytes * slices

private theorem levelSize_eq_formula (info : ImageInfo) (index : Nat) :
    info.levelSize (info.level index) = info.formulaSize index := by
  unfold levelSize sliceSize StoredFormat.sliceSize formulaSize
  rw [StorageClass.sliceSize_eq_ceilDiv]
  simp only [level, slicesAt, mipExtent_eq_div]

private theorem exactSize_eq_formula (info : ImageInfo) :
    info.exactSize = ((List.range info.levels.toNat).map info.formulaSize).sum := by
  rw [exactSize_eq_sum, mipChain, List.map_map]
  exact congrArg List.sum (List.map_congr_left fun index _ => info.levelSize_eq_formula index)

theorem payloadSize_eq_min (info : ImageInfo) :
    info.payloadSize = min info.exactSize (wordLimit - 1) := by
  rw [payloadSize, checkedSize_eq]
  unfold fitsWord
  split
  · rename_i fits
    exact (Nat.min_eq_left (Nat.le_sub_one_of_lt fits)).symm
  · rename_i exceeds
    exact (Nat.min_eq_right ((Nat.sub_le _ _).trans (Nat.not_lt.mp exceeds))).symm

end ImageInfo

namespace Dds

/-- The first level or row whose size the header gives is counted within the machine word. -/
theorem checkedSliceSize_pitch {info : ImageInfo} (levels : 1 ≤ info.levels.toNat)
    (fits : info.exactSize < wordLimit) :
    info.format.checkedSliceSize info.width.toNat
      (if isBlock info.format then info.height.toNat else 1) = some (pitchSize info) := by
  rw [StoredFormat.checkedSliceSize_eq]
  exact fitsWord_of_lt (pitchSize_lt levels fits)

/-- The size of a payload is the sum of the formula for its levels if that is a machine word, and
the largest machine word otherwise. If it is one, then nothing leaves the machine word where it is
not checked: no size, product or running sum on the way to the places of an image that is no volume,
no place itself, and not the size that goes into the header of an image with a level. -/
theorem payloadSize_saturates (info : ImageInfo) :
    let total := ((List.range info.levels.toNat).map info.formulaSize).sum
    info.payloadSize = min total (2 ^ 64 - 1) ∧
    (total < 2 ^ 64 →
      (info.dimensions ≠ .volume →
        guardedMoves info = some (layerMajorMoves info) ∧
        ∀ move ∈ layerMajorMoves info,
          move.disk + move.size < 2 ^ 64 ∧ move.memory + move.size < 2 ^ 64) ∧
      (1 ≤ info.levels.toNat →
        info.format.checkedSliceSize info.width.toNat
          (if isBlock info.format then info.height.toNat else 1) = some (pitchSize info))) := by
  intro total
  have exact : info.exactSize = total := info.exactSize_eq_formula
  rw [← exact]
  refine ⟨info.payloadSize_eq_min, fun fits => ⟨fun flat => ⟨guardedMoves_eq flat fits, ?_⟩,
    fun levels => checkedSliceSize_pitch levels fits⟩⟩
  intro move member
  obtain ⟨disk, memory⟩ := move_bounds flat member
  exact ⟨Nat.lt_of_le_of_lt disk fits, Nat.lt_of_le_of_lt memory fits⟩

/-- The largest square in blocks of eight bytes fits, and in blocks of sixteen it is the first that
does not. -/
theorem payloadSize_saturates_square :
    let eight : ImageInfo := ⟨4294967295, 4294967295, 1, 1, .bc1, .flat⟩
    let sixteen : ImageInfo := ⟨4294967295, 4294967295, 1, 1, .bc2, .flat⟩
    eight.payloadSize = 2 ^ 63 ∧ guardedMoves eight = some (layerMajorMoves eight) ∧
      sixteen.payloadSize = 2 ^ 64 - 1 := by
  intro eight sixteen
  have fits : ((List.range eight.levels.toNat).map eight.formulaSize).sum = 2 ^ 63 := by
    decide +kernel
  have exceeds : ((List.range sixteen.levels.toNat).map sixteen.formulaSize).sum = 2 ^ 64 := by
    decide +kernel
  obtain ⟨exact, within⟩ := payloadSize_saturates eight
  have saturated := (payloadSize_saturates sixteen).1
  rw [fits] at exact within
  rw [exceeds] at saturated
  exact ⟨exact, ((within (by decide)).1 (by decide)).1, saturated⟩

end Dds
end TextureCache
