import TextureCache.Dds.Layout
import TextureCache.Proofs.Layout

/-! The size of a DDS payload. The count in machine words that stops at the first excess is the
exact size whenever that fits a word, and fails in all other cases: no intermediate product or
sum is larger than the whole. -/
namespace TextureCache

theorem fitsWord_eq_some_iff {value result : Nat} :
    fitsWord value = some result ↔ value < wordLimit ∧ result = value := by
  unfold fitsWord
  split
  · rename_i fits
    simp [fits, eq_comm]
  · rename_i exceeds
    simp [exceeds]

theorem fitsWord_of_lt {value : Nat} (fits : value < wordLimit) : fitsWord value = some value :=
  fitsWord_eq_some_iff.mpr ⟨fits, rfl⟩

theorem fitsWord_eq_none_iff {value : Nat} : fitsWord value = none ↔ wordLimit ≤ value := by
  simp [fitsWord]

/-- A factor that fits on the way to a larger product need not be checked. -/
theorem fitsWord_bind_mul (value factor : Nat) (positive : 0 < factor) :
    (fitsWord value).bind (fun value => fitsWord (value * factor)) = fitsWord (value * factor) := by
  cases checked : fitsWord value with
  | some result =>
    obtain ⟨_, rfl⟩ := fitsWord_eq_some_iff.mp checked
    rfl
  | none =>
    have exceeds := fitsWord_eq_none_iff.mp checked
    have grows := Nat.le_mul_of_pos_right value positive
    exact (fitsWord_eq_none_iff.mpr (Nat.le_trans exceeds grows)).symm

private theorem divCeil_le {count more : Nat} (least : count ≤ more) (size : Nat) :
    divCeil count size ≤ divCeil more size := by
  unfold divCeil
  exact Nat.div_le_div_right (by omega)

theorem StorageClass.sliceSize_le (storage : StorageClass) {width wider height higher : Nat}
    (wide : width ≤ wider) (high : height ≤ higher) :
    storage.sliceSize width height ≤ storage.sliceSize wider higher := by
  cases storage with
  | packed bytes => exact Nat.mul_le_mul_right bytes (Nat.mul_le_mul wide high)
  | block across down bytes =>
    have across := divCeil_le wide across
    have down := divCeil_le high down
    exact Nat.mul_le_mul_right bytes (Nat.mul_le_mul across down)

/-- The checked size of a slice is the exact one, if that fits a word. -/
theorem StoredFormat.checkedSliceSize_eq (format : StoredFormat) (width height : Nat) :
    format.checkedSliceSize width height = fitsWord (format.sliceSize width height) := by
  unfold checkedSliceSize sliceSize
  cases format <;> exact fitsWord_bind_mul _ _ (by decide)

namespace ImageInfo

theorem slicesAt_pos (info : ImageInfo) (level : Nat) : 0 < info.slicesAt level := by
  unfold slicesAt
  split
  · exact mipExtent_pos _ _
  · exact Nat.le_max_left 1 _

def levelSize (info : ImageInfo) (level : Level) : Nat := info.sliceSize level * level.slices

theorem exactSize_eq_sum (info : ImageInfo) :
    info.exactSize = (info.mipChain.map info.levelSize).sum := rfl

private theorem addLevel_eq (info : ImageInfo) (total : Nat) {level : Level}
    (positive : 0 < level.slices) :
    info.addLevel total level = fitsWord (info.levelSize level + total) := by
  have slices := fitsWord_bind_mul (info.sliceSize level) level.slices positive
  unfold addLevel levelSize
  rw [StoredFormat.checkedSliceSize_eq]
  change (fitsWord (info.sliceSize level)).bind (fun slice =>
    (fitsWord (slice * level.slices)).bind fun slices => fitsWord (slices + total)) = _
  rw [← Option.bind_assoc, slices]
  cases checked : fitsWord (info.sliceSize level * level.slices) with
  | some result =>
    obtain ⟨_, rfl⟩ := fitsWord_eq_some_iff.mp checked
    rfl
  | none =>
    have exceeds := fitsWord_eq_none_iff.mp checked
    exact (fitsWord_eq_none_iff.mpr (by omega)).symm

/-- A count that starts below the limit ends with the exact sum, or with none if that is too
large. -/
theorem foldlM_addLevel (info : ImageInfo) (levels : List Level) (total : Nat)
    (positive : ∀ level ∈ levels, 0 < level.slices) (fits : total < wordLimit) :
    levels.foldlM info.addLevel total = fitsWord (total + (levels.map info.levelSize).sum) := by
  induction levels generalizing total with
  | nil => simp [fitsWord_of_lt fits]
  | cons level rest ih =>
    have others : ∀ level ∈ rest, 0 < level.slices :=
      fun other member => positive other (List.mem_cons_of_mem level member)
    rw [List.foldlM_cons, info.addLevel_eq total (positive level List.mem_cons_self),
      List.map_cons, List.sum_cons]
    cases checked : fitsWord (info.levelSize level + total) with
    | some result =>
      obtain ⟨below, rfl⟩ := fitsWord_eq_some_iff.mp checked
      change rest.foldlM info.addLevel (info.levelSize level + total) = _
      rw [ih _ others below]
      congr 1
      omega
    | none =>
      have exceeds := fitsWord_eq_none_iff.mp checked
      exact (fitsWord_eq_none_iff.mpr (by omega)).symm

theorem slices_pos_of_mem_mipChain (info : ImageInfo) {level : Level}
    (member : level ∈ info.mipChain) : 0 < level.slices := by
  obtain ⟨index, _, rfl⟩ := List.mem_map.mp member
  exact info.slicesAt_pos index

theorem checkedSize_eq (info : ImageInfo) : info.checkedSize = fitsWord info.exactSize := by
  have folded := info.foldlM_addLevel info.mipChain 0
    (fun _ member => info.slices_pos_of_mem_mipChain member) (by decide)
  rw [checkedSize_eq_foldlM, folded, Nat.zero_add, exactSize_eq_sum]

theorem checkedSize_eq_some_iff {info : ImageInfo} {size : Nat} :
    info.checkedSize = some size ↔ info.exactSize < wordLimit ∧ size = info.exactSize := by
  rw [checkedSize_eq, fitsWord_eq_some_iff]

theorem payloadSize_eq {info : ImageInfo} (fits : info.exactSize < wordLimit) :
    info.payloadSize = info.exactSize := by
  rw [payloadSize, checkedSize_eq, fitsWord_of_lt fits, Option.getD_some]

end ImageInfo
end TextureCache
