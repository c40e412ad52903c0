import TextureCache.Decode
import Mathlib.Algebra.BigOperators.Ring.List
import Mathlib.Algebra.Ring.Nat
import Mathlib.Data.List.Nodup

/-! How many bytes a texture takes. Slices that are laid out one after another fill exactly the sum
of their sizes, in graphics memory as in RGBA8, and decoding turns the one layout into the other. -/
namespace TextureCache

theorem total_eq_sum (sizes : List Nat) : total sizes = sizes.sum := rfl

theorem mipExtent_pos (size level : Nat) : 0 < mipExtent size level := Nat.le_max_left 1 _

@[simp] theorem mipExtent_zero (size : Nat) : mipExtent size 0 = max 1 size := by
  simp [mipExtent]

private theorem mipExtent_le (size level : Nat) : mipExtent size level ≤ max 1 size := by
  have halved := Nat.shiftRight_le size level
  unfold mipExtent
  omega

theorem mipExtent_max_one (size level : Nat) :
    mipExtent (max 1 size) level = mipExtent size level := by
  cases size with
  | zero =>
    have halved := Nat.shiftRight_le 1 level
    rw [mipExtent, mipExtent, Nat.zero_shiftRight]
    exact Nat.max_eq_left halved
  | succ size => rw [Nat.max_eq_right (Nat.le_add_left 1 size)]

/-- The extents of a texture are words, also at the mip levels. -/
theorem toNat_ofNat_mipExtent (size : UInt32) (level : Nat) :
    (UInt32.ofNat (mipExtent size.toNat level)).toNat = mipExtent size.toNat level := by
  have bound := size.toNat_lt
  have halved := mipExtent_le size.toNat level
  rw [UInt32.toNat_ofNat']
  apply Nat.mod_eq_of_lt
  omega

variable {sizeOf : Nat → Nat → Nat}

theorem map_slice_layOut (offset : Nat) (slices : List Slice) :
    (layOut sizeOf offset slices).map Region.slice = slices := by
  induction slices generalizing offset with
  | nil => rfl
  | cons slice rest ih => rw [layOut, List.map_cons, ih]

theorem map_size_layOut (offset : Nat) (slices : List Slice) :
    (layOut sizeOf offset slices).map Region.size =
      slices.map fun slice => sizeOf slice.width slice.height := by
  induction slices generalizing offset with
  | nil => rfl
  | cons slice rest ih => rw [layOut, List.map_cons, ih, List.map_cons]

/-- A region is as large as its slice asks for and lies within the sum of all sizes. -/
theorem bounds_of_mem_layOut {offset : Nat} {slices : List Slice} {region : Region}
    (member : region ∈ layOut sizeOf offset slices) :
    region.slice ∈ slices ∧ region.size = sizeOf region.slice.width region.slice.height ∧
      offset ≤ region.offset ∧ region.offset + region.size ≤
        offset + (slices.map fun slice => sizeOf slice.width slice.height).sum := by
  induction slices generalizing offset with
  | nil => cases member
  | cons slice rest ih =>
    rw [layOut] at member
    rw [List.map_cons, List.sum_cons]
    rcases List.mem_cons.mp member with rfl | later
    · exact ⟨List.mem_cons_self, rfl, Nat.le_refl _, by dsimp only; omega⟩
    · obtain ⟨found, size, start, stop⟩ := ih later
      exact ⟨List.mem_cons_of_mem _ found, size, by omega, by omega⟩

/-- Cutting a buffer along its layout takes it apart without a rest. -/
theorem flatMap_slice_layOut (offset : Nat) (slices : List Slice) (bytes : Bytes) :
    (layOut sizeOf offset slices).flatMap (fun region => bytes.slice region.offset region.size) =
      bytes.slice offset (slices.map fun slice => sizeOf slice.width slice.height).sum := by
  induction slices generalizing offset with
  | nil => simp [layOut, Bytes.slice]
  | cons slice rest ih =>
    rw [layOut, List.flatMap_cons, ih, List.map_cons, List.sum_cons]
    simp only [Bytes.slice, ← List.drop_drop, List.take_add]

namespace Shape

theorem mem_slices_iff {shape : Shape} {slice : Slice} :
    slice ∈ shape.slices ↔ slice.level < shape.levels.toNat ∧
      slice.index < shape.slicesAt slice.level ∧
      slice.width = mipExtent shape.width.toNat slice.level ∧
      slice.height = mipExtent shape.height.toNat slice.level := by
  unfold slices mipChain
  simp only [List.mem_flatMap, List.mem_map, List.mem_range, Shape.level]
  constructor
  · rintro ⟨_, ⟨level, inChain, rfl⟩, index, inLevel, rfl⟩
    exact ⟨inChain, inLevel, rfl, rfl⟩
  · obtain ⟨level, index, width, height⟩ := slice
    rintro ⟨inChain, inLevel, wide, high⟩
    dsimp only at wide high inChain inLevel
    subst wide high
    exact ⟨_, ⟨level, inChain, rfl⟩, index, inLevel, rfl⟩

theorem slicesAt_lt (shape : Shape) (level : Nat) : shape.slicesAt level < 2 ^ 32 := by
  unfold slicesAt
  split
  · have bound := shape.depth.toNat_lt
    have halved := mipExtent_le shape.depth.toNat level
    omega
  · exact shape.layers.toNat_lt

theorem nodup_slices (shape : Shape) : shape.slices.Nodup := by
  unfold slices mipChain
  rw [List.flatMap_map]
  apply List.pairwise_flatMap.mpr
  constructor
  · intro level _
    apply List.Nodup.map _ List.nodup_range
    intro first second same
    exact congrArg Slice.index same
  · apply List.nodup_range.imp
    intro level level' different slice member slice' member'
    rintro rfl
    obtain ⟨index, _, rfl⟩ := List.mem_map.mp member
    obtain ⟨index', _, same⟩ := List.mem_map.mp member'
    exact different (congrArg Slice.level same).symm

/-- The first slice is the first one of the top level, which is never empty. -/
theorem slices_eq_cons {shape : Shape} (mipped : 1 ≤ shape.levels)
    (filled : 1 < shape.depth ∨ 1 ≤ shape.layers) :
    ∃ rest, shape.slices =
      ⟨0, 0, mipExtent shape.width.toNat 0, mipExtent shape.height.toNat 0⟩ :: rest := by
  have top : shape.slicesAt 0 ≠ 0 := by
    unfold slicesAt
    split
    · exact Nat.ne_of_gt (Nat.le_max_left 1 _)
    · rename_i flat
      rcases filled with volume | layered
      · exact absurd (decide_eq_true volume) flat
      · exact Nat.ne_of_gt (UInt32.le_iff_toNat_le.mp layered)
  obtain ⟨lower, levels⟩ := Nat.exists_eq_succ_of_ne_zero
    (Nat.ne_of_gt (UInt32.le_iff_toNat_le.mp mipped) : shape.levels.toNat ≠ 0)
  obtain ⟨others, slices⟩ := Nat.exists_eq_succ_of_ne_zero top
  unfold Shape.slices mipChain
  rw [levels, List.range_succ_eq_map, List.map_cons, List.flatMap_cons, Shape.level, slices,
    List.range_succ_eq_map, List.map_cons, List.cons_append]
  exact ⟨_, rfl⟩

def texels (shape : Shape) : Nat :=
  (shape.mipChain.map fun level => level.width * level.height * level.slices).sum

private theorem sum_slices (shape : Shape) (sizeOf : Nat → Nat → Nat) :
    (shape.slices.map fun slice => sizeOf slice.width slice.height).sum =
      (shape.mipChain.map fun level => sizeOf level.width level.height * level.slices).sum := by
  unfold slices
  induction shape.mipChain with
  | nil => rfl
  | cons level rest ih =>
    rw [List.flatMap_cons, List.map_append, List.sum_append, ih, List.map_map, List.map_cons,
      List.sum_cons]
    simp only [Function.comp_def, List.map_const', List.length_range, List.sum_replicate_nat,
      Nat.mul_comm]

theorem rgba8Size_eq_texels (shape : Shape) : shape.rgba8Size = shape.texels * 4 := by
  unfold rgba8Size texels
  rw [← List.sum_map_mul_right]
  congr 1
  apply List.map_congr_left
  intro level _
  rw [Nat.mul_right_comm]

theorem rgba8Size_eq_sum (shape : Shape) :
    shape.rgba8Size =
      (shape.slices.map fun slice => rgba8SliceSize slice.width slice.height).sum :=
  (shape.sum_slices rgba8SliceSize).symm

end Shape

namespace PackedLayout

theorem length_toRgba8 (layout : PackedLayout) (bytes : Bytes) :
    (layout.toRgba8 bytes).length = bytes.length / 2 * 4 := by
  fun_induction PackedLayout.toRgba8 layout bytes with
  | case1 low high rest ih =>
    rw [List.length_append, ih, List.length_cons, List.length_cons, Rgba.toBytes]
    simp only [List.length_cons, List.length_nil]
    omega
  | case2 bytes short =>
    have lone : bytes.length < 2 := by
      rcases bytes with _ | ⟨low, _ | ⟨high, rest⟩⟩
      · decide
      · simp
      · exact absurd rfl (short low high rest)
    rw [Nat.div_eq_of_lt lone, List.length_nil]

end PackedLayout

namespace Texture

theorem nativeSize_eq_sum (texture : Texture) :
    texture.nativeSize = (texture.shape.mipChain.map fun level =>
      texture.format.sliceSize level.width level.height * level.slices).sum := by
  rw [nativeSize, nativeRegions, map_size_layOut]
  exact texture.shape.sum_slices texture.format.sliceSize

theorem nativeSize_of_packed {texture : Texture} {bytes : Nat}
    (packed : texture.format.storage = .packed bytes) :
    texture.nativeSize = texture.shape.texels * bytes := by
  rw [nativeSize_eq_sum, Shape.texels, ← List.sum_map_mul_right]
  congr 1
  apply List.map_congr_left
  intro level _
  rw [PixelFormat.sliceSize, packed, StorageClass.sliceSize, Nat.mul_right_comm]

/-- Formats without blocks take four bytes for a texel if they are RGBA8, else two. -/
theorem storage_of_decoder {format : PixelFormat} :
    (format.decoder? = some .identity → format.storage = .packed 4) ∧
      ∀ layout, format.decoder? = some (.packed layout) → format.storage = .packed 2 := by
  cases format <;> simp [PixelFormat.decoder?, PixelFormat.storage]

theorem length_toRgba8 {texture : Texture} {pixels : Bytes}
    (decoded : texture.toRgba8 = .ok pixels) : pixels.length = texture.shape.rgba8Size := by
  unfold toRgba8 at decoded
  cases found : texture.format.decoder? with
  | none => simp [found] at decoded
  | some decoder =>
    simp only [found] at decoded
    split at decoded
    · cases decoded
    · rename_i enough
      have taken : (texture.data.take texture.nativeSize).length = texture.nativeSize := by
        rw [List.length_take]
        omega
      cases decoder with
      | identity =>
        cases decoded
        rw [taken, nativeSize_of_packed (storage_of_decoder.1 found), Shape.rgba8Size_eq_texels]
      | packed layout =>
        cases decoded
        rw [PackedLayout.length_toRgba8, taken,
          nativeSize_of_packed (storage_of_decoder.2 layout found), Shape.rgba8Size_eq_texels,
          Nat.mul_div_cancel _ (by decide)]
      | blocks decoder =>
        cases decoded
        rw [List.length_flatMap, Shape.rgba8Size_eq_sum]
        simp only [decodeRegion, BlockDecoder.length_decodeImage]
        change (texture.nativeRegions.map
          ((fun slice : Slice => rgba8SliceSize slice.width slice.height) ∘ Region.slice)).sum = _
        rw [← List.map_map, nativeRegions, map_slice_layOut]

theorem exists_toRgba8 {texture : Texture} (supported : texture.format.isSupported = true)
    (enough : texture.nativeSize ≤ texture.data.length) :
    ∃ pixels, texture.toRgba8 = .ok pixels := by
  rw [← PixelFormat.isSome_decoder?] at supported
  obtain ⟨decoder, found⟩ := Option.isSome_iff_exists.mp supported
  unfold toRgba8
  rw [found]
  exact ⟨_, if_neg (Nat.not_lt.mpr enough)⟩

theorem toRgba8_of_short {texture : Texture} (supported : texture.format.isSupported = true)
    (short : texture.data.length < texture.nativeSize) :
    texture.toRgba8 = .error (.dataTooShort texture.nativeSize texture.data.length) := by
  rw [← PixelFormat.isSome_decoder?] at supported
  obtain ⟨decoder, found⟩ := Option.isSome_iff_exists.mp supported
  unfold toRgba8
  rw [found]
  exact if_pos short

end Texture
end TextureCache
