import TextureCache.Proofs.Dds.Texture
import TextureCache.Proofs.Layout.Tiling

/-! A texture and the image that it is written as are laid out alike, each in its own way: a texture
is a volume if it has more than one depth slice, and an image if its target is, and a texture counts
its depth and layers by themselves where an image has one count for both. For every shape that a
target admits, both go through the same levels with as many slices of the same size. -/
namespace TextureCache

/-- The levels of an image in words, largest first. -/
def ImageInfo.wordLevels (info : ImageInfo) : List Level :=
  (List.range info.levels.toNat).map fun index =>
    let extent size := (wordMipExtent size (UInt32.ofNat index)).toNat
    { index
      width := extent info.width
      height := extent info.height
      slices :=
        if info.dimensions = .volume then extent info.depthOrLayers
        else (max 1 info.depthOrLayers).toNat }

private theorem ImageInfo.wordLevels_eq (info : ImageInfo) : info.wordLevels = info.mipChain := by
  refine List.map_congr_left fun index member => ?_
  have word : (UInt32.ofNat index).toNat = index :=
    UInt32.toNat_ofNat_of_lt' (Nat.lt_trans (List.mem_range.mp member) info.levels.toNat_lt)
  simp only [toNat_wordMipExtent, word, UInt32.toNat_max]
  rfl

/-- Textures of a target are stored, and in an arrangement that suits a shape. -/
def Target.Admits (target : Target) (shape : Shape) : Prop :=
  ∃ dimensions, target.dimensions? = some dimensions ∧ dimensions.Suits shape

namespace ExportJob

variable {texture : Texture} {dimensions : Dimensions} {stored : StoredFormat}

private theorem wordLevels_ddsInfo (suits : dimensions.Suits texture.shape) :
    (ddsInfo texture stored dimensions).wordLevels = (LevelWalk.start texture.shape).levels := by
  rw [ImageInfo.wordLevels_eq, mipChain_ddsInfo suits, LevelWalk.levels_start]

private theorem sliceSize_of_ofNative? {format : PixelFormat}
    (named : StoredFormat.ofNative? format = some stored) (width height : Nat) :
    stored.sliceSize width height = format.sliceSize width height := by
  rw [StoredFormat.sliceSize, PixelFormat.sliceSize, storage_of_ofNative? named]

/-- No level is without slices, so one slice takes no more than all. -/
theorem sliceSize_le_exactSize {info : ImageInfo} {level : Level} (member : level ∈ info.mipChain) :
    info.sliceSize level ≤ info.exactSize :=
  (Nat.le_mul_of_pos_right _ (info.slices_pos_of_mem_mipChain member)).trans
    (Dds.levelSize_le info member)

private theorem walkedRegions?_of_suits (suits : dimensions.Suits texture.shape)
    (named : StoredFormat.ofNative? texture.format = some stored)
    (fits : texture.nativeSize < wordLimit) :
    texture.walkedRegions? = some texture.nativeRegions := by
  refine Texture.walkedRegions?_of_native (fun level member => ?_) fits
  have chain : (ddsInfo texture stored dimensions).mipChain = _ := mipChain_ddsInfo suits
  rw [← chain] at member
  have slice := sliceSize_le_exactSize member
  rw [exactSize_ddsInfo_native suits named] at slice
  rw [← sliceSize_of_ofNative? named]
  exact Nat.lt_of_le_of_lt slice fits

private theorem walkedRgba8Size?_of_suits (suits : dimensions.Suits texture.shape)
    (fits : texture.shape.rgba8Size < wordLimit) :
    texture.shape.walkedRgba8Size? = some texture.shape.rgba8Size := by
  rw [Shape.walkedRgba8Size?, LevelWalk.levels_start]
  refine Shape.guardedRgba8Size_eq (fun index => ?_) fits
  have slices : (ddsInfo texture .rgba8 dimensions).slicesAt index = _ :=
    slicesAt_ddsInfo suits index
  rw [← slices]
  exact ImageInfo.slicesAt_pos _ index

end ExportJob

namespace Texture

open ExportJob

/-- The layout of a texture and that of its image agree. Their levels are the same in machine words,
with the same extents and as many slices, at any depth of the chain. Where the format is one of
image files, a slice has the same size in both, and the payload takes what the slices of the texture
take together; and the payload in RGBA8 takes what the pixels of the texture take. -/
theorem layouts_agree (texture : Texture) (admits : texture.target.Admits texture.shape) :
    ∃ dimensions, texture.target.dimensions? = some dimensions ∧
      texture.shape.depthOrLayers.toNat =
        texture.shape.depth.toNat * texture.shape.layers.toNat ∧
      (∀ stored, (ddsInfo texture stored dimensions).wordLevels =
        (LevelWalk.start texture.shape).levels) ∧
      (∀ stored, StoredFormat.ofNative? texture.format = some stored →
        let info := ddsInfo texture stored dimensions
        (∀ level ∈ info.wordLevels, stored.sliceSize level.width level.height =
          texture.format.sliceSize level.width level.height) ∧
        (texture.nativeSize < 2 ^ 64 →
          (∀ level ∈ info.wordLevels, stored.checkedSliceSize level.width level.height =
            some (texture.format.sliceSize level.width level.height)) ∧
          ∃ regions, texture.walkedRegions? = some regions ∧
            info.payloadSize = (regions.map Region.size).sum)) ∧
      (texture.shape.rgba8Size < 2 ^ 64 →
        texture.shape.walkedRgba8Size? = some (ddsInfo texture .rgba8 dimensions).payloadSize) := by
  obtain ⟨dimensions, arranged, suits⟩ := admits
  refine ⟨dimensions, arranged, suits.toNat_depthOrLayers,
    fun stored => wordLevels_ddsInfo suits, ?_, ?_⟩
  · intro stored named info
    have native : info.exactSize = texture.nativeSize := exactSize_ddsInfo_native suits named
    refine ⟨fun level _ => sliceSize_of_ofNative? named _ _, fun fits => ⟨?_, ?_⟩⟩
    · intro level member
      rw [ImageInfo.wordLevels_eq] at member
      have slice : stored.sliceSize level.width level.height ≤ info.exactSize :=
        sliceSize_le_exactSize member
      rw [StoredFormat.checkedSliceSize_eq, ← sliceSize_of_ofNative? named]
      exact fitsWord_of_lt (Nat.lt_of_le_of_lt slice (native ▸ fits))
    · refine ⟨_, walkedRegions?_of_suits suits named fits, ?_⟩
      rw [ImageInfo.payloadSize_eq (native ▸ fits), native, Texture.nativeSize,
        total_eq_sum]
  · intro fits
    have pixels : (ddsInfo texture .rgba8 dimensions).exactSize = texture.shape.rgba8Size :=
      exactSize_ddsInfo_rgba8 suits
    rw [ImageInfo.payloadSize_eq (pixels ▸ fits), pixels]
    exact walkedRgba8Size?_of_suits suits fits

/-- A volume of five depth slices in blocks, with levels down to one that no shift of a word
reaches. -/
theorem layouts_agree_volume :
    let texture : Texture := ⟨⟨6, 3, 5, 1, 34⟩, .bc1 .linear, .texture3D, []⟩
    texture.target.Admits texture.shape ∧
      (ddsInfo texture .bc1 .volume).wordLevels = (LevelWalk.start texture.shape).levels ∧
      (∃ regions, texture.walkedRegions? = some regions ∧
        (ddsInfo texture .bc1 .volume).payloadSize = (regions.map Region.size).sum ∧
        (ddsInfo texture .bc1 .volume).payloadSize = 352) ∧
      texture.shape.walkedRgba8Size? = some (ddsInfo texture .rgba8 .volume).payloadSize := by
  intro texture
  have admits : texture.target.Admits texture.shape :=
    ⟨.volume, rfl, Dimensions.suits_volume_iff.mpr ⟨by decide, rfl⟩⟩
  obtain ⟨dimensions, arranged, _, levels, native, pixels⟩ := layouts_agree texture admits
  cases arranged
  obtain ⟨regions, walked, size⟩ := ((native .bc1 rfl).2 (by decide +kernel)).2
  exact ⟨admits, levels .bc1, ⟨regions, walked, size, by decide +kernel⟩,
    pixels (by decide +kernel)⟩

end Texture
end TextureCache
