import TextureCache.Export.Plan
import TextureCache.Proofs.Dds.Header
import TextureCache.Proofs.Dds.Size
import TextureCache.Proofs.Layout

/-! The DDS image that a texture is written as. A texture whose extents suit its target has in the
file the levels and slices that it has in memory, so its native size is the payload's, and what is
decoded to RGBA8 fills a payload of that format. -/
namespace TextureCache

variable {texture : Texture} {dimensions : Dimensions} {stored : StoredFormat}

def Target.AsksFor (target : Target) (depth layers : UInt32) : Prop :=
  match target with
  | .texture2D => depth = 1 ∧ layers = 1
  | .texture2DArray => depth = 1 ∧ 1 ≤ layers.toNat
  | .texture3D => 1 ≤ depth.toNat ∧ layers = 1
  | .cubemap => depth = 1 ∧ layers = 6
  | .cubemapArray => depth = 1 ∧ 1 ≤ layers.toNat ∧ layers.toNat % 6 = 0
  | .texture1D | .textureBuffer => False

/-- A texture with pixels, whose outer form is that of its target. -/
structure Texture.Consistent (texture : Texture) : Prop where
  width : 1 ≤ texture.shape.width.toNat
  height : 1 ≤ texture.shape.height.toNat
  levels : 1 ≤ texture.shape.levels.toNat ∧ texture.shape.levels.toNat ≤ 32
  extents : texture.target.AsksFor texture.shape.depth texture.shape.layers

/-- A volume has one layer, and any other image has one depth slice. -/
def Dimensions.Suits (dimensions : Dimensions) (shape : Shape) : Prop :=
  if dimensions = .volume then 1 ≤ shape.depth.toNat ∧ shape.layers = 1
  else shape.depth = 1 ∧ 1 ≤ shape.layers.toNat

theorem Dimensions.suits_volume_iff {shape : Shape} :
    Dimensions.volume.Suits shape ↔ 1 ≤ shape.depth.toNat ∧ shape.layers = 1 := Iff.rfl

private theorem Dimensions.suits_iff_of_ne {shape : Shape} (flat : dimensions ≠ .volume) :
    dimensions.Suits shape ↔ shape.depth = 1 ∧ 1 ≤ shape.layers.toNat := by
  rw [Suits, if_neg flat]

/-- Depth or layers are one, so their product is the other. -/
theorem Dimensions.Suits.toNat_depthOrLayers {shape : Shape} (suits : dimensions.Suits shape) :
    shape.depthOrLayers.toNat = shape.depth.toNat * shape.layers.toNat := by
  unfold Shape.depthOrLayers
  by_cases volume : dimensions = .volume
  · subst volume
    obtain ⟨_, layers⟩ := Dimensions.suits_volume_iff.mp suits
    simp [layers]
  · obtain ⟨depth, _⟩ := (Dimensions.suits_iff_of_ne volume).mp suits
    simp [depth]

namespace ExportJob

theorem slicesAt_ddsInfo (suits : dimensions.Suits texture.shape) (index : Nat) :
    (ddsInfo texture stored dimensions).slicesAt index = texture.shape.slicesAt index := by
  have arranged : (ddsInfo texture stored dimensions).dimensions = dimensions := rfl
  unfold ImageInfo.slicesAt Shape.slicesAt Shape.isVolume
  rw [arranged]
  by_cases volume : dimensions = .volume
  · subst volume
    obtain ⟨depth, layers⟩ := Dimensions.suits_volume_iff.mp suits
    have count : (ddsInfo texture stored .volume).depthOrLayers = texture.shape.depth := by
      simp [ddsInfo, Shape.depthOrLayers, layers]
    rw [if_pos rfl, count]
    by_cases deep : texture.shape.depth > 1
    · rw [if_pos (decide_eq_true deep)]
    · have single : texture.shape.depth.toNat = 1 := by
        have bound := UInt32.not_lt.mp deep
        have most : texture.shape.depth.toNat ≤ 1 := UInt32.le_iff_toNat_le.mp bound
        omega
      rw [if_neg (by simpa using deep), layers, single]
      cases index with
      | zero => rfl
      | succ index => simp [mipExtent, Nat.shiftRight_succ_inside]
  · obtain ⟨depth, layers⟩ := (Dimensions.suits_iff_of_ne volume).mp suits
    have count : (ddsInfo texture stored dimensions).depthOrLayers = texture.shape.layers := by
      simp [ddsInfo, Shape.depthOrLayers, depth]
    rw [if_neg volume, count, depth, if_neg (by decide), Nat.max_eq_right layers]

theorem mipChain_ddsInfo (suits : dimensions.Suits texture.shape) :
    (ddsInfo texture stored dimensions).mipChain = texture.shape.mipChain := by
  unfold ImageInfo.mipChain Shape.mipChain
  apply List.map_congr_left
  intro index _
  unfold ImageInfo.level Shape.level
  rw [slicesAt_ddsInfo suits]
  rfl

theorem storage_of_ofNative? {format : PixelFormat}
    (named : StoredFormat.ofNative? format = some stored) : stored.storage = format.storage := by
  cases format <;> simp only [StoredFormat.ofNative?, Option.some.injEq, reduceCtorEq] at named <;>
    subst named <;> rfl

/-- A texture that is stored unchanged takes in the file what it takes in memory. -/
theorem exactSize_ddsInfo_native (suits : dimensions.Suits texture.shape)
    (named : StoredFormat.ofNative? texture.format = some stored) :
    (ddsInfo texture stored dimensions).exactSize = texture.nativeSize := by
  rw [ImageInfo.exactSize_eq_sum, mipChain_ddsInfo suits, Texture.nativeSize_eq_sum]
  unfold ImageInfo.levelSize ImageInfo.sliceSize StoredFormat.sliceSize PixelFormat.sliceSize
  rw [← storage_of_ofNative? named]
  rfl

theorem exactSize_ddsInfo_rgba8 (suits : dimensions.Suits texture.shape) :
    (ddsInfo texture .rgba8 dimensions).exactSize = texture.shape.rgba8Size := by
  rw [ImageInfo.exactSize_eq_sum, mipChain_ddsInfo suits]
  rfl

theorem canStore_rgba8 (dimensions : Dimensions) : Dds.canStore .rgba8 dimensions = true := by
  cases dimensions <;> rfl

end ExportJob

namespace Texture.Consistent

/-- Every target with a consistent shape has an arrangement, which the shape suits. -/
theorem exists_dimensions (consistent : texture.Consistent) :
    ∃ dimensions, texture.target.dimensions? = some dimensions ∧
      dimensions.Suits texture.shape := by
  have extents := consistent.extents
  cases target : texture.target with
  | texture1D | textureBuffer =>
    rw [target] at extents
    exact extents.elim
  | texture2D =>
    rw [target] at extents
    exact ⟨.flat, rfl, extents.1, by rw [extents.2]; decide⟩
  | texture2DArray =>
    rw [target] at extents
    exact ⟨.flatArray, rfl, extents⟩
  | texture3D =>
    rw [target] at extents
    exact ⟨.volume, rfl, extents⟩
  | cubemap =>
    rw [target] at extents
    exact ⟨.cube, rfl, extents.1, by rw [extents.2]; decide⟩
  | cubemapArray =>
    rw [target] at extents
    exact ⟨.cubeArray, rfl, extents.1, extents.2.1⟩

theorem isSliceCount (consistent : texture.Consistent)
    (arranged : texture.target.dimensions? = some dimensions) :
    Dds.isSliceCount dimensions texture.shape.depthOrLayers := by
  have extents := consistent.extents
  unfold Shape.depthOrLayers
  cases target : texture.target with
  | texture1D | textureBuffer =>
    rw [target] at extents
    exact extents.elim
  | texture2D =>
    rw [target] at extents arranged
    cases arranged
    rw [extents.1, extents.2]
    rfl
  | texture2DArray =>
    rw [target] at extents arranged
    cases arranged
    rw [extents.1, UInt32.one_mul]
    exact extents.2
  | texture3D =>
    rw [target] at extents arranged
    cases arranged
    rw [extents.2, UInt32.mul_one]
    exact extents.1
  | cubemap =>
    rw [target] at extents arranged
    cases arranged
    rw [extents.1, extents.2]
    rfl
  | cubemapArray =>
    rw [target] at extents arranged
    cases arranged
    obtain ⟨depth, least, whole⟩ := extents
    rw [depth, UInt32.one_mul]
    exact ⟨by omega, whole⟩

theorem storable (consistent : texture.Consistent)
    (arranged : texture.target.dimensions? = some dimensions)
    (format : Dds.canStore stored dimensions = true) :
    Dds.Storable (ExportJob.ddsInfo texture stored dimensions) :=
  ⟨consistent.width, consistent.height, consistent.levels, consistent.isSliceCount arranged, format⟩

theorem toNat_depthOrLayers (consistent : texture.Consistent) :
    texture.shape.depthOrLayers.toNat = texture.shape.depth.toNat * texture.shape.layers.toNat := by
  obtain ⟨dimensions, _, suits⟩ := consistent.exists_dimensions
  exact suits.toNat_depthOrLayers

theorem toNat_depthOrLayers_eq_slicesAt (consistent : texture.Consistent) :
    texture.shape.depthOrLayers.toNat = texture.shape.slicesAt 0 := by
  obtain ⟨dimensions, _, suits⟩ := consistent.exists_dimensions
  rw [consistent.toNat_depthOrLayers, Shape.slicesAt, mipExtent_zero]
  by_cases volume : dimensions = .volume
  · subst volume
    obtain ⟨depth, layers⟩ := Dimensions.suits_volume_iff.mp suits
    rw [layers, Nat.max_eq_right depth]
    cases deep : texture.shape.isVolume with
    | true => exact Nat.mul_one _
    | false =>
      have single : ¬ 1 < texture.shape.depth := of_decide_eq_false deep
      have most := Nat.not_lt.mp fun more => single (UInt32.lt_iff_toNat_lt.mpr more)
      exact (Nat.mul_one _).trans (Nat.le_antisymm most depth)
  · obtain ⟨depth, _⟩ := (Dimensions.suits_iff_of_ne volume).mp suits
    have flat : texture.shape.isVolume = false := by rw [Shape.isVolume, depth]; rfl
    rw [flat, depth]
    exact Nat.one_mul _

end Texture.Consistent
end TextureCache
