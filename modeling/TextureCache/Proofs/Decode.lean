import TextureCache.Proofs.Layout.Levels
import TextureCache.Proofs.Patch

/-! Decoding slice by slice. Whether a format is decoded in one run or in blocks, each slice of the
result is what its own texels are decoded to; so it depends on nothing but the format, the texels
and how many slices lie before it. -/
namespace TextureCache

namespace PixelFormat

/-- The format as whose texels those of a format are read: neither the colour space matters nor
whether red or blue is named first. -/
def readAs : PixelFormat → PixelFormat
  | rgba8 _ => rgba8 .linear
  | b5g6r5 => r5g6b5
  | b5g5r5a1 => r5g5b5a1
  | bc1 _ => bc1 .linear
  | bc2 _ => bc2 .linear
  | bc3 _ => bc3 .linear
  | bc7 _ => bc7 .linear
  | etc2Rgb _ => etc2Rgb .linear
  | etc2RgbPunchthrough _ => etc2RgbPunchthrough .linear
  | etc2Rgba _ => etc2Rgba .linear
  | astc footprint _ => astc footprint .linear
  | format => format

@[simp] theorem decoder?_readAs (format : PixelFormat) :
    format.readAs.decoder? = format.decoder? := by
  cases format <;> rfl

@[simp] theorem storage_readAs (format : PixelFormat) : format.readAs.storage = format.storage := by
  cases format <;> rfl

end PixelFormat

variable {sizeOf : Nat → Nat → Nat}

def sizeOfSlices (sizeOf : Nat → Nat → Nat) (slices : List Slice) : Nat :=
  (slices.map fun slice => sizeOf slice.width slice.height).sum

theorem sizeOfSlices_cons (slice : Slice) (rest : List Slice) :
    sizeOfSlices sizeOf (slice :: rest) =
      sizeOf slice.width slice.height + sizeOfSlices sizeOf rest := List.sum_cons

theorem sizeOfSlices_append (first second : List Slice) :
    sizeOfSlices sizeOf (first ++ second) =
      sizeOfSlices sizeOf first + sizeOfSlices sizeOf second := by
  rw [sizeOfSlices, List.map_append, List.sum_append]
  rfl

theorem layOut_append (offset : Nat) (first second : List Slice) :
    layOut sizeOf offset (first ++ second) =
      layOut sizeOf offset first ++ layOut sizeOf (offset + sizeOfSlices sizeOf first) second := by
  induction first generalizing offset with
  | nil => rfl
  | cons slice rest ih =>
    rw [List.cons_append, layOut, layOut, ih, sizeOfSlices_cons, ← Nat.add_assoc]
    rfl

theorem eq_of_mem_layOut {before after : List Slice} {slice : Slice} {region : Region}
    (distinct : (before ++ slice :: after).Nodup)
    (member : region ∈ layOut sizeOf 0 (before ++ slice :: after)) (own : region.slice = slice) :
    region = ⟨slice, sizeOfSlices sizeOf before, sizeOf slice.width slice.height⟩ := by
  have apart := List.nodup_append.mp distinct
  rw [layOut_append, Nat.zero_add, layOut] at member
  rcases List.mem_append.mp member with inside | behind
  · have early := (bounds_of_mem_layOut inside).1
    exact absurd rfl (apart.2.2 _ (own ▸ early) _ List.mem_cons_self)
  · rcases List.mem_cons.mp behind with same | inside
    · exact same
    · have late := (bounds_of_mem_layOut inside).1
      exact absurd (own ▸ late) (List.nodup_cons.mp apart.2.1).1

private theorem length_flatMap_layOut {offset : Nat} {slices : List Slice} {part : Region → Bytes}
    {other : Nat → Nat → Nat} (each : ∀ region ∈ layOut sizeOf offset slices,
      (part region).length = other region.slice.width region.slice.height) :
    ((layOut sizeOf offset slices).flatMap part).length = sizeOfSlices other slices := by
  induction slices generalizing offset with
  | nil => rfl
  | cons slice rest ih =>
    rw [layOut, List.forall_mem_cons] at each
    rw [layOut, List.flatMap_cons, List.length_append, each.1, ih each.2, sizeOfSlices_cons]

namespace Shape

def rgba8RegionAt (shape : Shape) (level index : Nat) : Region where
  slice := shape.sliceAt level index
  offset := sizeOfSlices rgba8SliceSize (shape.slicesBefore level index)
  size := rgba8SliceSize (shape.sliceAt level index).width (shape.sliceAt level index).height

private theorem region_of_mem_layOut {shape : Shape} {region : Region}
    (member : region ∈ layOut sizeOf 0 shape.slices) :
    let slice := shape.sliceAt region.slice.level region.slice.index
    region.slice.level < shape.levels.toNat ∧
      region.slice.index < shape.slicesAt region.slice.level ∧
      region = ⟨slice,
        sizeOfSlices sizeOf (shape.slicesBefore region.slice.level region.slice.index),
        sizeOf slice.width slice.height⟩ := by
  obtain ⟨inside, _⟩ := bounds_of_mem_layOut member
  obtain ⟨inChain, inLevel, _⟩ := mem_slices_iff.mp inside
  obtain ⟨after, split⟩ := slices_eq_before inChain inLevel
  have distinct := shape.nodup_slices
  rw [split] at member distinct
  exact ⟨inChain, inLevel, eq_of_mem_layOut distinct member (eq_sliceAt_of_mem inside)⟩

theorem eq_rgba8RegionAt_of_mem {shape : Shape} {region : Region}
    (member : region ∈ shape.rgba8Regions) :
    region.slice.level < shape.levels.toNat ∧
      region.slice.index < shape.slicesAt region.slice.level ∧
      region = shape.rgba8RegionAt region.slice.level region.slice.index :=
  region_of_mem_layOut member

/-- Shapes of the same extents have the same slices before a slice, if the levels above it do not
differ in their numbers of slices. -/
theorem slicesBefore_eq {first second : Shape} {level : Nat} (width : first.width = second.width)
    (height : first.height = second.height)
    (above : ∀ other < level, first.slicesAt other = second.slicesAt other) (index : Nat) :
    first.slicesBefore level index = second.slicesBefore level index := by
  have levels : (List.range' 0 level).map first.level = (List.range' 0 level).map second.level := by
    apply List.map_congr_left
    intro other member
    unfold Shape.level
    rw [width, height, above other (by simpa using member)]
  unfold slicesBefore sliceAt slicesFrom
  rw [levels, width, height]

end Shape

namespace PackedLayout

private theorem toRgba8_append (layout : PackedLayout) {front : Bytes} (whole : 2 ∣ front.length)
    (rest : Bytes) :
    layout.toRgba8 (front ++ rest) = layout.toRgba8 front ++ layout.toRgba8 rest := by
  fun_induction PackedLayout.toRgba8 layout front with
  | case1 low high front ih =>
    rw [List.cons_append, List.cons_append, toRgba8, ih, List.append_assoc]
    simpa using whole
  | case2 front short =>
    have none : front = [] := by
      rcases front with _ | ⟨low, _ | ⟨high, front⟩⟩
      · rfl
      · simp at whole
      · exact absurd rfl (short low high front)
    rw [none]
    rfl

private theorem toRgba8_flatMap (layout : PackedLayout) {Item : Type} {items : List Item}
    {part : Item → Bytes} (whole : ∀ item ∈ items, 2 ∣ (part item).length) :
    layout.toRgba8 (items.flatMap part) = items.flatMap fun item => layout.toRgba8 (part item) := by
  induction items with
  | nil => rfl
  | cons item rest ih =>
    rw [List.forall_mem_cons] at whole
    rw [List.flatMap_cons, List.flatMap_cons, layout.toRgba8_append whole.1, ih whole.2]

end PackedLayout

namespace Texture

variable {texture : Texture} {pixels : Bytes}

/-- What the texels of one region are decoded to. -/
def decodedRegion (texture : Texture) (region : Region) : Bytes :=
  match texture.format.decoder? with
  | none => []
  | some .identity => texture.data.slice region.offset region.size
  | some (.packed layout) => layout.toRgba8 (texture.data.slice region.offset region.size)
  | some (.blocks decoder) => texture.decodeRegion decoder region

theorem stop_le_nativeSize {region : Region} (member : region ∈ texture.nativeRegions) :
    region.offset + region.size ≤ texture.nativeSize := by
  obtain ⟨_, _, _, stop⟩ := bounds_of_mem_layOut member
  rwa [Nat.zero_add, ← map_size_layOut 0] at stop

theorem length_slice_of_mem (enough : texture.nativeSize ≤ texture.data.length) {region : Region}
    (member : region ∈ texture.nativeRegions) :
    (texture.data.slice region.offset region.size).length =
      texture.format.sliceSize region.slice.width region.slice.height := by
  obtain ⟨_, size, _⟩ := bounds_of_mem_layOut member
  rw [Bytes.length_slice_of_le ((stop_le_nativeSize member).trans enough), size]

private theorem flatMap_slice_nativeRegions (texture : Texture) :
    (texture.nativeRegions.flatMap fun region => texture.data.slice region.offset region.size) =
      texture.data.take texture.nativeSize := by
  rw [nativeSize, nativeRegions, map_size_layOut]
  exact flatMap_slice_layOut 0 texture.shape.slices texture.data

/-- A texture is decoded region by region. -/
theorem toRgba8_eq_flatMap (decoded : texture.toRgba8 = .ok pixels) :
    pixels = texture.nativeRegions.flatMap texture.decodedRegion ∧
      ∀ region ∈ texture.nativeRegions, (texture.decodedRegion region).length =
        rgba8SliceSize region.slice.width region.slice.height := by
  unfold toRgba8 at decoded
  unfold decodedRegion
  cases found : texture.format.decoder? with
  | none => simp [found] at decoded
  | some decoder =>
    simp only [found] at decoded ⊢
    split at decoded
    · cases decoded
    · rename_i enough
      have length {region : Region} (member : region ∈ texture.nativeRegions) :=
        length_slice_of_mem (Nat.not_lt.mp enough) member
      cases decoder with
      | identity =>
        cases decoded
        have texel := storage_of_decoder.1 found
        refine ⟨texture.flatMap_slice_nativeRegions.symm, fun region member => ?_⟩
        rw [length member, PixelFormat.sliceSize, texel]
        rfl
      | packed layout =>
        cases decoded
        have texel := storage_of_decoder.2 layout found
        have whole : ∀ region ∈ texture.nativeRegions,
            (texture.data.slice region.offset region.size).length =
              region.slice.width * region.slice.height * 2 := by
          intro region member
          rw [length member, PixelFormat.sliceSize, texel, StorageClass.sliceSize]
        constructor
        · rw [← flatMap_slice_nativeRegions]
          exact layout.toRgba8_flatMap fun region member =>
            whole region member ▸ Nat.dvd_mul_left _ _
        · intro region member
          rw [layout.length_toRgba8, whole region member, Nat.mul_div_cancel _ (by decide)]
          rfl
      | blocks decoder =>
        cases decoded
        exact ⟨rfl, fun region _ => decoder.length_decodeImage _ _ _⟩

def nativeRegionAt (texture : Texture) (level index : Nat) : Region where
  slice := texture.shape.sliceAt level index
  offset := sizeOfSlices texture.format.sliceSize (texture.shape.slicesBefore level index)
  size := texture.format.sliceSize (texture.shape.sliceAt level index).width
    (texture.shape.sliceAt level index).height

theorem eq_nativeRegionAt_of_mem {region : Region} (member : region ∈ texture.nativeRegions) :
    region = texture.nativeRegionAt region.slice.level region.slice.index :=
  (Shape.region_of_mem_layOut member).2.2

/-- A slice of the decoded texture is what the texels of the slice are decoded to. -/
theorem slice_toRgba8 (decoded : texture.toRgba8 = .ok pixels) {level index : Nat}
    (inChain : level < texture.shape.levels.toNat)
    (inLevel : index < texture.shape.slicesAt level) :
    let region := texture.shape.rgba8RegionAt level index
    pixels.slice region.offset region.size =
      texture.decodedRegion (texture.nativeRegionAt level index) := by
  obtain ⟨after, split⟩ := Shape.slices_eq_before inChain inLevel
  obtain ⟨rest, regions⟩ : ∃ rest, texture.nativeRegions =
      layOut texture.format.sliceSize 0 (texture.shape.slicesBefore level index) ++
        texture.nativeRegionAt level index :: rest := by
    rw [nativeRegions, split, layOut_append, layOut, Nat.zero_add]
    exact ⟨_, rfl⟩
  obtain ⟨flat, lengths⟩ := toRgba8_eq_flatMap decoded
  rw [regions] at flat lengths
  rw [List.forall_mem_append, List.forall_mem_cons] at lengths
  obtain ⟨early, size, _⟩ := lengths
  have front := length_flatMap_layOut early
  rw [List.flatMap_append, List.flatMap_cons] at flat
  dsimp only [Shape.rgba8RegionAt]
  rw [flat, ← front]
  refine (Bytes.slice_append_right _ _ 0 _).trans ?_
  have own : rgba8SliceSize (texture.shape.sliceAt level index).width
      (texture.shape.sliceAt level index).height = _ := size.symm
  rw [own, Bytes.slice_append_left _ (Nat.le_of_eq (Nat.zero_add _)), Bytes.slice_zero,
    List.take_length]

/-! ## Two textures of the same texels -/

section Alike

variable {first second : Texture}

private theorem sliceSize_eq (format : first.format.readAs = second.format.readAs) :
    first.format.sliceSize = second.format.sliceSize := by
  unfold PixelFormat.sliceSize
  rw [← PixelFormat.storage_readAs first.format, format, PixelFormat.storage_readAs]

/-- What a region is decoded to depends on its extents, its texels and what they are read as. -/
theorem decodedRegion_congr (format : first.format.readAs = second.format.readAs)
    {region other : Region} (width : region.slice.width = other.slice.width)
    (height : region.slice.height = other.slice.height)
    (bytes : first.data.slice region.offset region.size =
      second.data.slice other.offset other.size) :
    first.decodedRegion region = second.decodedRegion other := by
  unfold decodedRegion decodeRegion
  rw [← PixelFormat.decoder?_readAs first.format, format, PixelFormat.decoder?_readAs, width,
    height, bytes]

theorem decodedRegion_eq (format : first.format.readAs = second.format.readAs)
    (data : first.data = second.data) : first.decodedRegion = second.decodedRegion := by
  funext region
  exact decodedRegion_congr format rfl rfl (by rw [data])

theorem nativeRegionAt_eq (format : first.format.readAs = second.format.readAs)
    (width : first.shape.width = second.shape.width)
    (height : first.shape.height = second.shape.height) {level : Nat}
    (above : ∀ other < level, first.shape.slicesAt other = second.shape.slicesAt other)
    (index : Nat) : first.nativeRegionAt level index = second.nativeRegionAt level index := by
  unfold nativeRegionAt
  rw [sliceSize_eq format, Shape.slicesBefore_eq width height above]
  unfold Shape.sliceAt
  rw [width, height]

theorem toRgba8_eq_of_slices (format : first.format.readAs = second.format.readAs)
    (data : first.data = second.data) (width : first.shape.width = second.shape.width)
    (height : first.shape.height = second.shape.height)
    (levels : first.shape.levels = second.shape.levels)
    (slices : ∀ level < first.shape.levels.toNat,
      first.shape.slicesAt level = second.shape.slicesAt level) {pixels' : Bytes}
    (decoded : first.toRgba8 = .ok pixels) (decoded' : second.toRgba8 = .ok pixels') :
    pixels = pixels' := by
  have all : first.shape.slices = second.shape.slices := by
    have before := Shape.slicesBefore_eq width height slices 0
    unfold Shape.slicesBefore at before
    simp only [List.range_zero, List.map_nil, List.append_nil] at before
    rw [Shape.slices_eq_slicesFrom, before, levels, Shape.slices_eq_slicesFrom]
  rw [(toRgba8_eq_flatMap decoded).1, (toRgba8_eq_flatMap decoded').1, nativeRegions, nativeRegions,
    all, sliceSize_eq format, decodedRegion_eq format data]

end Alike

end Texture
end TextureCache
