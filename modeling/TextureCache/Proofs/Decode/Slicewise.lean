import Mathlib.Data.List.Forall2
import TextureCache.Proofs.Dds.Safety
import TextureCache.Proofs.Decode

/-! Decoding a texture is decoding each of its slices as a texture by itself. The pixels of a slice
lie where the layout of RGBA8 puts the slice, and they are made of nothing but its own texels, so
bytes behind the last slice do not count. `guardedToRgba8` decodes as `Texture.toRgba8` does, but it
puts blocks into a buffer slice by slice and checks every range and every number; it always has the
same answer. -/
namespace TextureCache

/-- The bytes of one slice, refused as soon as a product leaves the machine word. -/
def StorageClass.checkedSliceSize : StorageClass → (width height : Nat) → Option Nat
  | packed bytes, width, height => do
    fitsWord ((← fitsWord (width * height)) * bytes)
  | block across down bytes, width, height => do
    fitsWord ((← fitsWord (divCeil width across * divCeil height down)) * bytes)

/-- Lay slices one after another. Every size and every running sum is checked. -/
def guardedLayOut (sizeOf : Nat → Nat → Option Nat) :
    (offset : Nat) → List Slice → Option (List Region)
  | _, [] => some []
  | offset, slice :: rest => do
    let size ← sizeOf slice.width slice.height
    let next ← fitsWord (offset + size)
    let others ← guardedLayOut sizeOf next rest
    some (⟨slice, offset, size⟩ :: others)

namespace Texture

/-- Where the slices lie in the texture's own data. The size of a level's slices is worked out
before it is known whether the level has any. -/
def guardedRegions (texture : Texture) : Option (List Region) := do
  let checkedSize := texture.format.storage.checkedSliceSize
  let _sizes ← texture.shape.mipChain.mapM fun level => checkedSize level.width level.height
  guardedLayOut checkedSize 0 texture.shape.slices

/-- Decode a slice in blocks from its source to its target. -/
def guardedPut (texture : Texture) (decoder : BlockDecoder) (output : Bytes)
    (source target : Region) : Option Bytes := do
  let input ← texture.data.slice? source.offset source.size
  let place ← output.slice? target.offset target.size
  let _texels ← fitsWord (source.slice.width * source.slice.height)
  let pixels := decoder.decodeImage source.slice.width source.slice.height input
  output.overwrite? target.offset (pixels.take place.length)

def guardedBlocks (texture : Texture) (decoder : BlockDecoder) (sources : List Region) :
    Option Bytes := do
  let targets ← guardedLayOut (StorageClass.packed 4).checkedSliceSize 0 texture.shape.slices
  let size ← Dds.guardedSum 0 (targets.map Region.size)
  (sources.zip targets).foldlM
    (fun output pair => texture.guardedPut decoder output pair.1 pair.2) (Bytes.zeros size)

def guardedToRgba8 (texture : Texture) : Option (Except DecodeError Bytes) :=
  match texture.format.decoder? with
  | none => some (.error (.unsupportedFormat texture.format))
  | some decoder => do
    let sources ← texture.guardedRegions
    let expected ← Dds.guardedSum 0 (sources.map Region.size)
    if texture.data.length < expected then
      some (.error (.dataTooShort expected texture.data.length))
    else
      let texels ← texture.data.slice? 0 expected
      match decoder with
      | .identity => some (.ok texels)
      | .packed layout => do
        let _room ← fitsWord (texels.length * 2)
        some (.ok (layout.toRgba8 texels))
      | .blocks decoder => (texture.guardedBlocks decoder sources).map .ok

/-- Every size that decoding works out fits the machine word: that of a slice at each level, with
slices or not, that of all texels, and that of all pixels. -/
structure SizesFit (texture : Texture) : Prop where
  level : ∀ level ∈ texture.shape.mipChain,
    texture.format.sliceSize level.width level.height < wordLimit
  native : texture.nativeSize < wordLimit
  rgba8 : texture.shape.rgba8Size < wordLimit

/-- One region of a texture as a flat texture with one level. -/
def excerpt (texture : Texture) (region : Region) : Texture where
  shape := ⟨UInt32.ofNat region.slice.width, UInt32.ofNat region.slice.height, 1, 1, 1⟩
  format := texture.format
  target := .texture2D
  data := texture.data.slice region.offset region.size

end Texture

/-! ## Layouts within the machine word -/

theorem PixelFormat.checkedSliceSize_storage (format : PixelFormat) (width height : Nat) :
    format.storage.checkedSliceSize width height = fitsWord (format.sliceSize width height) := by
  unfold sliceSize
  cases format <;> exact fitsWord_bind_mul _ _ (by decide)

theorem checkedSliceSize_rgba8 (width height : Nat) :
    (StorageClass.packed 4).checkedSliceSize width height =
      fitsWord (rgba8SliceSize width height) := fitsWord_bind_mul _ _ (by decide)

private theorem guardedLayOut_eq {sizeOf : Nat → Nat → Nat} {checked : Nat → Nat → Option Nat}
    (agree : ∀ width height, checked width height = fitsWord (sizeOf width height)) {offset : Nat}
    {slices : List Slice} (word : offset + sizeOfSlices sizeOf slices < wordLimit) :
    guardedLayOut checked offset slices = some (layOut sizeOf offset slices) := by
  induction slices generalizing offset with
  | nil => rfl
  | cons slice rest ih =>
    rw [sizeOfSlices_cons, ← Nat.add_assoc] at word
    have next : offset + sizeOf slice.width slice.height < wordLimit := by omega
    unfold guardedLayOut
    rw [agree, fitsWord_of_lt (Nat.lt_of_le_of_lt (Nat.le_add_left _ _) next)]
    simp only [Option.bind_eq_bind, Option.bind_some, fitsWord_of_lt next, ih word]
    rfl

private theorem Bytes.overwrite_zeros (done part : Bytes) (rest : Nat) :
    (done ++ zeros (part.length + rest)).overwrite done.length part =
      done ++ part ++ zeros rest := by
  have zeroed : zeros (part.length + rest) = zeros part.length ++ zeros rest := by
    simp only [zeros, List.replicate_append_replicate]
  have behind : (done ++ (zeros part.length ++ zeros rest)).drop (done.length + part.length) =
      zeros rest := by
    rw [← List.append_assoc]
    exact List.drop_left' (by rw [List.length_append, length_zeros])
  rw [zeroed, overwrite, List.take_left, behind]

namespace Texture

variable {texture : Texture} {pixels : Bytes}

/-! ## The decoder within its bounds -/

theorem sizeOfSlices_native (texture : Texture) :
    sizeOfSlices texture.format.sliceSize texture.shape.slices = texture.nativeSize := by
  rw [nativeSize, nativeRegions, map_size_layOut, total_eq_sum, sizeOfSlices]

theorem sizeOfSlices_rgba8 (shape : Shape) :
    sizeOfSlices rgba8SliceSize shape.slices = shape.rgba8Size := shape.rgba8Size_eq_sum.symm

private theorem guardedRegions_eq (fit : texture.SizesFit) :
    texture.guardedRegions = some texture.nativeRegions := by
  have sizes : ∀ level ∈ texture.shape.mipChain,
      texture.format.storage.checkedSliceSize level.width level.height =
        some (texture.format.sliceSize level.width level.height) := by
    intro level member
    rw [PixelFormat.checkedSliceSize_storage, fitsWord_of_lt (fit.level level member)]
  unfold guardedRegions
  dsimp only
  rw [Dds.mapM_eq_some sizes]
  refine guardedLayOut_eq texture.format.checkedSliceSize_storage ?_
  rw [Nat.zero_add, sizeOfSlices_native]
  exact fit.native

private theorem guardedPut_eq (decoder : BlockDecoder) (source : Region) {done : Bytes} (rest : Nat)
    (sourceWord : source.offset + source.size < wordLimit)
    (inside : source.offset + source.size ≤ texture.data.length)
    (targetWord :
      done.length + rgba8SliceSize source.slice.width source.slice.height < wordLimit) :
    texture.guardedPut decoder
        (done ++ Bytes.zeros (rgba8SliceSize source.slice.width source.slice.height + rest))
        source ⟨source.slice, done.length,
          rgba8SliceSize source.slice.width source.slice.height⟩ =
      some (done ++ texture.decodeRegion decoder source ++ Bytes.zeros rest) := by
  have texels : source.slice.width * source.slice.height < wordLimit := by
    unfold rgba8SliceSize at targetWord
    omega
  have pixels : (texture.decodeRegion decoder source).length =
      rgba8SliceSize source.slice.width source.slice.height := decoder.length_decodeImage _ _ _
  rw [← pixels] at targetWord ⊢
  have room : done.length + (texture.decodeRegion decoder source).length ≤
      (done ++ Bytes.zeros ((texture.decodeRegion decoder source).length + rest)).length := by
    rw [List.length_append, Bytes.length_zeros]
    omega
  unfold guardedPut
  dsimp only
  rw [Bytes.slice?_of_le sourceWord inside, Bytes.slice?_of_le targetWord room,
    fitsWord_of_lt texels]
  change Bytes.overwrite? _ _ ((texture.decodeRegion decoder source).take _) = _
  rw [Bytes.length_slice_of_le room, List.take_length, Bytes.overwrite?_of_le targetWord room,
    Bytes.overwrite_zeros]

private theorem foldlM_guardedPut (decoder : BlockDecoder) {sizeOf : Nat → Nat → Nat} {offset : Nat}
    {slices : List Slice} (done : Bytes)
    (sourceWord : offset + sizeOfSlices sizeOf slices < wordLimit)
    (inside : offset + sizeOfSlices sizeOf slices ≤ texture.data.length)
    (targetWord : done.length + sizeOfSlices rgba8SliceSize slices < wordLimit) :
    ((layOut sizeOf offset slices).zip (layOut rgba8SliceSize done.length slices)).foldlM
        (fun output pair => texture.guardedPut decoder output pair.1 pair.2)
        (done ++ Bytes.zeros (sizeOfSlices rgba8SliceSize slices)) =
      some (done ++ (layOut sizeOf offset slices).flatMap (texture.decodeRegion decoder)) := by
  induction slices generalizing offset done with
  | nil => simp [layOut, sizeOfSlices, Bytes.zeros]
  | cons slice rest ih =>
    rw [sizeOfSlices_cons, ← Nat.add_assoc] at sourceWord inside targetWord
    have put := guardedPut_eq decoder ⟨slice, offset, sizeOf slice.width slice.height⟩
      (sizeOfSlices rgba8SliceSize rest) (Nat.lt_of_le_of_lt (Nat.le_add_right _ _) sourceWord)
      (Nat.le_of_add_right_le inside) (Nat.lt_of_le_of_lt (Nat.le_add_right _ _) targetWord)
    have behind : (done ++ texture.decodeRegion decoder
        ⟨slice, offset, sizeOf slice.width slice.height⟩).length =
          done.length + rgba8SliceSize slice.width slice.height := by
      rw [List.length_append, decodeRegion, decoder.length_decodeImage, rgba8SliceSize]
    rw [← behind] at targetWord
    have others := ih _ sourceWord inside targetWord
    rw [behind] at others
    rw [layOut, layOut, List.zip_cons_cons, List.foldlM_cons, sizeOfSlices_cons, put,
      List.flatMap_cons, ← List.append_assoc]
    exact others

variable (texture) in
/-- Decoding in blocks finds every slice in the texels and has room for it among the pixels. -/
theorem guardedBlocks_eq (decoder : BlockDecoder) (native : texture.nativeSize < wordLimit)
    (enough : texture.nativeSize ≤ texture.data.length)
    (rgba8 : texture.shape.rgba8Size < wordLimit) :
    texture.guardedBlocks decoder texture.nativeRegions =
      some (texture.nativeRegions.flatMap (texture.decodeRegion decoder)) := by
  rw [← sizeOfSlices_native, ← Nat.zero_add (sizeOfSlices _ _)] at native enough
  rw [← sizeOfSlices_rgba8, ← Nat.zero_add (sizeOfSlices _ _)] at rgba8
  have targets := guardedLayOut_eq checkedSliceSize_rgba8 rgba8
  have total : Dds.guardedSum 0 ((layOut rgba8SliceSize 0 texture.shape.slices).map Region.size) =
      some (0 + sizeOfSlices rgba8SliceSize texture.shape.slices) := by
    rw [map_size_layOut]
    exact Dds.guardedSum_eq rgba8
  unfold guardedBlocks
  rw [targets, Option.bind_eq_bind, Option.bind_some, total, Nat.zero_add]
  exact foldlM_guardedPut decoder [] native enough rgba8

/-- The decoder reads and writes within its buffers and has no overflow. -/
theorem guardedToRgba8_eq (fit : texture.SizesFit) :
    texture.guardedToRgba8 = some texture.toRgba8 := by
  have total : Dds.guardedSum 0 (texture.nativeRegions.map Region.size) =
      some texture.nativeSize := by
    rw [Dds.guardedSum_eq (by rw [Nat.zero_add]; exact fit.native), Nat.zero_add]
    rfl
  unfold guardedToRgba8 toRgba8
  cases found : texture.format.decoder? with
  | none => rfl
  | some decoder =>
    dsimp only
    rw [guardedRegions_eq fit, Option.bind_eq_bind, Option.bind_some, total, Option.bind_eq_bind,
      Option.bind_some]
    split
    · rfl
    · rename_i long
      have enough := Nat.not_lt.mp long
      have cut : texture.data.slice? 0 texture.nativeSize =
          some (texture.data.take texture.nativeSize) :=
        Bytes.slice?_of_le (by rw [Nat.zero_add]; exact fit.native) (by rwa [Nat.zero_add])
      rw [cut]
      cases decoder with
      | identity => rfl
      | packed layout =>
        -- The pixels are twice as many bytes as the texels.
        have room : fitsWord ((texture.data.take texture.nativeSize).length * 2) =
            some texture.shape.rgba8Size := by
          rw [List.length_take_of_le enough,
            nativeSize_of_packed (storage_of_decoder.2 layout found), Nat.mul_assoc,
            ← Shape.rgba8Size_eq_texels, fitsWord_of_lt fit.rgba8]
        simp only [Option.bind_eq_bind, Option.bind_some, room]
      | blocks decoder =>
        dsimp only [Option.bind_eq_bind, Option.bind_some]
        rw [texture.guardedBlocks_eq decoder fit.native enough fit.rgba8]
        rfl

/-! ## Slices as textures -/

private theorem slices_flat (width height : UInt32) :
    Shape.slices ⟨width, height, 1, 1, 1⟩ =
      [⟨0, 0, mipExtent width.toNat 0, mipExtent height.toNat 0⟩] := rfl

private theorem nativeRegions_excerpt {region : Region}
    (member : region.slice ∈ texture.shape.slices) :
    (texture.excerpt region).nativeRegions = [⟨⟨0, 0, region.slice.width, region.slice.height⟩, 0,
      texture.format.sliceSize region.slice.width region.slice.height⟩] := by
  obtain ⟨_, _, width, height⟩ := Shape.mem_slices_iff.mp member
  have same (size : UInt32) :
      mipExtent (UInt32.ofNat (mipExtent size.toNat region.slice.level)).toNat 0 =
        mipExtent size.toNat region.slice.level := by
    rw [toNat_ofNat_mipExtent, mipExtent_zero, Nat.max_eq_right (mipExtent_pos _ _)]
  unfold nativeRegions excerpt
  dsimp only
  rw [slices_flat, width, height, same, same]
  rfl

/-- A slice of enough texels is decoded as a texture by itself to what it is decoded to as a part
of its texture. -/
theorem toRgba8_excerpt (supported : texture.format.isSupported = true)
    (enough : texture.nativeSize ≤ texture.data.length) {region : Region}
    (member : region ∈ texture.nativeRegions) :
    (texture.excerpt region).toRgba8 = .ok (texture.decodedRegion region) := by
  obtain ⟨inside, size, _⟩ := bounds_of_mem_layOut member
  have regions := nativeRegions_excerpt inside
  have length : (texture.excerpt region).data.length =
      texture.format.sliceSize region.slice.width region.slice.height :=
    length_slice_of_mem enough member
  have all : (texture.excerpt region).nativeSize ≤ (texture.excerpt region).data.length := by
    rw [nativeSize, regions, length]
    exact Nat.le_refl _
  obtain ⟨pixels, decoded⟩ : ∃ pixels, (texture.excerpt region).toRgba8 = .ok pixels :=
    exists_toRgba8 supported all
  rw [decoded, (toRgba8_eq_flatMap decoded).1, regions, List.flatMap_singleton]
  have texels : (texture.excerpt region).data.slice 0 (texture.format.sliceSize
      region.slice.width region.slice.height) =
        texture.data.slice region.offset region.size := by
    rw [Bytes.slice_zero, ← length, List.take_length]
    rfl
  exact congrArg Except.ok (decodedRegion_congr (by rfl) (by rfl) (by rfl) texels)

private theorem forall₂_slice_eq (texture : Texture) :
    List.Forall₂ (fun source target : Region => source.slice = target.slice)
      texture.nativeRegions texture.shape.rgba8Regions := by
  have slices : List.Forall₂ (· = ·) (texture.nativeRegions.map Region.slice)
      (texture.shape.rgba8Regions.map Region.slice) := by
    rw [List.forall₂_eq_eq_eq, nativeRegions, Shape.rgba8Regions, map_slice_layOut,
      map_slice_layOut]
  exact List.forall₂_map_left_iff.mp (List.forall₂_map_right_iff.mp slices)

private theorem forall₂_excerpt (supported : texture.format.isSupported = true)
    (enough : texture.nativeSize ≤ texture.data.length) (decoded : texture.toRgba8 = .ok pixels) :
    List.Forall₂ (fun source target => source.slice = target.slice ∧
        (texture.excerpt source).toRgba8 = .ok (pixels.slice target.offset target.size))
      texture.nativeRegions texture.shape.rgba8Regions := by
  have aligned := texture.forall₂_slice_eq
  refine List.forall₂_iff_zip.mpr ⟨aligned.length_eq, fun {source target} pair => ?_⟩
  have same : source.slice = target.slice := (List.forall₂_iff_zip.mp aligned).2 pair
  obtain ⟨native, rgba8⟩ := List.of_mem_zip pair
  obtain ⟨inChain, inLevel, place⟩ := Shape.eq_rgba8RegionAt_of_mem rgba8
  have origin := eq_nativeRegionAt_of_mem native
  have part := slice_toRgba8 decoded inChain inLevel
  dsimp only at part
  rw [← place, ← same, ← origin] at part
  exact ⟨same, by rw [toRgba8_excerpt supported enough native, part]⟩

private theorem toRgba8_of_take_eq (supported : texture.format.isSupported = true)
    (enough : texture.nativeSize ≤ texture.data.length) (decoded : texture.toRgba8 = .ok pixels)
    {data : Bytes} (same : data.take texture.nativeSize = texture.data.take texture.nativeSize) :
    { texture with data }.toRgba8 = .ok pixels := by
  have long : texture.nativeSize ≤ data.length := by
    have lengths := congrArg List.length same
    rw [List.length_take_of_le enough, List.length_take] at lengths
    omega
  obtain ⟨others, alike⟩ : ∃ others, { texture with data }.toRgba8 = .ok others :=
    exists_toRgba8 (by exact supported) long
  rw [alike, (toRgba8_eq_flatMap alike).1, (toRgba8_eq_flatMap decoded).1]
  refine congrArg Except.ok (List.flatMap_congr fun region member => ?_)
  have stop : region.offset + region.size ≤ texture.nativeSize := stop_le_nativeSize member
  have texels : data.slice region.offset region.size =
      texture.data.slice region.offset region.size := by
    rw [← Bytes.slice_take stop, same, Bytes.slice_take stop]
  exact decodedRegion_congr (by rfl) (by rfl) (by rfl) texels

/-- Every texture of a supported format whose sizes fit the machine word is decoded within the
bounds of its buffers. It is refused exactly if its texels end too early. Otherwise the pixels fill
the RGBA8 layout, every slice of them is what the texels of the slice are decoded to as a texture by
themselves, and no byte behind the texels changes them. -/
theorem toRgba8_slicewise (texture : Texture) (supported : texture.format.isSupported = true)
    (fit : texture.SizesFit) :
    texture.guardedToRgba8 = some texture.toRgba8 ∧
      (texture.toRgba8 = .error (.dataTooShort texture.nativeSize texture.data.length) ↔
        texture.data.length < texture.nativeSize) ∧
      (texture.nativeSize ≤ texture.data.length → ∃ pixels, texture.toRgba8 = .ok pixels ∧
        pixels.length = texture.shape.rgba8Size ∧
        List.Forall₂ (fun source target => source.slice = target.slice ∧
            (texture.excerpt source).toRgba8 = .ok (pixels.slice target.offset target.size))
          texture.nativeRegions texture.shape.rgba8Regions ∧
        ∀ data : Bytes,
          data.take texture.nativeSize = texture.data.take texture.nativeSize →
            { texture with data }.toRgba8 = .ok pixels) := by
  refine ⟨guardedToRgba8_eq fit, ⟨fun refused => ?_, toRgba8_of_short supported⟩, fun enough => ?_⟩
  · by_contra long
    obtain ⟨pixels, decoded⟩ := exists_toRgba8 supported (Nat.not_lt.mp long)
    rw [decoded] at refused
    cases refused
  · obtain ⟨pixels, decoded⟩ := exists_toRgba8 supported enough
    exact ⟨pixels, decoded, length_toRgba8 decoded, forall₂_excerpt supported enough decoded,
      fun _ => toRgba8_of_take_eq supported enough decoded⟩

/-- A volume of seven by five by two texels in blocks of five by four, which halves to one of three
by two by one: nine blocks are three slices, the last of which lies behind the first two also among
the pixels. -/
theorem toRgba8_slicewise_volume :
    let texture : Texture :=
      ⟨⟨7, 5, 2, 1, 2⟩, .astc .f5x4 .srgb, .texture3D, List.replicate 150 7⟩
    ∃ pixels, texture.guardedToRgba8 = some (.ok pixels) ∧ pixels.length = 304 ∧
      (texture.excerpt ⟨⟨1, 0, 3, 2⟩, 128, 16⟩).toRgba8 = .ok (pixels.slice 280 24) := by
  intro texture
  have fit : texture.SizesFit := ⟨by decide, by decide, by decide⟩
  obtain ⟨safe, _, decoded⟩ := texture.toRgba8_slicewise (by decide) fit
  have texels : texture.data.length = 150 := List.length_replicate
  have enough : texture.nativeSize ≤ texture.data.length := by
    rw [texels]
    decide
  obtain ⟨pixels, same, length, slices, _⟩ := decoded enough
  rw [same] at safe
  have sources : texture.nativeRegions =
      [⟨⟨0, 0, 7, 5⟩, 0, 64⟩, ⟨⟨0, 1, 7, 5⟩, 64, 64⟩, ⟨⟨1, 0, 3, 2⟩, 128, 16⟩] := by decide
  have targets : texture.shape.rgba8Regions =
      [⟨⟨0, 0, 7, 5⟩, 0, 140⟩, ⟨⟨0, 1, 7, 5⟩, 140, 140⟩, ⟨⟨1, 0, 3, 2⟩, 280, 24⟩] := by decide
  rw [sources, targets] at slices
  simp only [List.forall₂_cons] at slices
  exact ⟨pixels, safe, length.trans (by decide), slices.2.2.1.2⟩

end Texture
end TextureCache
