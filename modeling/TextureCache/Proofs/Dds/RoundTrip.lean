import TextureCache.Proofs.Dds.Header
import TextureCache.Proofs.Dds.Order

/-! Writing a DDS file and reading it back. A file is a run of header bytes and a payload in disk
order; its header reads back as the image up to the arrangement of single-layer arrays, and its
payload as the texels. -/
namespace TextureCache.Dds

variable {info : ImageInfo} {texels buffer rest : Bytes}

/-- The bytes of an extended header, if the arrangement asks for one and the format has a number. -/
def extensionBytes (info : ImageInfo) : Bytes :=
  match needsExtension info.dimensions, formatNumber? info.format with
  | true, some number => encodeWords (buildExtension info number).toWords
  | _, _ => []

def headerBytes (info : ImageInfo) : Bytes :=
  magic ++ encodeWords (build info).toWords ++ extensionBytes info

private theorem exists_formatNumber (stored : canStore info.format info.dimensions = true)
    (array : needsExtension info.dimensions = true) :
    ∃ number, formatNumber? info.format = some number := by
  rw [canStore, array, Bool.not_true, Bool.false_or] at stored
  exact Option.isSome_iff_exists.mp stored

/-- With enough texels the file is the header followed by the payload. -/
theorem save_eq_of_canStore (stored : canStore info.format info.dimensions = true)
    (enough : info.payloadSize ≤ texels.length) :
    save info texels = .ok (headerBytes info ++ payload info texels) := by
  unfold save extensionOf headerBytes extensionBytes
  rw [if_neg (Nat.not_lt.mpr enough)]
  cases array : needsExtension info.dimensions with
  | false => rfl
  | true =>
    obtain ⟨number, found⟩ := exists_formatNumber stored array
    rw [found]
    rfl

theorem save_eq (storable : Storable info) (enough : info.payloadSize ≤ texels.length) :
    save info texels = .ok (headerBytes info ++ payload info texels) :=
  save_eq_of_canStore storable.format enough

private theorem length_fixedHeader (info : ImageInfo) :
    (magic ++ encodeWords (build info).toWords).length = headerSize := by
  rw [List.length_append, length_encodeWords]
  rfl

theorem length_headerBytes_of_canStore (stored : canStore info.format info.dimensions = true) :
    (headerBytes info).length = payloadOffset info.dimensions := by
  unfold headerBytes payloadOffset extensionBytes
  rw [List.length_append, length_fixedHeader]
  cases array : needsExtension info.dimensions with
  | false => rfl
  | true =>
    obtain ⟨number, found⟩ := exists_formatNumber stored array
    rw [found]
    exact congrArg (headerSize + ·) (length_encodeWords _)

theorem length_headerBytes (storable : Storable info) :
    (headerBytes info).length = payloadOffset info.dimensions :=
  length_headerBytes_of_canStore storable.format

/-- The arrangement and the slice count that the header of an image describes. The number of its
format has no part in them. -/
def describedArrangement (info : ImageInfo) : Except LoadError (Dimensions × UInt32) :=
  if needsExtension info.dimensions then
    arrangementOfExtension (build info) (buildExtension info 0)
  else .ok (arrangementOfHeader (build info))

/-- The header bytes name the format, whatever arrangement they describe. -/
theorem readFormat_of_canStore (stored : canStore info.format info.dimensions = true)
    (rest : Bytes) :
    readFormat (headerBytes info ++ rest) (build info) =
      (describedArrangement info).map fun (dimensions, count) =>
        (info.format, dimensions, count, payloadOffset info.dimensions) := by
  have length := length_headerBytes_of_canStore stored
  unfold readFormat describedArrangement
  rw [isExtended_build]
  unfold payloadOffset at length ⊢
  cases array : needsExtension info.dimensions with
  | true =>
    obtain ⟨number, found⟩ := exists_formatNumber stored array
    have long : ¬ (headerBytes info ++ rest).length < extendedHeaderSize := by
      rw [List.length_append, length, array, if_pos rfl]
      omega
    have words : (headerBytes info ++ rest).drop headerSize =
        encodeWords (buildExtension info number).toWords ++ rest := by
      rw [headerBytes, List.append_assoc, extensionBytes, array, found,
        List.drop_left' (length_fixedHeader info)]
    have named : formatOfNumber? (buildExtension info number).format = some info.format :=
      formatOfNumber?_of_formatNumber? found
    have arranged : arrangementOfExtension (build info) (buildExtension info number) =
        arrangementOfExtension (build info) (buildExtension info 0) := rfl
    simp only [if_true, if_neg long, words, Extension.ofBytes_toWords, named, arranged]
    cases arrangementOfExtension (build info) (buildExtension info 0) <;> rfl
  | false =>
    have pixel : (build info).pixel = pixelOfFormat info.format := by
      change (if needsExtension info.dimensions then extendedPixel else _) = _
      rw [array]
      rfl
    simp only [Bool.false_eq_true, if_false, pixel, formatOfPixel?_pixelOfFormat]
    rfl

/-- An image that a file can hold describes its own arrangement, up to arrays of one layer. -/
theorem describedArrangement_of_storable (storable : Storable info) :
    describedArrangement info = .ok (restoredDimensions info, info.depthOrLayers) := by
  unfold describedArrangement
  cases array : needsExtension info.dimensions with
  | true => exact arrangementOfExtension_build storable array 0
  | false => exact congrArg Except.ok (arrangementOfHeader_build storable array)

private theorem restoredDimensions_eq_volume_iff (info : ImageInfo) :
    restoredDimensions info = .volume ↔ info.dimensions = .volume := by
  unfold restoredDimensions
  cases info.dimensions <;> dsimp only <;> try split
  all_goals simp

private theorem level_restored (info : ImageInfo) : (restored info).level = info.level := by
  funext index
  unfold ImageInfo.level ImageInfo.slicesAt
  simp only [restored, restoredDimensions_eq_volume_iff]

private theorem mipChain_restored (info : ImageInfo) :
    (restored info).mipChain = info.mipChain := by
  unfold ImageInfo.mipChain
  rw [level_restored]
  rfl

theorem exactSize_restored (info : ImageInfo) : (restored info).exactSize = info.exactSize := by
  unfold ImageInfo.exactSize
  rw [mipChain_restored]
  rfl

private theorem isLayerMajor_restored (info : ImageInfo) :
    isLayerMajor (restored info) = isLayerMajor info := by
  have same : decide ((restored info).dimensions ≠ .volume) =
      decide (info.dimensions ≠ .volume) :=
    decide_eq_decide.mpr (not_congr (restoredDimensions_eq_volume_iff info))
  unfold isLayerMajor
  rw [same]
  rfl

private theorem toMemory_restored (info : ImageInfo) :
    toMemory (restored info) = toMemory info := by
  funext payload buffer
  unfold toMemory layerMajorMoves
  rw [mipChain_restored]
  rfl

theorem payloadOffset_bounds (dimensions : Dimensions) :
    headerSize ≤ payloadOffset dimensions ∧ payloadOffset dimensions ≤ extendedHeaderSize := by
  unfold payloadOffset
  split <;> decide

private theorem parse_of_start {file : Bytes} {header : Header} (long : headerSize ≤ file.length)
    (start : file.take 4 = magic) (words : Header.ofBytes (file.drop 4) = header) :
    parse file =
      if header.isSound then
        (readFormat file header).bind fun (format, dimensions, count, offset) =>
          locatePayload file
            ⟨header.width, header.height, count, levelsOfHeader header, format, dimensions⟩ offset
      else .error .corruptedHeader := by
  unfold parse
  rw [if_neg (not_or.mpr ⟨Nat.not_lt.mpr long, not_not_intro start⟩), words]
  rfl

/-- Behind a sound header whose format is read, all depends on where the payload ends. -/
theorem parse_of_readFormat {file : Bytes} {header : Header} {format : StoredFormat}
    {dimensions : Dimensions} {count : UInt32} {offset : Nat} (long : headerSize ≤ file.length)
    (start : file.take 4 = magic) (words : Header.ofBytes (file.drop 4) = header)
    (sound : header.isSound = true)
    (read : readFormat file header = .ok (format, dimensions, count, offset)) :
    parse file = locatePayload file
      ⟨header.width, header.height, count, levelsOfHeader header, format, dimensions⟩ offset := by
  rw [parse_of_start long start words, if_pos sound, read]
  rfl

/-- Behind the header of an image, all depends on what it describes and on how much follows. -/
theorem parse_of_canStore (stored : canStore info.format info.dimensions = true) (rest : Bytes) :
    parse (headerBytes info ++ rest) =
      if (build info).isSound then
        (describedArrangement info).bind fun (dimensions, count) =>
          locatePayload (headerBytes info ++ rest) ⟨info.width, info.height, count,
            levelsOfHeader (build info), info.format, dimensions⟩ (payloadOffset info.dimensions)
      else .error .corruptedHeader := by
  have length := length_headerBytes_of_canStore stored
  have least := (payloadOffset_bounds info.dimensions).1
  have long : headerSize ≤ (headerBytes info ++ rest).length := by
    rw [List.length_append, length]
    omega
  have start : (headerBytes info ++ rest).take 4 = magic := rfl
  have header : Header.ofBytes ((headerBytes info ++ rest).drop 4) = build info := by
    have words : (headerBytes info ++ rest).drop 4 =
        encodeWords (build info).toWords ++ (extensionBytes info ++ rest) := by
      rw [headerBytes, List.append_assoc, List.append_assoc]
      rfl
    rw [words, Header.ofBytes_toWords]
  rw [parse_of_start long start header, readFormat_of_canStore stored]
  cases describedArrangement info <;> rfl

/-- A file with the header of an image and enough bytes behind it is accepted. -/
theorem parse_of_fits (storable : Storable info)
    (fits : payloadOffset info.dimensions + info.exactSize < wordLimit)
    (enough : info.exactSize ≤ rest.length) :
    parse (headerBytes info ++ rest) =
      .ok ⟨restored info, payloadOffset info.dimensions, info.exactSize⟩ := by
  have size : (restored info).checkedSize = some info.exactSize := by
    rw [ImageInfo.checkedSize_eq_some_iff, exactSize_restored]
    exact ⟨by omega, rfl⟩
  have bound : fitsWord (payloadOffset info.dimensions + info.exactSize) =
      some (payloadOffset info.dimensions + info.exactSize) := fitsWord_of_lt fits
  have reached : ¬ (headerBytes info ++ rest).length <
      payloadOffset info.dimensions + info.exactSize := by
    rw [List.length_append, length_headerBytes storable]
    omega
  rw [parse_of_canStore storable.format, if_pos (isSound_build storable),
    describedArrangement_of_storable storable, levelsOfHeader_build storable]
  change locatePayload _ (restored info) _ = _
  unfold locatePayload
  simp only [size, bound, if_neg reached]

private theorem parse_headerBytes (storable : Storable info)
    (fits : extendedHeaderSize + info.exactSize < wordLimit)
    (enough : info.exactSize ≤ rest.length) :
    parse (headerBytes info ++ rest) =
      .ok ⟨restored info, payloadOffset info.dimensions, info.exactSize⟩ := by
  have most := (payloadOffset_bounds info.dimensions).2
  exact parse_of_fits storable (by omega) enough

theorem length_payload (fits : info.exactSize < wordLimit)
    (enough : info.exactSize ≤ texels.length) :
    (payload info texels).length = info.exactSize := by
  unfold payload
  split
  · rename_i layered
    exact length_toDisk (flat_of_layerMajor layered) fits enough
  · rw [List.length_take, ImageInfo.payloadSize_eq fits, Nat.min_eq_left enough]

/-- The payload of a written file fills a buffer with the texels. -/
theorem loadData_of_fits (storable : Storable info)
    (fits : payloadOffset info.dimensions + info.exactSize < wordLimit)
    (enough : info.exactSize ≤ texels.length) (room : info.exactSize ≤ buffer.length) :
    loadData (headerBytes info ++ payload info texels) buffer =
      .ok (texels.take info.exactSize ++ buffer.drop info.exactSize) := by
  have within : info.exactSize < wordLimit := by omega
  have length := length_payload within enough
  have cut : Bytes.slice (headerBytes info ++ payload info texels)
      (payloadOffset info.dimensions) info.exactSize = payload info texels := by
    have aligned := Bytes.slice_append_right (headerBytes info) (payload info texels) 0
      info.exactSize
    rw [Nat.add_zero, length_headerBytes storable] at aligned
    rw [aligned, Bytes.slice_zero, List.take_of_length_le (Nat.le_of_eq length)]
  unfold loadData
  rw [parse_of_fits storable fits (Nat.le_of_eq length.symm)]
  change (if buffer.length < info.exactSize then _ else _) = _
  rw [if_neg (Nat.not_lt.mpr room)]
  simp only [cut, isLayerMajor_restored, toMemory_restored]
  unfold payload at length ⊢
  cases layered : isLayerMajor info with
  | true =>
    simp only [if_true, toMemory_toDisk (flat_of_layerMajor layered) within enough room]
  | false =>
    rw [layered] at length
    simp only [Bool.false_eq_true, if_false, Bytes.overwrite_zero] at length ⊢
    rw [length, ImageInfo.payloadSize_eq within]

theorem loadData_headerBytes (storable : Storable info)
    (fits : extendedHeaderSize + info.exactSize < wordLimit)
    (enough : info.exactSize ≤ texels.length) (room : info.exactSize ≤ buffer.length) :
    loadData (headerBytes info ++ payload info texels) buffer =
      .ok (texels.take info.exactSize ++ buffer.drop info.exactSize) := by
  have most := (payloadOffset_bounds info.dimensions).2
  exact loadData_of_fits storable (by omega) enough room

theorem loadHeader_headerBytes (storable : Storable info)
    (fits : extendedHeaderSize + info.exactSize < wordLimit)
    (enough : info.exactSize ≤ texels.length) :
    loadHeader (headerBytes info ++ payload info texels) = .ok (restored info) := by
  have length := length_payload (Nat.lt_of_le_of_lt (Nat.le_add_left _ _) fits) enough
  rw [loadHeader, parse_headerBytes storable fits (Nat.le_of_eq length.symm)]
  rfl

/-- The slice counts with which an arrangement is read back as itself. -/
def isOwnSliceCount (dimensions : Dimensions) (count : UInt32) : Prop :=
  match dimensions with
  | .flat => count = 1
  | .flatArray => 2 ≤ count.toNat
  | .volume => 1 ≤ count.toNat
  | .cube => count = 6
  | .cubeArray => 12 ≤ count.toNat ∧ count.toNat % 6 = 0

theorem isSliceCount_of_own {dimensions : Dimensions} {count : UInt32}
    (own : isOwnSliceCount dimensions count) : isSliceCount dimensions count := by
  cases dimensions with
  | flat | volume | cube => exact own
  | flatArray => exact Nat.le_of_succ_le own
  | cubeArray => exact ⟨Nat.le_trans (by decide) own.1, own.2⟩

theorem restored_of_own (own : isOwnSliceCount info.dimensions info.depthOrLayers) :
    restored info = info := by
  have same : restoredDimensions info = info.dimensions := by
    unfold restoredDimensions
    cases arrangement : info.dimensions with
    | flat | volume | cube => rfl
    | flatArray =>
      rw [arrangement] at own
      have least : 2 ≤ info.depthOrLayers.toNat := own
      have several : info.depthOrLayers ≠ 1 := fun single => by
        rw [single] at least
        exact absurd least (by decide)
      exact if_neg several
    | cubeArray =>
      rw [arrangement] at own
      have least : 12 ≤ info.depthOrLayers.toNat := own.1
      have several : info.depthOrLayers ≠ 6 := fun single => by
        rw [single] at least
        exact absurd least (by decide)
      exact if_neg several
  unfold restored
  rw [same]

/-- Every image that a file can hold is read back as it was written: all of its header, and all of
its texels at the start of any buffer that has room for them. -/
theorem load_save (info : ImageInfo) (texels buffer : Bytes)
    (width : 1 ≤ info.width.toNat) (height : 1 ≤ info.height.toNat)
    (levels : 1 ≤ info.levels.toNat ∧ info.levels.toNat ≤ 32)
    (slices : isOwnSliceCount info.dimensions info.depthOrLayers)
    (format : canStore info.format info.dimensions = true) (fits : info.exactSize < 2 ^ 63)
    (enough : info.payloadSize ≤ texels.length) (room : info.payloadSize ≤ buffer.length) :
    ∃ file, save info texels = .ok file ∧ loadHeader file = .ok info ∧
      ∃ output, loadData file buffer = .ok output ∧ output.length = buffer.length ∧
        output.take info.payloadSize = texels.take info.payloadSize ∧
        output.drop info.payloadSize = buffer.drop info.payloadSize := by
  have storable : Storable info := ⟨width, height, levels, isSliceCount_of_own slices, format⟩
  have within : extendedHeaderSize + info.exactSize < wordLimit := by
    unfold extendedHeaderSize wordLimit UInt64.size
    omega
  have size : info.payloadSize = info.exactSize :=
    ImageInfo.payloadSize_eq (Nat.lt_of_le_of_lt (Nat.le_add_left _ _) within)
  have saved := save_eq storable enough
  rw [size] at enough room ⊢
  have length := length_payload (Nat.lt_of_le_of_lt (Nat.le_add_left _ _) within) enough
  have start : (texels.take info.exactSize).length = info.exactSize := by
    rw [List.length_take, Nat.min_eq_left enough]
  refine ⟨_, saved, ?_, _, loadData_headerBytes storable within enough room, ?_, ?_, ?_⟩
  · unfold loadHeader
    rw [parse_headerBytes storable within (Nat.le_of_eq length.symm), restored_of_own slices]
    rfl
  · rw [List.length_append, start, List.length_drop]
    omega
  · rw [List.take_left' start]
  · rw [List.drop_left' start]

/-- Two cubes of two levels in blocks, written with an extended header and permuted both ways. -/
theorem load_save_cubes :
    let info : ImageInfo := ⟨5, 7, 12, 2, .bc3, .cubeArray⟩
    let texels := (List.range 1000).map UInt8.ofNat
    let buffer := Bytes.zeros 999
    info.exactSize < 2 ^ 63 ∧ info.payloadSize = 960 ∧
    ∃ file, save info texels = .ok file ∧ loadHeader file = .ok info ∧
      ∃ output, loadData file buffer = .ok output ∧ output.length = buffer.length ∧
        output.take info.payloadSize = texels.take info.payloadSize ∧
        output.drop info.payloadSize = buffer.drop info.payloadSize := by
  intro info texels buffer
  have size : info.payloadSize = 960 := by decide
  refine ⟨by decide, size, load_save info texels buffer (by decide) (by decide) (by decide)
    ⟨by decide, by decide⟩ (by decide) (by decide) ?_ ?_⟩
  · rw [size, List.length_map, List.length_range]
    decide
  · rw [size, Bytes.length_zeros]
    decide

end TextureCache.Dds
