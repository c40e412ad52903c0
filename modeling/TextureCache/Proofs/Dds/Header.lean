import TextureCache.Dds.File
import TextureCache.Proofs.Patch

/-! The header of a DDS file reads back. Words are found again at their number, so the fixed header
and the extended header are what was written; and the flags, masks, codes and numbers that `build`
chooses for an image name its format, its arrangement and its slice count. Only an array of one
layer or of one cube comes back without being an array. -/
namespace TextureCache.Dds

def isSliceCount (dimensions : Dimensions) (count : UInt32) : Prop :=
  match dimensions with
  | .flat => count = 1
  | .flatArray | .volume => 1 ≤ count.toNat
  | .cube => count = 6
  | .cubeArray => 6 ≤ count.toNat ∧ count.toNat % 6 = 0

/-- The images that a file can hold. -/
structure Storable (info : ImageInfo) : Prop where
  width : 1 ≤ info.width.toNat
  height : 1 ≤ info.height.toNat
  levels : 1 ≤ info.levels.toNat ∧ info.levels.toNat ≤ 32
  slices : isSliceCount info.dimensions info.depthOrLayers
  format : canStore info.format info.dimensions = true

/-- The arrangement as which an image is read back. -/
def restoredDimensions (info : ImageInfo) : Dimensions :=
  match info.dimensions with
  | .flatArray => if info.depthOrLayers = 1 then .flat else .flatArray
  | .cubeArray => if info.depthOrLayers = 6 then .cube else .cubeArray
  | dimensions => dimensions

def restored (info : ImageInfo) : ImageInfo :=
  { info with dimensions := restoredDimensions info }

def payloadOffset (dimensions : Dimensions) : Nat :=
  if needsExtension dimensions then extendedHeaderSize else headerSize

private theorem max_one_eq {count : UInt32} (positive : 1 ≤ count.toNat) : max 1 count = count := by
  have least : (1 : UInt32) ≤ count := UInt32.le_iff_toNat_le.mpr positive
  exact if_pos least

theorem length_encodeWords (words : List UInt32) :
    (encodeWords words).length = 4 * words.length := by
  induction words with
  | nil => rfl
  | cons word rest ih =>
    have width := Bytes.length_littleEndian 4 word.toNat
    have unfolded : encodeWords (word :: rest) =
        Bytes.littleEndian 4 word.toNat ++ encodeWords rest := List.flatMap_cons
    rw [unfolded, List.length_append, width, ih, List.length_cons]
    omega

/-- A word is found again at its number, whatever follows the words. -/
theorem wordAt_encodeWords {words : List UInt32} {number : Nat} {word : UInt32}
    (found : words[number]? = some word) (rest : Bytes) :
    wordAt (encodeWords words ++ rest) number = word := by
  induction words generalizing number with
  | nil => simp at found
  | cons first others ih =>
    have width : (Bytes.littleEndian 4 first.toNat).length = 4 :=
      Bytes.length_littleEndian 4 first.toNat
    have unfolded : encodeWords (first :: others) ++ rest =
        Bytes.littleEndian 4 first.toNat ++ (encodeWords others ++ rest) := by
      rw [← List.append_assoc]
      rfl
    cases number with
    | zero =>
      have same : first = word := by simpa using found
      subst same
      have start : Bytes.slice (encodeWords (first :: others) ++ rest) (4 * 0) 4 =
          Bytes.littleEndian 4 first.toNat := by
        rw [unfolded, Bytes.slice_append_left _ (by omega), Bytes.slice_zero,
          List.take_of_length_le (by omega)]
      rw [wordAt, start, Bytes.ofLittleEndian_word first.toNat_lt, UInt32.ofNat_toNat]
    | succ number =>
      have shift : 4 * (number + 1) = (Bytes.littleEndian 4 first.toNat).length + 4 * number := by
        omega
      have found : others[number]? = some word := by simpa using found
      rw [← ih found, wordAt, unfolded, shift, Bytes.slice_append_right]
      rfl

theorem Header.ofBytes_toWords (header : Header) (rest : Bytes) :
    Header.ofBytes (encodeWords header.toWords ++ rest) = header := by
  have word (number : Nat) (value : UInt32) (found : header.toWords[number]? = some value) :
      wordAt (encodeWords header.toWords ++ rest) number = value := wordAt_encodeWords found rest
  unfold Header.ofBytes
  simp only [word 0 _ rfl, word 1 _ rfl, word 2 _ rfl, word 3 _ rfl, word 4 _ rfl, word 5 _ rfl,
    word 6 _ rfl, word 18 _ rfl, word 19 _ rfl, word 20 _ rfl, word 21 _ rfl, word 22 _ rfl,
    word 23 _ rfl, word 24 _ rfl, word 25 _ rfl, word 26 _ rfl, word 27 _ rfl]

theorem Extension.ofBytes_toWords (extension : Extension) (rest : Bytes) :
    Extension.ofBytes (encodeWords extension.toWords ++ rest) = extension := by
  have word (number : Nat) (value : UInt32) (found : extension.toWords[number]? = some value) :
      wordAt (encodeWords extension.toWords ++ rest) number = value :=
    wordAt_encodeWords found rest
  unfold Extension.ofBytes
  simp only [word 0 _ rfl, word 1 _ rfl, word 2 _ rfl, word 3 _ rfl, word 4 _ rfl]

section Build

variable {info : ImageInfo}

/-- The extended header is announced exactly when it is there. -/
theorem isExtended_build (info : ImageInfo) :
    isExtended (build info).pixel = needsExtension info.dimensions := by
  have extended : isExtended extendedPixel = true := by decide +kernel
  have plain : ∀ format, isExtended (pixelOfFormat format) = false := by
    intro format
    cases format <;> decide +kernel
  unfold build
  split
  dsimp only
  cases needed : needsExtension info.dimensions with
  | true => simpa only [needed, if_true] using extended
  | false => simpa only [needed, Bool.false_eq_true, if_false] using plain info.format

theorem formatOfPixel?_pixelOfFormat (format : StoredFormat) :
    formatOfPixel? (pixelOfFormat format) = some format := by
  cases format <;> decide +kernel

theorem formatOfNumber?_of_formatNumber? {format : StoredFormat} {number : UInt32}
    (numbered : formatNumber? format = some number) : formatOfNumber? number = some format := by
  cases format <;> simp only [formatNumber?, Option.some.injEq, reduceCtorEq] at numbered <;>
    subst numbered <;> decide

private theorem build_caps2 (info : ImageInfo) :
    (build info).caps2 = (arrangementFlags info.dimensions).2.2 := rfl

private theorem build_depth (info : ImageInfo) :
    (build info).depth = if info.dimensions = .volume then info.depthOrLayers else 0 := rfl

theorem has_flags_build (info : ImageInfo) : has (build info).flags flagMipMapCount = true := by
  have announced : ∀ (block : Bool) (dimensions : Dimensions),
      has (flagCaps ||| flagHeight ||| flagWidth ||| flagPixelFormat ||| flagMipMapCount |||
        (if block then flagLinearSize else flagPitch) ||| (arrangementFlags dimensions).1)
        flagMipMapCount = true := by
    intro block dimensions
    cases block <;> cases dimensions <;> decide +kernel
  exact announced (isBlock info.format) info.dimensions

theorem levelsOfHeader_build (storable : Storable info) :
    levelsOfHeader (build info) = info.levels := by
  unfold levelsOfHeader
  rw [has_flags_build, if_pos rfl]
  exact max_one_eq storable.levels.1

theorem isSound_build (storable : Storable info) : (build info).isSound = true := by
  have width : (build info).width ≠ 0 := by
    intro zero
    have least := storable.width
    rw [show info.width = 0 from zero] at least
    exact absurd least (by decide)
  have height : (build info).height ≠ 0 := by
    intro zero
    have least := storable.height
    rw [show info.height = 0 from zero] at least
    exact absurd least (by decide)
  have levels : levelsOfHeader (build info) ≤ maxLevels := by
    rw [levelsOfHeader_build storable]
    exact UInt32.le_iff_toNat_le.mpr storable.levels.2
  unfold Header.isSound
  simp only [bne_iff_ne, ne_eq, Bool.and_eq_true, decide_eq_true_eq, levels, width, height,
    not_false_eq_true, and_true]
  exact ⟨rfl, rfl⟩

private theorem slices_of_cubes {count : UInt32} (least : 6 ≤ count.toNat)
    (whole : count.toNat % 6 = 0) :
    max 1 (count / cubeFaces) = count / cubeFaces ∧ count / cubeFaces * cubeFaces = count ∧
      (count / cubeFaces > 1 ↔ count ≠ 6) ∧ (count / cubeFaces).toNat * 6 < 2 ^ 32 := by
  have bound := count.toNat_lt
  have cubes : (count / cubeFaces).toNat = count.toNat / 6 := UInt32.toNat_div count cubeFaces
  have total : (count / cubeFaces).toNat * 6 = count.toNat := by omega
  refine ⟨max_one_eq (by omega), ?_, ?_, by omega⟩
  · apply UInt32.toNat_inj.mp
    rw [UInt32.toNat_mul]
    change (count / cubeFaces).toNat * 6 % 2 ^ 32 = count.toNat
    rw [total, Nat.mod_eq_of_lt bound]
  · rw [gt_iff_lt, UInt32.lt_iff_toNat_lt, ne_eq, ← UInt32.toNat_inj]
    change 1 < (count / cubeFaces).toNat ↔ ¬ count.toNat = 6
    omega

/-- The extended header of an array describes its arrangement and its slice count. -/
theorem arrangementOfExtension_build (storable : Storable info)
    (array : needsExtension info.dimensions = true) (number : UInt32) :
    arrangementOfExtension (build info) (buildExtension info number) =
      .ok (restoredDimensions info, info.depthOrLayers) := by
  have slices := storable.slices
  unfold restoredDimensions
  cases arrangement : info.dimensions with
  | flat | volume | cube =>
    rw [arrangement] at array
    exact absurd array (by decide)
  | flatArray =>
    rw [arrangement] at slices
    have positive : 1 ≤ info.depthOrLayers.toNat := slices
    have several : info.depthOrLayers > 1 ↔ ¬ info.depthOrLayers = 1 := by
      rw [gt_iff_lt, UInt32.lt_iff_toNat_lt, ← UInt32.toNat_inj]
      change 1 < info.depthOrLayers.toNat ↔ ¬ info.depthOrLayers.toNat = 1
      omega
    have flat : has 0 miscCube = false := by decide
    simp [arrangementOfExtension, buildExtension, arrangement, dimension2D, dimension3D, flat,
      max_one_eq positive, several]
  | cubeArray =>
    rw [arrangement] at slices
    obtain ⟨least, whole⟩ := slices
    obtain ⟨positive, total, several, fits⟩ := slices_of_cubes least whole
    have cube : has miscCube miscCube = true := by decide
    simp [arrangementOfExtension, buildExtension, arrangement, dimension2D, dimension3D, cube,
      positive, total, several]
    exact fits

/-- The fixed header of any other image describes its arrangement and its slice count. -/
theorem arrangementOfHeader_build (storable : Storable info)
    (plain : needsExtension info.dimensions = false) :
    arrangementOfHeader (build info) = (restoredDimensions info, info.depthOrLayers) := by
  have slices := storable.slices
  have none : has 0 caps2Volume = false ∧ has 0 caps2Cube = false := by decide
  have cube : has (caps2Cube ||| caps2AllFaces) caps2Volume = false ∧
      has (caps2Cube ||| caps2AllFaces) caps2Cube = true := by decide
  have volume : has caps2Volume caps2Volume = true := by decide
  unfold arrangementOfHeader restoredDimensions
  rw [build_caps2, build_depth]
  cases arrangement : info.dimensions with
  | flatArray | cubeArray =>
    rw [arrangement] at plain
    exact absurd plain (by decide)
  | flat =>
    rw [arrangement] at slices
    have single : info.depthOrLayers = 1 := slices
    simp [arrangementFlags, none, single]
  | cube =>
    rw [arrangement] at slices
    have faces : info.depthOrLayers = 6 := slices
    simp [arrangementFlags, cube, faces, cubeFaces]
  | volume =>
    rw [arrangement] at slices
    have positive : 1 ≤ info.depthOrLayers.toNat := slices
    simp [arrangementFlags, volume, max_one_eq positive]

end Build

end TextureCache.Dds
