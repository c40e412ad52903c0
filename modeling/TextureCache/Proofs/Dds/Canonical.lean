import TextureCache.Proofs.Dds.RoundTrip
import TextureCache.Proofs.Dds.Safety

/-! Every accepted file is written again as itself. The reader takes many spellings of a header that
the writer never chooses: premultiplied codes, numbers of sRGB twins, an extended header for a flat
image, absent counts. Whatever the spelling is, what it means can be stored, and the file that is
written of it has the same header, the same texels and the same payload. -/
namespace TextureCache.Dds

variable {file texels : Bytes} {info : ImageInfo} {header : Header} {contents : Contents}

/-! ## What a header can mean -/

private theorem isSome_formatNumber? {number : UInt32} {format : StoredFormat}
    (named : formatOfNumber? number = some format) : (formatNumber? format).isSome = true := by
  unfold formatOfNumber? at named
  repeat' split at named
  all_goals cases named
  all_goals rfl

private theorem max_one_not_gt_iff (count : UInt32) : ¬ max 1 count > 1 ↔ max 1 count = 1 := by
  have positive := one_le_max_one count
  rw [gt_iff_lt, UInt32.lt_iff_toNat_lt, ← UInt32.toNat_inj]
  change ¬ 1 < (max 1 count).toNat ↔ (max 1 count).toNat = 1
  omega

private theorem isOwnSliceCount_of_extension {extension : Extension} {dimensions : Dimensions}
    {count : UInt32}
    (arranged : arrangementOfExtension header extension = .ok (dimensions, count)) :
    isOwnSliceCount dimensions count := by
  have positive := one_le_max_one extension.arraySize
  have several (more : max 1 extension.arraySize > 1) :
      2 ≤ (max 1 extension.arraySize).toNat := UInt32.lt_iff_toNat_lt.mp more
  unfold arrangementOfExtension at arranged
  split at arranged
  · cases arranged
    exact one_le_max_one header.depth
  · split at arranged
    · cases arranged
    · dsimp only at arranged
      split at arranged
      · split at arranged
        · rename_i fits
          have faces : (max 1 extension.arraySize * cubeFaces).toNat =
              (max 1 extension.arraySize).toNat * 6 := by
            rw [UInt32.toNat_mul]
            exact Nat.mod_eq_of_lt fits
          cases arranged
          split
          · rename_i more
            have least := several more
            exact ⟨by omega, by omega⟩
          · rename_i single
            rw [max_one_not_gt_iff] at single
            rw [single]
            rfl
        · cases arranged
      · cases arranged
        split
        · rename_i more
          exact several more
        · rename_i single
          exact (max_one_not_gt_iff _).mp single

private theorem isOwnSliceCount_of_header (header : Header) :
    isOwnSliceCount (arrangementOfHeader header).1 (arrangementOfHeader header).2 ∧
      needsExtension (arrangementOfHeader header).1 = false := by
  unfold arrangementOfHeader
  split
  · exact ⟨one_le_max_one header.depth, rfl⟩
  · split <;> exact ⟨rfl, rfl⟩

private theorem storable_of_readFormat {format : StoredFormat} {dimensions : Dimensions}
    {count : UInt32}
    {offset : Nat} (read : readFormat file header = .ok (format, dimensions, count, offset)) :
    isOwnSliceCount dimensions count ∧ canStore format dimensions = true ∧
      payloadOffset dimensions ≤ offset := by
  unfold readFormat at read
  split at read
  · split at read
    · cases read
    · dsimp only at read
      split at read
      · cases read
      · rename_i named
        cases arranged : arrangementOfExtension header
            (Extension.ofBytes (file.drop headerSize)) with
        | error error =>
          rw [arranged] at read
          cases read
        | ok arrangement =>
          rw [arranged] at read
          cases read
          refine ⟨isOwnSliceCount_of_extension arranged, ?_, (payloadOffset_bounds _).2⟩
          rw [canStore, isSome_formatNumber? named, Bool.or_true]
  · split at read
    · cases read
    · have own := isOwnSliceCount_of_header header
      generalize arrangementOfHeader header = arrangement at own read
      obtain ⟨own, plain⟩ := own
      cases read
      refine ⟨own, ?_, ?_⟩
      · rw [canStore, plain]
        rfl
      · rw [payloadOffset, plain]
        exact Nat.le_refl _

/-- The image of an accepted file can be stored as itself, behind a header that is not longer. -/
theorem storable_of_parse (parsed : parse file = .ok contents) :
    Storable contents.info ∧ restored contents.info = contents.info ∧
      payloadOffset contents.info.dimensions ≤ contents.offset := by
  have accepted := accepted_of_parse parsed
  obtain ⟨_, _, _, read, _, _⟩ := parse_eq_ok parsed
  obtain ⟨own, stored, least⟩ := storable_of_readFormat read
  have storable : Storable contents.info :=
    ⟨accepted.width, accepted.height, accepted.levels, isSliceCount_of_own own, stored⟩
  exact ⟨storable, restored_of_own own, least⟩

/-! ## The payload -/

private theorem slice_memoryContents {payload : Bytes} (flat : info.dimensions ≠ .volume)
    (enough : info.exactSize ≤ payload.length) {move : Move}
    (member : move ∈ layerMajorMoves info) :
    (Patch.contents (memoryPatches info payload)).slice move.memory move.size =
      payload.slice move.disk move.size := by
  have placed := (memoryPatches_endToEnd flat enough).slice_contents
    (List.mem_map_of_mem ((mem_levelMajorMoves flat move).mpr member))
  have length := Bytes.length_slice_of_le (Nat.le_trans (move_bounds flat member).1 enough)
  simpa only [length, Nat.sub_zero] using placed

/-- Putting a payload into the order of memory and back restores it. -/
theorem toDisk_memoryContents {payload : Bytes} (flat : info.dimensions ≠ .volume)
    (fits : info.exactSize < wordLimit) (whole : payload.length = info.exactSize) :
    toDisk info (Patch.contents (memoryPatches info payload)) = payload := by
  have enough := Nat.le_of_eq whole.symm
  have length := length_memoryContents flat enough
  rw [toDisk_eq flat fits (Nat.le_of_eq length.symm)]
  have cut : ∀ patch ∈ diskPatches info (Patch.contents (memoryPatches info payload)),
      patch.bytes = payload.slice patch.offset patch.bytes.length := by
    intro patch member
    obtain ⟨move, present, rfl⟩ := List.mem_map.mp member
    have same := slice_memoryContents flat enough present
    have size := Bytes.length_slice_of_le (Nat.le_trans (move_bounds flat present).1 enough)
    simp only [same, size]
  rw [(diskPatches_endToEnd flat (Nat.le_of_eq length.symm)).contents_eq_slice cut, Nat.sub_zero,
    Bytes.slice_zero, List.take_of_length_le (Nat.le_of_eq whole)]

theorem parse_of_loadHeader (loaded : loadHeader file = .ok info) :
    ∃ contents, parse file = .ok contents ∧ contents.info = info := by
  unfold loadHeader at loaded
  cases parsed : parse file with
  | error error =>
    rw [parsed] at loaded
    cases loaded
  | ok contents =>
    rw [parsed] at loaded
    exact ⟨contents, rfl, Except.ok.inj loaded⟩

theorem Accepted.exactSize_lt (accepted : Accepted file contents) :
    contents.info.exactSize < wordLimit :=
  accepted.size ▸ Nat.lt_of_le_of_lt (Nat.le_add_left _ _) accepted.word

private theorem payload_texelsOf (accepted : Accepted file contents) :
    payload contents.info (texelsOf file contents) =
      file.slice contents.offset contents.size := by
  have word := accepted.exactSize_lt
  have whole := (length_payloadSlice accepted).trans accepted.size
  unfold payload texelsOf
  cases layered : isLayerMajor contents.info with
  | true => exact toDisk_memoryContents (flat_of_layerMajor layered) word whole
  | false =>
    rw [ImageInfo.payloadSize_eq word]
    exact List.take_of_length_le (Nat.le_of_eq whole)

/-! ## The writer within its bounds -/

/-- The same place with memory and disk exchanged. -/
def Move.reversed (move : Move) : Move := ⟨move.memory, move.disk, move.size⟩

/-- The payload of an image, cut and put together within bounds. -/
def guardedPayload (info : ImageInfo) (texels : Bytes) : Option Bytes :=
  if isLayerMajor info then do
    let moves ← guardedMoves info
    guardedCopy texels (moves.map Move.reversed) (Bytes.zeros info.payloadSize)
  else texels.slice? 0 info.payloadSize

/-- The bytes of the first level of a block format, or of one row of any other. -/
def pitchSize (info : ImageInfo) : Nat :=
  info.format.sliceSize info.width.toNat (if isBlock info.format then info.height.toNat else 1)

/-- The file of an image, with every number checked that goes into it. -/
def guardedSave (info : ImageInfo) (texels : Bytes) : Option (Except SaveError Bytes) :=
  if texels.length < info.payloadSize then
    some (.error (.textureTooShort texels.length info.payloadSize))
  else
    match extensionOf info with
    | .error error => some (.error error)
    | .ok extension => do
      let _pitch ← fitsWord (pitchSize info)
      let payload ← guardedPayload info texels
      some (.ok (magic ++ encodeWords (build info).toWords ++
        ((extension.map fun extension => encodeWords extension.toWords).getD []) ++ payload))

theorem guardedPayload_eq (word : info.exactSize < wordLimit)
    (enough : info.exactSize ≤ texels.length) :
    guardedPayload info texels = some (payload info texels) := by
  unfold guardedPayload payload
  rw [ImageInfo.payloadSize_eq word]
  cases layered : isLayerMajor info with
  | true =>
    have flat := flat_of_layerMajor layered
    have room := Nat.le_of_eq (Bytes.length_zeros info.exactSize).symm
    have inside : ∀ move ∈ (layerMajorMoves info).map Move.reversed,
        move.disk + move.size ≤ info.exactSize ∧ move.memory + move.size ≤ info.exactSize := by
      intro move member
      obtain ⟨other, present, rfl⟩ := List.mem_map.mp member
      exact (move_bounds flat present).symm
    have copied := guardedCopy_eq word enough room inside
    rw [if_pos rfl, if_pos rfl, guardedMoves_eq flat word]
    change guardedCopy texels _ _ = _
    rw [copied, List.foldl_map, toDisk, ImageInfo.payloadSize_eq word]
    rfl
  | false =>
    rw [if_neg nofun, if_neg nofun, Bytes.slice?_of_le (by omega) (by omega), Bytes.slice_zero]

/-- A first level is a part of the payload, and a row of single texels is short. -/
theorem pitchSize_lt (levels : 1 ≤ info.levels.toNat) (word : info.exactSize < wordLimit) :
    pitchSize info < wordLimit := by
  unfold pitchSize
  cases block : isBlock info.format with
  | true =>
    have member : info.level 0 ∈ info.mipChain :=
      List.mem_map_of_mem (List.mem_range.mpr levels)
    have whole : info.sliceSize (info.level 0) ≤ info.levelSize (info.level 0) :=
      Nat.le_mul_of_pos_right _ (info.slices_pos_of_mem_mipChain member)
    have first : info.format.sliceSize info.width.toNat info.height.toNat ≤
        info.sliceSize (info.level 0) := by
      unfold ImageInfo.sliceSize ImageInfo.level
      rw [mipExtent_zero, mipExtent_zero]
      exact StorageClass.sliceSize_le _ (Nat.le_max_right 1 _) (Nat.le_max_right 1 _)
    rw [if_pos rfl]
    exact Nat.lt_of_le_of_lt (first.trans (whole.trans (levelSize_le info member))) word
  | false =>
    have bound := info.width.toNat_lt
    have row : info.format.sliceSize info.width.toNat 1 ≤ info.width.toNat * 4 := by
      unfold StoredFormat.sliceSize
      cases format : info.format with
      | bc1 | bc2 | bc3 =>
        rw [format] at block
        cases block
      | rgba8 | bgra8 | r5g6b5 | r5g5b5a1 | r4g4b4a4 =>
        simp only [StoredFormat.storage, StorageClass.sliceSize]
        omega
    rw [if_neg Bool.false_ne_true]
    unfold wordLimit UInt64.size
    omega

/-- Writing an image that fits never leaves the bounds of its texels or of the machine word. -/
theorem guardedSave_eq (levels : 1 ≤ info.levels.toNat) (word : info.exactSize < wordLimit)
    (enough : info.exactSize ≤ texels.length) :
    guardedSave info texels = some (save info texels) := by
  have long : ¬ texels.length < info.payloadSize := by
    rw [ImageInfo.payloadSize_eq word]
    exact Nat.not_lt.mpr enough
  unfold guardedSave save
  rw [if_neg long, if_neg long]
  cases extensionOf info with
  | error error => rfl
  | ok extension =>
    simp only [fitsWord_of_lt (pitchSize_lt levels word), guardedPayload_eq word enough,
      Option.bind_eq_bind, Option.bind_some]
    rfl

/-! ## The whole file -/

private theorem dataOffset_headerBytes (storable : Storable info) (fits :
    payloadOffset info.dimensions + info.exactSize < wordLimit) {rest : Bytes}
    (enough : info.exactSize ≤ rest.length) :
    dataOffset (headerBytes info ++ rest) = payloadOffset info.dimensions :=
  (accepted_of_parse (parse_of_fits storable fits enough)).offset.symm

/-- Every accepted file is written again as itself, however its header is spelled. What it describes
can be stored; the file that is written of its header and its texels has the same header, the same
texels, and behind a header of its own exactly the bytes of the payload. -/
theorem save_loaded (file : Bytes) (info : ImageInfo) (loaded : loadHeader file = .ok info) :
    canStore info.format info.dimensions = true ∧
    ∃ texels, loadData file (Bytes.zeros info.payloadSize) = .ok texels ∧
      (∀ buffer : Bytes, buffer.length = info.payloadSize → loadData file buffer = .ok texels) ∧
      ∃ again, guardedSave info texels = some (.ok again) ∧ save info texels = .ok again ∧
        loadHeader again = .ok info ∧
        (∀ buffer : Bytes, buffer.length = info.payloadSize →
          loadData again buffer = .ok texels) ∧
        again.drop (dataOffset again) = file.slice (dataOffset file) info.payloadSize := by
  obtain ⟨contents, parsed, rfl⟩ := parse_of_loadHeader loaded
  have accepted := accepted_of_parse parsed
  obtain ⟨storable, same, least⟩ := storable_of_parse parsed
  have word := accepted.exactSize_lt
  have size := ImageInfo.payloadSize_eq word
  have length := length_texelsOf accepted
  rw [accepted.size] at length
  have fits : payloadOffset contents.info.dimensions + contents.info.exactSize < wordLimit :=
    Nat.lt_of_le_of_lt (Nat.add_le_add_right least _) (accepted.size ▸ accepted.word)
  have fill (buffer : Bytes) (whole : buffer.length = contents.info.payloadSize) :
      loadData file buffer = .ok (texelsOf file contents) := by
    rw [size, ← accepted.size] at whole
    rw [loadData_eq parsed (Nat.le_of_eq whole.symm), ← whole, List.drop_length, List.append_nil]
  have whole : (payload contents.info (texelsOf file contents)).length =
      contents.info.exactSize := length_payload word (Nat.le_of_eq length.symm)
  have saved := save_eq storable (Nat.le_of_eq (size.trans length.symm))
  have guarded := guardedSave_eq accepted.levels.1 word (Nat.le_of_eq length.symm)
  refine ⟨storable.format, texelsOf file contents, fill _ (Bytes.length_zeros _), fill, _,
    guarded.trans (congrArg some saved), saved, ?_, ?_, ?_⟩
  · unfold loadHeader
    rw [parse_of_fits storable fits (Nat.le_of_eq whole.symm), same]
    rfl
  · intro buffer room
    rw [size] at room
    rw [loadData_of_fits storable fits (Nat.le_of_eq length.symm) (Nat.le_of_eq room.symm),
      ← length, List.take_length, length, ← room, List.drop_length, List.append_nil]
  · rw [dataOffset_headerBytes storable fits (Nat.le_of_eq whole.symm),
      List.drop_left' (length_headerBytes storable), payload_texelsOf accepted, accepted.offset,
      accepted.size, size]

/-- Two layers of two levels behind an extended header with the number of an sRGB twin, with fewer
flags than the writer sets and with bytes behind the payload. -/
theorem save_loaded_twin :
    let info : ImageInfo := ⟨3, 2, 2, 2, .bgra8, .flatArray⟩
    let header := { build info with flags := flagMipMapCount, caps := 0, caps2 := caps2Cube }
    let extension : Extension := ⟨91, dimension2D, 0, 2, 1⟩
    let file := magic ++ encodeWords header.toWords ++ encodeWords extension.toWords ++
      (List.range 60).map UInt8.ofNat
    loadHeader file = .ok info ∧
    ∃ texels again, loadData file (Bytes.zeros 56) = .ok texels ∧
      guardedSave info texels = some (.ok again) ∧ again ≠ file ∧
      loadHeader again = .ok info ∧ loadData again (Bytes.zeros 56) = .ok texels ∧
      again.drop (dataOffset again) = (List.range 56).map UInt8.ofNat := by
  intro info header extension file
  have loaded : loadHeader file = .ok info := by decide +kernel
  have size : info.payloadSize = 56 := by decide
  have cut : file.slice (dataOffset file) 56 = (List.range 56).map UInt8.ofNat := by
    decide +kernel
  obtain ⟨_, texels, read, _, again, guarded, _, header, data, rest⟩ :=
    save_loaded file info loaded
  rw [size] at read data rest
  refine ⟨loaded, texels, again, read, guarded, ?_, header, data _ (Bytes.length_zeros 56),
    rest.trans cut⟩
  -- The file that is written ends with its payload.
  rintro rfl
  have longer : (file.drop (dataOffset file)).length = 60 := by decide +kernel
  rw [rest, cut] at longer
  exact absurd longer (by decide)

end TextureCache.Dds
