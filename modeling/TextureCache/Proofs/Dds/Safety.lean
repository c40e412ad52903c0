import Mathlib.Algebra.Order.BigOperators.Group.List
import Mathlib.Algebra.Order.Group.Nat
import TextureCache.Dds.File
import TextureCache.Proofs.Dds.Order

/-! The DDS reader stays within its bounds on every file. `guardedHeader` and `guardedData` read as
`loadHeader` and `loadData` do, but they check every range against the bytes that it is cut from or
put into and every number against the machine word, and have no answer where one of them does not
fit. They always have one, and it is the answer of the plain reader. -/
namespace TextureCache

/-- Cut out a range that has to lie in the bytes. -/
def Bytes.slice? (bytes : Bytes) (offset size : Nat) : Option Bytes := do
  let stop ← fitsWord (offset + size)
  if stop ≤ bytes.length then some (bytes.slice offset size) else none

/-- Replace a range that has to lie in the bytes. -/
def Bytes.overwrite? (bytes : Bytes) (offset : Nat) (part : Bytes) : Option Bytes := do
  let stop ← fitsWord (offset + part.length)
  if stop ≤ bytes.length then some (bytes.overwrite offset part) else none

theorem Bytes.slice?_of_le {bytes : Bytes} {offset size : Nat} (word : offset + size < wordLimit)
    (fits : offset + size ≤ bytes.length) :
    bytes.slice? offset size = some (bytes.slice offset size) := by
  unfold slice?
  rw [fitsWord_of_lt word]
  exact if_pos fits

theorem Bytes.overwrite?_of_le {bytes part : Bytes} {offset : Nat}
    (word : offset + part.length < wordLimit) (fits : offset + part.length ≤ bytes.length) :
    bytes.overwrite? offset part = some (bytes.overwrite offset part) := by
  unfold overwrite?
  rw [fitsWord_of_lt word]
  exact if_pos fits

namespace Dds

/-- Where consecutive parts start. Every running sum is checked, that behind the last part too. -/
def guardedStarts : (start : Nat) → List Nat → Option (List Nat)
  | _, [] => some []
  | start, size :: rest => do
    let next ← fitsWord (start + size)
    let others ← guardedStarts next rest
    some (start :: others)

def guardedSum : (total : Nat) → List Nat → Option Nat
  | total, [] => some total
  | total, size :: rest => do guardedSum (← fitsWord (total + size)) rest

/-- The places of one layer's slices from a level on, which starts at an offset on disk. -/
def guardedRow (levelStarts : List Nat) (layer : Nat) :
    (index offset : Nat) → List Nat → Option (List Move)
  | _, _, [] => some []
  | index, offset, size :: rest => do
    let start ← levelStarts[index]?
    let shift ← fitsWord (layer * size)
    let memory ← fitsWord (start + shift)
    let next ← fitsWord (offset + size)
    let others ← guardedRow levelStarts layer (index + 1) next rest
    some (⟨offset, memory, size⟩ :: others)

def guardedMoves (info : ImageInfo) : Option (List Move) := do
  let sizes ← info.mipChain.mapM fun level =>
    info.format.checkedSliceSize level.width level.height
  let totals ← (info.mipChain.zip sizes).mapM fun (level, size) => fitsWord (size * level.slices)
  let levelStarts ← guardedStarts 0 totals
  let chain ← guardedSum 0 sizes
  let count := max 1 info.depthOrLayers.toNat
  let _room ← fitsWord (count * sizes.length)
  let rows ← (List.range count).mapM fun layer => do
    guardedRow levelStarts layer 0 (← fitsWord (layer * chain)) sizes
  some rows.flatten

def guardedCopy (payload : Bytes) : List Move → Bytes → Option Bytes
  | [], buffer => some buffer
  | move :: rest, buffer => do
    let part ← payload.slice? move.disk move.size
    guardedCopy payload rest (← buffer.overwrite? move.memory part)

def guardedFormat (file : Bytes) (header : Header) :
    Option (Except LoadError (StoredFormat × Dimensions × UInt32 × Nat)) :=
  if isExtended header.pixel then
    if file.length < extendedHeaderSize then some (.error .corruptedHeader)
    else do
      let extension := Extension.ofBytes (← file.slice? headerSize 20)
      match formatOfNumber? extension.format with
      | none => some (.error .unsupportedFormat)
      | some format =>
        match arrangementOfExtension header extension with
        | .error error => some (.error error)
        | .ok (dimensions, count) => some (.ok (format, dimensions, count, extendedHeaderSize))
  else some (readFormat file header)

def guardedParse (file : Bytes) : Option (Except LoadError Contents) :=
  if file.length < headerSize then some (.error .corruptedHeader)
  else do
    if (← file.slice? 0 4) ≠ magic then some (.error .corruptedHeader)
    else
      let header := Header.ofBytes (← file.slice? 4 124)
      if header.isSound then
        match ← guardedFormat file header with
        | .error error => some (.error error)
        | .ok (format, dimensions, count, offset) =>
          some (locatePayload file
            ⟨header.width, header.height, count, levelsOfHeader header, format, dimensions⟩ offset)
      else some (.error .corruptedHeader)

def guardedHeader (file : Bytes) : Option (Except LoadError ImageInfo) :=
  (guardedParse file).map fun parsed => parsed.map Contents.info

/-- Copy the payload of a file into a buffer: the outcome, and the buffer afterwards. -/
def guardedData (file buffer : Bytes) : Option (Except LoadError Unit × Bytes) := do
  match ← guardedParse file with
  | .error error => some (.error error, buffer)
  | .ok contents =>
    if buffer.length < contents.size then some (.error .outputTooShort, buffer)
    else
      let payload ← file.slice? contents.offset contents.size
      if isLayerMajor contents.info then
        let moves ← guardedMoves contents.info
        some (.ok (), ← guardedCopy payload moves buffer)
      else some (.ok (), ← buffer.overwrite? 0 payload)

section Header

variable {file buffer : Bytes} {header : Header} {contents : Contents}

def dataOffset (file : Bytes) : Nat :=
  if isExtended (Header.ofBytes (file.drop 4)).pixel then extendedHeaderSize else headerSize

private theorem wordAt_take {bytes : Bytes} {number bound : Nat} (inside : 4 * number + 4 ≤ bound) :
    wordAt (bytes.take bound) number = wordAt bytes number := by
  unfold wordAt
  rw [Bytes.slice_take inside]

theorem ofBytes_take_header (bytes : Bytes) :
    Header.ofBytes (bytes.take 124) = Header.ofBytes bytes := by
  have word (number : Nat) (inside : 4 * number + 4 ≤ 124) :
      wordAt (bytes.take 124) number = wordAt bytes number := wordAt_take inside
  unfold Header.ofBytes
  simp only [word 0 (by decide), word 1 (by decide), word 2 (by decide), word 3 (by decide),
    word 4 (by decide), word 5 (by decide), word 6 (by decide), word 18 (by decide),
    word 19 (by decide), word 20 (by decide), word 21 (by decide), word 22 (by decide),
    word 23 (by decide), word 24 (by decide), word 25 (by decide), word 26 (by decide),
    word 27 (by decide)]

theorem ofBytes_take_extension (bytes : Bytes) :
    Extension.ofBytes (bytes.take 20) = Extension.ofBytes bytes := by
  have word (number : Nat) (inside : 4 * number + 4 ≤ 20) :
      wordAt (bytes.take 20) number = wordAt bytes number := wordAt_take inside
  unfold Extension.ofBytes
  simp only [word 0 (by decide), word 1 (by decide), word 2 (by decide), word 3 (by decide),
    word 4 (by decide)]

private theorem guardedFormat_eq (file : Bytes) (header : Header) :
    guardedFormat file header = some (readFormat file header) := by
  unfold guardedFormat readFormat
  split
  · split
    · rfl
    · rename_i long
      have fits : headerSize + 20 ≤ file.length := Nat.not_lt.mp long
      have cut : file.slice? headerSize 20 = some (file.slice headerSize 20) :=
        Bytes.slice?_of_le (by decide) fits
      have words : Extension.ofBytes (file.slice headerSize 20) =
          Extension.ofBytes (file.drop headerSize) := ofBytes_take_extension _
      rw [cut]
      change (match formatOfNumber? (Extension.ofBytes (file.slice headerSize 20)).format with
        | none => some _ | some format => _) = _
      rw [words]
      dsimp only
      cases formatOfNumber? (Extension.ofBytes (file.drop headerSize)).format with
      | none => rfl
      | some format =>
        cases arrangementOfExtension header (Extension.ofBytes (file.drop headerSize)) <;> rfl
  · rfl

private theorem guardedParse_eq (file : Bytes) : guardedParse file = some (parse file) := by
  unfold guardedParse parse
  by_cases short : file.length < headerSize
  · rw [if_pos short, if_pos (Or.inl short)]
  · have long : 128 ≤ file.length := Nat.not_lt.mp short
    have start : file.slice? 0 4 = some (file.take 4) :=
      Bytes.slice?_of_le (by decide) (by omega)
    have words : file.slice? 4 124 = some ((file.drop 4).take 124) :=
      Bytes.slice?_of_le (by decide) (by omega)
    rw [if_neg short, start]
    change (if file.take 4 ≠ magic then _ else _) = _
    by_cases other : file.take 4 ≠ magic
    · rw [if_pos other, if_pos (Or.inr other)]
    · rw [if_neg other, if_neg (not_or.mpr ⟨short, other⟩), words]
      change (if (Header.ofBytes ((file.drop 4).take 124)).isSound then _ else _) = _
      rw [ofBytes_take_header]
      dsimp only
      split
      · rw [guardedFormat_eq]
        cases readFormat file (Header.ofBytes (file.drop 4)) <;> rfl
      · rfl

theorem one_le_max_one (count : UInt32) : 1 ≤ (max 1 count).toNat := by
  by_cases positive : (1 : UInt32) ≤ count
  · rw [show max 1 count = count from if_pos positive]
    exact UInt32.le_iff_toNat_le.mp positive
  · rw [show max 1 count = 1 from if_neg positive]
    decide

private theorem slices_of_arrangementOfExtension {extension : Extension} {dimensions : Dimensions}
    {count : UInt32}
    (arranged : arrangementOfExtension header extension = .ok (dimensions, count)) :
    1 ≤ count.toNat := by
  have array := one_le_max_one extension.arraySize
  unfold arrangementOfExtension at arranged
  split at arranged
  · cases arranged
    exact one_le_max_one header.depth
  · split at arranged
    · cases arranged
    · dsimp only at arranged
      split at arranged
      · split at arranged
        · rename_i fits
          cases arranged
          have faces : cubeFaces.toNat = 6 := rfl
          rw [UInt32.toNat_mul, faces, Nat.mod_eq_of_lt fits]
          omega
        · cases arranged
      · cases arranged
        exact array

private theorem slices_of_arrangementOfHeader (header : Header) :
    1 ≤ (arrangementOfHeader header).2.toNat := by
  unfold arrangementOfHeader
  split
  · exact one_le_max_one header.depth
  · split <;> decide

/-- A format that was read comes with the offset that the announcement calls for, and with at least
one slice. -/
theorem readFormat_eq_ok {format : StoredFormat} {dimensions : Dimensions} {count : UInt32}
    {offset : Nat} (read : readFormat file header = .ok (format, dimensions, count, offset)) :
    offset = (if isExtended header.pixel then extendedHeaderSize else headerSize) ∧
      1 ≤ count.toNat := by
  unfold readFormat at read
  split at read
  · rename_i extended
    rw [if_pos extended]
    split at read
    · cases read
    · dsimp only at read
      split at read
      · cases read
      · cases arranged : arrangementOfExtension header
            (Extension.ofBytes (file.drop headerSize)) with
        | error error =>
          rw [arranged] at read
          cases read
        | ok arrangement =>
          obtain ⟨kind, slices⟩ := arrangement
          rw [arranged] at read
          cases read
          exact ⟨rfl, slices_of_arrangementOfExtension arranged⟩
  · rename_i plain
    rw [if_neg plain]
    split at read
    · cases read
    · cases read
      exact ⟨rfl, slices_of_arrangementOfHeader header⟩

/-- Everything that an accepted file promises. -/
structure Accepted (file : Bytes) (contents : Contents) : Prop where
  width : 1 ≤ contents.info.width.toNat
  height : 1 ≤ contents.info.height.toNat
  slices : 1 ≤ contents.info.depthOrLayers.toNat
  levels : 1 ≤ contents.info.levels.toNat ∧ contents.info.levels.toNat ≤ 32
  offset : contents.offset = dataOffset file
  size : contents.size = contents.info.exactSize
  word : contents.offset + contents.size < wordLimit
  fits : contents.offset + contents.size ≤ file.length

theorem one_le_of_ne_zero {value : UInt32} (nonzero : value ≠ 0) : 1 ≤ value.toNat :=
  Nat.one_le_iff_ne_zero.mpr fun zero => nonzero (UInt32.toNat_inj.mp zero)

private theorem levels_of_sound (sound : header.isSound = true) :
    header.width ≠ 0 ∧ header.height ≠ 0 ∧ 1 ≤ (levelsOfHeader header).toNat ∧
      (levelsOfHeader header).toNat ≤ 32 := by
  simp only [Header.isSound, Bool.and_eq_true, bne_iff_ne, decide_eq_true_eq] at sound
  obtain ⟨⟨⟨_, width⟩, height⟩, levels⟩ := sound
  refine ⟨width, height, ?_, UInt32.le_iff_toNat_le.mp levels⟩
  unfold levelsOfHeader
  split
  · exact one_le_max_one header.mipMapCount
  · decide

/-- A payload that was located has its exact size and ends within the file. -/
theorem locatePayload_eq_ok {info : ImageInfo} {offset : Nat}
    (located : locatePayload file info offset = .ok contents) :
    contents = ⟨info, offset, info.exactSize⟩ ∧ offset + info.exactSize < wordLimit ∧
      offset + info.exactSize ≤ file.length := by
  unfold locatePayload at located
  split at located
  · cases located
  · rename_i size checked
    obtain ⟨_, rfl⟩ := ImageInfo.checkedSize_eq_some_iff.mp checked
    split at located
    · cases located
    · rename_i bound counted
      obtain ⟨word, rfl⟩ := fitsWord_eq_some_iff.mp counted
      split at located
      · cases located
      · rename_i reached
        cases located
        exact ⟨rfl, word, Nat.not_lt.mp reached⟩

/-- What an accepted file was accepted for: its magic number, a sound header, the format, the
arrangement and the slice count that were read of it, and a payload that it holds. -/
theorem parse_eq_ok (parsed : parse file = .ok contents) :
    let header := Header.ofBytes (file.drop 4)
    headerSize ≤ file.length ∧ file.take 4 = magic ∧ header.isSound = true ∧
      readFormat file header = .ok (contents.info.format, contents.info.dimensions,
        contents.info.depthOrLayers, contents.offset) ∧
      contents.info = ⟨header.width, header.height, contents.info.depthOrLayers,
        levelsOfHeader header, contents.info.format, contents.info.dimensions⟩ ∧
      locatePayload file contents.info contents.offset = .ok contents := by
  unfold parse at parsed
  split at parsed
  · cases parsed
  · rename_i start
    obtain ⟨long, start⟩ := not_or.mp start
    dsimp only at parsed
    split at parsed
    · rename_i sound
      cases read : readFormat file (Header.ofBytes (file.drop 4)) with
      | error error =>
        rw [read] at parsed
        cases parsed
      | ok found =>
        rw [read] at parsed
        obtain ⟨rfl, _, _⟩ := locatePayload_eq_ok parsed
        exact ⟨Nat.not_lt.mp long, not_not.mp start, sound, read, rfl, parsed⟩
    · cases parsed

theorem accepted_of_parse (parsed : parse file = .ok contents) : Accepted file contents := by
  obtain ⟨_, _, sound, read, info, located⟩ := parse_eq_ok parsed
  obtain ⟨width, height, least, most⟩ := levels_of_sound sound
  obtain ⟨place, slices⟩ := readFormat_eq_ok read
  obtain ⟨size, word, fits⟩ := locatePayload_eq_ok located
  have size : contents.size = contents.info.exactSize := congrArg Contents.size size
  rw [← size] at word fits
  refine ⟨?_, ?_, slices, ?_, place, size, word, fits⟩
  · rw [info]
    exact one_le_of_ne_zero width
  · rw [info]
    exact one_le_of_ne_zero height
  · rw [info]
    exact ⟨least, most⟩

end Header

section Payload

variable {info : ImageInfo} {payload : Bytes}

theorem mapM_eq_some {source : List α} {check : α → Option β} {value : α → β}
    (passes : ∀ item ∈ source, check item = some (value item)) :
    source.mapM check = some (source.map value) := by
  induction source with
  | nil => rfl
  | cons item rest ih =>
    have others := ih fun other member => passes other (List.mem_cons_of_mem item member)
    rw [List.mapM_cons, passes item List.mem_cons_self, others]
    rfl

private theorem guardedStarts_eq {start : Nat} {sizes : List Nat}
    (word : start + sizes.sum < wordLimit) :
    guardedStarts start sizes = some (startsFrom start sizes) := by
  induction sizes generalizing start with
  | nil => rfl
  | cons size rest ih =>
    rw [List.sum_cons, ← Nat.add_assoc] at word
    unfold guardedStarts
    rw [fitsWord_of_lt (by omega)]
    change (guardedStarts (start + size) rest).bind _ = _
    rw [ih word]
    rfl

theorem guardedSum_eq {total : Nat} {sizes : List Nat} (word : total + sizes.sum < wordLimit) :
    guardedSum total sizes = some (total + sizes.sum) := by
  induction sizes generalizing total with
  | nil => rfl
  | cons size rest ih =>
    rw [List.sum_cons, ← Nat.add_assoc] at word ⊢
    unfold guardedSum
    rw [fitsWord_of_lt (by omega)]
    exact ih word

private theorem guardedRow_eq {levelStarts sizes : List Nat} {layer index offset : Nat}
    (paired : levelStarts.length = index + sizes.length)
    (disk : offset + sizes.sum < wordLimit)
    (memory : ∀ pair ∈ (levelStarts.drop index).zip sizes, pair.1 + layer * pair.2 < wordLimit) :
    guardedRow levelStarts layer index offset sizes =
      some (((startsFrom offset sizes).zip ((levelStarts.drop index).zip sizes)).map
        fun (disk, start, size) => ⟨disk, start + layer * size, size⟩) := by
  induction sizes generalizing index offset with
  | nil => rfl
  | cons size rest ih =>
    rw [List.sum_cons, ← Nat.add_assoc] at disk
    have inside : index < levelStarts.length := by
      rw [paired, List.length_cons]
      omega
    have cut : levelStarts.drop index = levelStarts[index] :: levelStarts.drop (index + 1) :=
      List.drop_eq_getElem_cons inside
    rw [cut] at memory ⊢
    have own : levelStarts[index] + layer * size < wordLimit :=
      memory (levelStarts[index], size) List.mem_cons_self
    have others := @ih (index + 1) (offset + size)
      (by rw [paired, List.length_cons]; omega) disk
      (fun pair member => memory pair (List.mem_cons_of_mem _ member))
    unfold guardedRow
    rw [List.getElem?_eq_getElem inside,
      fitsWord_of_lt (Nat.lt_of_le_of_lt (Nat.le_add_left _ _) own)]
    change (fitsWord (levelStarts[index] + layer * size)).bind _ = _
    rw [fitsWord_of_lt own, fitsWord_of_lt (show offset + size < wordLimit by omega)]
    change (guardedRow levelStarts layer (index + 1) (offset + size) rest).bind _ = _
    rw [others]
    rfl

private theorem chainSize_le (flat : info.dimensions ≠ .volume) :
    chainSize info info.levels.toNat ≤ info.exactSize := by
  rw [exactSize_eq_layers flat]
  exact Nat.le_mul_of_pos_left _ (Nat.le_max_left 1 _)

theorem levelSize_le (info : ImageInfo) {level : Level} (member : level ∈ info.mipChain) :
    info.levelSize level ≤ info.exactSize :=
  List.single_le_sum (fun _ _ => Nat.zero_le _) _ (List.mem_map_of_mem member)

private theorem sum_sliceSizes (info : ImageInfo) :
    (info.mipChain.map info.sliceSize).sum = chainSize info info.levels.toNat := by
  rw [map_sliceSize_mipChain, chainSize]

private theorem guardedRow_layer (flat : info.dimensions ≠ .volume)
    (word : info.exactSize < wordLimit) {layer : Nat} (inside : layer < layers info) :
    guardedRow (startsFrom 0 (info.mipChain.map info.levelSize)) layer 0
        (layer * chainSize info info.levels.toNat) (info.mipChain.map info.sliceSize) =
      some ((List.range info.levels.toNat).map (moveAt info layer)) := by
  have total := exactSize_eq_layers flat
  have last : layer * chainSize info info.levels.toNat + chainSize info info.levels.toNat ≤
      info.exactSize := by
    rw [total, ← Nat.succ_mul]
    exact Nat.mul_le_mul_right _ inside
  have row := @guardedRow_eq (startsFrom 0 (info.mipChain.map info.levelSize))
    (info.mipChain.map info.sliceSize) layer 0 (layer * chainSize info info.levels.toNat)
  rw [sum_sliceSizes] at row
  rw [levelStarts_eq flat, map_sliceSize_mipChain, List.drop_zero, startsFrom_map_range,
    List.zip_map', List.zip_map', List.map_map] at row
  rw [levelStarts_eq flat, map_sliceSize_mipChain]
  apply row
  · simp
  · omega
  · intro pair member
    obtain ⟨index, level, rfl⟩ := List.mem_map.mp member
    have bounds := (move_bounds flat (moveAt_mem flat inside (List.mem_range.mp level))).2
    have place : layers info * chainSize info index + layer * sliceSizeAt info index ≤
        info.exactSize := Nat.le_trans (Nat.le_add_right _ _) bounds
    exact Nat.lt_of_le_of_lt place word

private theorem guardedSliceSizes_eq (word : info.exactSize < wordLimit) :
    info.mipChain.mapM (fun level => info.format.checkedSliceSize level.width level.height) =
      some (info.mipChain.map info.sliceSize) := by
  apply mapM_eq_some
  intro level member
  have positive := info.slices_pos_of_mem_mipChain member
  have small : info.sliceSize level ≤ info.levelSize level := Nat.le_mul_of_pos_right _ positive
  rw [StoredFormat.checkedSliceSize_eq]
  exact fitsWord_of_lt (Nat.lt_of_le_of_lt (Nat.le_trans small (levelSize_le info member)) word)

private theorem guardedLevelSizes_eq (word : info.exactSize < wordLimit) :
    (info.mipChain.zip (info.mipChain.map info.sliceSize)).mapM
      (fun (level, size) => fitsWord (size * level.slices)) =
      some (info.mipChain.map info.levelSize) := by
  have paired : info.mipChain.zip (info.mipChain.map info.sliceSize) =
      info.mipChain.map fun level => (level, info.sliceSize level) := by
    have same : (info.mipChain.map id).zip (info.mipChain.map info.sliceSize) = _ := List.zip_map'
    rwa [List.map_id] at same
  have passes : ∀ pair ∈ info.mipChain.map (fun level => (level, info.sliceSize level)),
      fitsWord (pair.2 * pair.1.slices) = some (pair.2 * pair.1.slices) := by
    intro pair member
    obtain ⟨level, present, rfl⟩ := List.mem_map.mp member
    exact fitsWord_of_lt (Nat.lt_of_le_of_lt (levelSize_le info present) word)
  rw [paired, mapM_eq_some passes, List.map_map]
  rfl

private theorem guardedRows_eq (flat : info.dimensions ≠ .volume)
    (word : info.exactSize < wordLimit) :
    (List.range (layers info)).mapM (fun layer =>
      (fitsWord (layer * chainSize info info.levels.toNat)).bind fun first =>
        guardedRow (startsFrom 0 (info.mipChain.map info.levelSize)) layer 0 first
          (info.mipChain.map info.sliceSize)) =
      some ((List.range (layers info)).map fun layer =>
        (List.range info.levels.toNat).map (moveAt info layer)) := by
  apply mapM_eq_some
  intro layer member
  have inside := List.mem_range.mp member
  have before : layer * chainSize info info.levels.toNat ≤ info.exactSize := by
    rw [exactSize_eq_layers flat]
    exact Nat.mul_le_mul_right _ (Nat.le_of_lt inside)
  rw [fitsWord_of_lt (Nat.lt_of_le_of_lt before word)]
  exact guardedRow_layer flat word inside

/-- The places of all slices are worked out without leaving the machine word. -/
theorem guardedMoves_eq (flat : info.dimensions ≠ .volume) (word : info.exactSize < wordLimit) :
    guardedMoves info = some (layerMajorMoves info) := by
  have chain : chainSize info info.levels.toNat ≤ info.exactSize := chainSize_le flat
  have starts : guardedStarts 0 (info.mipChain.map info.levelSize) =
      some (startsFrom 0 (info.mipChain.map info.levelSize)) := by
    apply guardedStarts_eq
    rwa [Nat.zero_add]
  have sum : guardedSum 0 (info.mipChain.map info.sliceSize) =
      some (chainSize info info.levels.toNat) := by
    rw [guardedSum_eq (by rw [sum_sliceSizes]; omega), sum_sliceSizes, Nat.zero_add]
  have room : fitsWord (layers info * (info.mipChain.map info.sliceSize).length) =
      some (layers info * (info.mipChain.map info.sliceSize).length) := by
    have count : layers info < 2 ^ 32 := by
      have bound := info.depthOrLayers.toNat_lt
      unfold layers
      omega
    have length : (info.mipChain.map info.sliceSize).length < 2 ^ 32 := by
      simpa [ImageInfo.mipChain] using info.levels.toNat_lt
    exact fitsWord_of_lt (Nat.lt_of_lt_of_le (Nat.mul_lt_mul'' count length) (by decide))
  have rows := guardedRows_eq flat word
  unfold layers at room rows
  unfold guardedMoves
  simp only [guardedSliceSizes_eq word, guardedLevelSizes_eq word, starts, sum, room, rows,
    Option.bind_eq_bind, Option.bind_some]
  rw [layerMajorMoves_eq flat, List.flatMap_def]
  rfl

theorem guardedCopy_eq {moves : List Move} {bound : Nat} {buffer : Bytes}
    (word : bound < wordLimit) (whole : bound ≤ payload.length) (room : bound ≤ buffer.length)
    (fits : ∀ move ∈ moves, move.disk + move.size ≤ bound ∧ move.memory + move.size ≤ bound) :
    guardedCopy payload moves buffer = some (moves.foldl (fun buffer move =>
      buffer.overwrite move.memory (payload.slice move.disk move.size)) buffer) := by
  induction moves generalizing buffer with
  | nil => rfl
  | cons move rest ih =>
    obtain ⟨disk, memory⟩ := fits move List.mem_cons_self
    have cut : payload.slice? move.disk move.size = some (payload.slice move.disk move.size) :=
      Bytes.slice?_of_le (by omega) (by omega)
    have length : (payload.slice move.disk move.size).length = move.size :=
      Bytes.length_slice_of_le (by omega)
    have put : buffer.overwrite? move.memory (payload.slice move.disk move.size) =
        some (buffer.overwrite move.memory (payload.slice move.disk move.size)) :=
      Bytes.overwrite?_of_le (by omega) (by omega)
    have kept : (buffer.overwrite move.memory (payload.slice move.disk move.size)).length =
        buffer.length := Bytes.length_overwrite (by omega)
    unfold guardedCopy
    rw [cut]
    change (buffer.overwrite? move.memory (payload.slice move.disk move.size)).bind _ = _
    rw [put]
    exact ih (by omega) fun other member => fits other (List.mem_cons_of_mem move member)

end Payload

private theorem guardedHeader_eq (file : Bytes) : guardedHeader file = some (loadHeader file) := by
  unfold guardedHeader loadHeader
  rw [guardedParse_eq]
  rfl

/-- The texels that the payload of an accepted file holds. -/
def texelsOf (file : Bytes) (contents : Contents) : Bytes :=
  let payload := file.slice contents.offset contents.size
  if isLayerMajor contents.info then Patch.contents (memoryPatches contents.info payload)
  else payload

section Data

variable {file buffer : Bytes} {contents : Contents}

theorem length_payloadSlice (accepted : Accepted file contents) :
    (file.slice contents.offset contents.size).length = contents.size :=
  Bytes.length_slice_of_le accepted.fits

theorem length_texelsOf (accepted : Accepted file contents) :
    (texelsOf file contents).length = contents.size := by
  have length := length_payloadSlice accepted
  unfold texelsOf
  dsimp only
  split
  · rename_i layered
    rw [accepted.size] at length ⊢
    exact length_memoryContents (flat_of_layerMajor layered) (Nat.le_of_eq length.symm)
  · exact length

/-- An accepted payload fills the start of every buffer that has room for it. -/
theorem loadData_eq (parsed : parse file = .ok contents) (room : contents.size ≤ buffer.length) :
    loadData file buffer = .ok (texelsOf file contents ++ buffer.drop contents.size) := by
  have accepted := accepted_of_parse parsed
  have length := length_payloadSlice accepted
  unfold loadData texelsOf
  rw [parsed]
  change (if buffer.length < contents.size then _ else _) = _
  rw [if_neg (Nat.not_lt.mpr room)]
  dsimp only
  cases layered : isLayerMajor contents.info with
  | true =>
    rw [accepted.size] at length room ⊢
    simp only [if_true, toMemory_eq (flat_of_layerMajor layered) (Nat.le_of_eq length.symm) room]
  | false =>
    simp only [Bool.false_eq_true, if_false, Bytes.overwrite_zero, length]

theorem loadData_of_short (parsed : parse file = .ok contents)
    (short : buffer.length < contents.size) : loadData file buffer = .error .outputTooShort := by
  unfold loadData
  rw [parsed]
  exact if_pos short

theorem loadData_of_error {error : LoadError} (refused : parse file = .error error) :
    loadData file buffer = .error error := by
  unfold loadData
  rw [refused]
  rfl

/-- The outcome of a reader and the buffer afterwards; a failure leaves the buffer as it was. -/
def afterwards (buffer : Bytes) (outcome : Except LoadError Bytes) :
    Except LoadError Unit × Bytes :=
  match outcome with
  | .error error => (.error error, buffer)
  | .ok filled => (.ok (), filled)

theorem guardedData_eq (file buffer : Bytes) :
    guardedData file buffer = some (afterwards buffer (loadData file buffer)) := by
  unfold guardedData
  rw [guardedParse_eq]
  cases parsed : parse file with
  | error error =>
    rw [loadData_of_error parsed]
    rfl
  | ok contents =>
    change (if buffer.length < contents.size then _ else _) = _
    by_cases short : buffer.length < contents.size
    · rw [if_pos short, loadData_of_short parsed short]
      rfl
    · have accepted := accepted_of_parse parsed
      have room := Nat.not_lt.mp short
      have length := length_payloadSlice accepted
      have word : contents.info.exactSize < wordLimit := by
        rw [← accepted.size]
        exact Nat.lt_of_le_of_lt (Nat.le_add_left _ _) accepted.word
      have cut := Bytes.slice?_of_le accepted.word accepted.fits
      have plain : loadData file buffer = .ok (if isLayerMajor contents.info then
          toMemory contents.info (file.slice contents.offset contents.size) buffer
          else buffer.overwrite 0 (file.slice contents.offset contents.size)) := by
        unfold loadData
        rw [parsed]
        exact if_neg short
      rw [if_neg short, cut, plain]
      cases layered : isLayerMajor contents.info with
      | true =>
        have flat := flat_of_layerMajor layered
        have moves := guardedMoves_eq flat word
        have whole := Nat.le_of_eq (length.trans accepted.size).symm
        have copied := guardedCopy_eq word whole (accepted.size ▸ room)
          (fun _ member => move_bounds flat member)
        simp only [if_true, Option.bind_eq_bind, Option.bind_some, moves, copied]
        rfl
      | false =>
        have size := accepted.size
        have put : buffer.overwrite? 0 (file.slice contents.offset contents.size) = some _ :=
          Bytes.overwrite?_of_le (by omega) (by omega)
        simp only [Bool.false_eq_true, if_false, Option.bind_eq_bind, Option.bind_some, put]
        rfl

end Data

/-- The reader is safe on every file and every buffer. It never leaves its bounds; what it accepts
is not empty and lies within the file; and it overwrites exactly the start of the buffer that the
header describes, with bytes that depend on the file alone, or nothing at all if it fails. -/
theorem reader_safe (file : Bytes) :
    guardedHeader file = some (loadHeader file) ∧
    (∀ buffer, guardedData file buffer = some (afterwards buffer (loadData file buffer))) ∧
    (∀ info, loadHeader file = .ok info →
      1 ≤ info.width.toNat ∧ 1 ≤ info.height.toNat ∧ 1 ≤ info.depthOrLayers.toNat ∧
      1 ≤ info.levels.toNat ∧ info.levels.toNat ≤ 32 ∧
      dataOffset file + info.payloadSize ≤ file.length ∧
      ∃ texels : Bytes, texels.length = info.payloadSize ∧ ∀ buffer,
        (info.payloadSize ≤ buffer.length →
          loadData file buffer = .ok (texels ++ buffer.drop info.payloadSize)) ∧
        (buffer.length < info.payloadSize → loadData file buffer = .error .outputTooShort)) ∧
    (∀ error, loadHeader file = .error error →
      ∀ buffer, loadData file buffer = .error error) := by
  refine ⟨guardedHeader_eq file, guardedData_eq file, ?_, ?_⟩
  · intro info loaded
    unfold loadHeader at loaded
    cases parsed : parse file with
    | error error =>
      rw [parsed] at loaded
      cases loaded
    | ok contents =>
      rw [parsed] at loaded
      cases loaded
      have accepted := accepted_of_parse parsed
      have word : contents.info.exactSize < wordLimit := by
        rw [← accepted.size]
        exact Nat.lt_of_le_of_lt (Nat.le_add_left _ _) accepted.word
      have size : contents.info.payloadSize = contents.size :=
        (ImageInfo.payloadSize_eq word).trans accepted.size.symm
      rw [size, ← accepted.offset]
      refine ⟨accepted.width, accepted.height, accepted.slices, accepted.levels.1,
        accepted.levels.2, accepted.fits, texelsOf file contents, length_texelsOf accepted, ?_⟩
      intro buffer
      exact ⟨loadData_eq parsed, loadData_of_short parsed⟩
  · intro error refused buffer
    unfold loadHeader at refused
    cases parsed : parse file with
    | ok contents =>
      rw [parsed] at refused
      cases refused
    | error cause =>
      rw [parsed] at refused
      cases refused
      exact loadData_of_error parsed

end Dds
end TextureCache
