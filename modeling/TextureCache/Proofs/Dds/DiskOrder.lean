import TextureCache.Proofs.Dds.Canonical

/-! What lies where in a written file. Behind its header a volume lies as in memory, and any other
image lies layer by layer, each layer with its levels from the largest one down. An image with one
layer or with one level is copied as it is, which is the same order. -/
namespace TextureCache.Dds

variable {info : ImageInfo} {texels : Bytes}

/-- Where a level starts in memory: behind all slices of the larger levels. -/
def levelStart (info : ImageInfo) (index : Nat) : Nat :=
  ((List.range index).map fun larger => info.levelSize (info.level larger)).sum

/-- The bytes of a payload in the order of a file. -/
def diskOrder (info : ImageInfo) (texels : Bytes) : Bytes :=
  if info.dimensions = .volume then texels.take info.payloadSize
  else
    (List.range (layers info)).flatMap fun layer =>
      (List.range info.levels.toNat).flatMap fun index =>
        texels.slice (levelStart info index + layer * sliceSizeAt info index)
          (sliceSizeAt info index)

private theorem levelStart_eq (flat : info.dimensions ≠ .volume) (index : Nat) :
    levelStart info index = layers info * chainSize info index := by
  have sizes : (List.range index).map (fun larger => info.levelSize (info.level larger)) =
      (List.range index).map fun larger => layers info * sliceSizeAt info larger := by
    apply List.map_congr_left
    intro larger _
    exact (congrArg (sliceSizeAt info larger * ·) (slicesAt_eq_layers flat larger)).trans
      (Nat.mul_comm _ _)
  rw [levelStart, sizes, List.sum_map_mul_left, chainSize]

private theorem diskOrder_eq_moves (flat : info.dimensions ≠ .volume) :
    diskOrder info texels =
      (layerMajorMoves info).flatMap fun move => texels.slice move.memory move.size := by
  unfold diskOrder
  rw [if_neg flat, layerMajorMoves_eq flat, List.flatMap_assoc]
  simp only [levelStart_eq flat, List.flatMap_map]
  rfl

/-- In the order of memory the slices are the texels themselves. -/
theorem levelMajor_texels (flat : info.dimensions ≠ .volume)
    (enough : info.exactSize ≤ texels.length) :
    ((levelMajorMoves info).flatMap fun move => texels.slice move.memory move.size) =
      texels.take info.exactSize := by
  have size (move : Move) (member : move ∈ layerMajorMoves info) :
      (texels.slice move.memory move.size).length = move.size :=
    Bytes.length_slice_of_le ((move_bounds flat member).2.trans enough)
  have chain := endToEnd_memory (fun move => texels.slice move.memory move.size) flat
    fun layer inside index level => size _ (moveAt_mem flat inside level)
  have whole : Patch.contents _ = texels.slice 0 (info.exactSize - 0) :=
    chain.contents_eq_slice fun patch member => by
      obtain ⟨move, present, rfl⟩ := List.mem_map.mp member
      simp only [size move ((mem_levelMajorMoves flat move).mp present)]
  rw [Patch.contents, List.flatMap_map, Nat.sub_zero, Bytes.slice_zero] at whole
  exact whole

private theorem moves_eq_of_straight (flat : info.dimensions ≠ .volume)
    (levels : 1 ≤ info.levels.toNat)
    (straight : isLayerMajor info = false) : layerMajorMoves info = levelMajorMoves info := by
  have single : layers info = 1 ∨ info.levels.toNat = 1 := by
    simp only [isLayerMajor, flat, ne_eq, not_false_eq_true, decide_true, Bool.true_and,
      Bool.and_eq_false_iff, decide_eq_false_iff_not, gt_iff_lt, UInt32.lt_iff_toNat_lt,
      UInt32.reduceToNat] at straight
    unfold layers
    omega
  rw [layerMajorMoves_eq flat, levelMajorMoves]
  rcases single with layer | level
  · simp only [layer, List.range_one, List.flatMap_singleton, List.map_eq_flatMap]
  · simp only [level, List.range_one, List.flatMap_singleton, List.map_eq_flatMap]

theorem diskOrder_of_straight (levels : 1 ≤ info.levels.toNat) (fits : info.exactSize < wordLimit)
    (enough : info.exactSize ≤ texels.length) (straight : isLayerMajor info = false) :
    diskOrder info texels = texels.take info.payloadSize := by
  by_cases volume : info.dimensions = .volume
  · exact if_pos volume
  · rw [diskOrder_eq_moves volume, moves_eq_of_straight volume levels straight,
      levelMajor_texels volume enough, ImageInfo.payloadSize_eq fits]

/-- The payload of an image has the order of a file, whichever way it is put together. -/
theorem payload_eq_diskOrder (levels : 1 ≤ info.levels.toNat) (fits : info.exactSize < wordLimit)
    (enough : info.exactSize ≤ texels.length) : payload info texels = diskOrder info texels := by
  unfold payload
  cases layered : isLayerMajor info with
  | true =>
    have flat := flat_of_layerMajor layered
    rw [if_pos rfl, toDisk_eq flat fits enough, diskOrder_eq_moves flat, Patch.contents,
      diskPatches, List.flatMap_map]
  | false =>
    rw [if_neg Bool.false_ne_true, diskOrder_of_straight levels fits enough layered]

/-- A file is its header, of 148 bytes for arrays and 128 for all others, and behind it the payload
in the order of a file. The straight copy that one layer or one level gets is that order. -/
theorem save_diskOrder (info : ImageInfo) (texels : Bytes) (levels : 1 ≤ info.levels.toNat)
    (stored : canStore info.format info.dimensions = true) (fits : info.exactSize < 2 ^ 64)
    (enough : info.payloadSize ≤ texels.length) :
    ∃ header : Bytes, header.length = (if needsExtension info.dimensions then 148 else 128) ∧
      save info texels = .ok (header ++ diskOrder info texels) ∧
      guardedSave info texels = some (save info texels) ∧
      (isLayerMajor info = false → diskOrder info texels = texels.take info.payloadSize) := by
  have saved := save_eq_of_canStore stored enough
  rw [ImageInfo.payloadSize_eq fits] at enough
  rw [payload_eq_diskOrder levels fits enough] at saved
  exact ⟨headerBytes info, length_headerBytes_of_canStore stored, saved,
    guardedSave_eq levels fits enough, diskOrder_of_straight levels fits enough⟩

/-- Two layers of three levels in blocks, the last two of which are one block each. -/
theorem save_diskOrder_blocks :
    let info : ImageInfo := ⟨5, 3, 2, 3, .bc1, .flatArray⟩
    let part (count : Nat) (byte : UInt8) : Bytes := List.replicate count byte
    let texels := part 16 0 ++ part 16 1 ++ part 8 2 ++ part 8 3 ++ part 8 4 ++ part 8 5 ++ [6]
    info.exactSize < 2 ^ 64 ∧ info.payloadSize ≤ texels.length ∧
    ∃ header : Bytes, header.length = 148 ∧
      save info texels = .ok (header ++ (part 16 0 ++ part 8 2 ++ part 8 4 ++
        part 16 1 ++ part 8 3 ++ part 8 5)) := by
  intro info part texels
  have fits : info.exactSize < 2 ^ 64 := by decide
  have enough : info.payloadSize ≤ texels.length := by decide
  obtain ⟨header, length, saved, _⟩ :=
    save_diskOrder info texels (by decide) (by decide) fits enough
  have order : diskOrder info texels = part 16 0 ++ part 8 2 ++ part 8 4 ++
      part 16 1 ++ part 8 3 ++ part 8 5 := by decide
  exact ⟨fits, enough, header, length, order ▸ saved⟩

end TextureCache.Dds
