import TextureCache.Proofs.Dds.Size
import TextureCache.Proofs.Patch

/-! The two orders of a DDS payload. On disk the slices lie layer by layer and in memory level by
level, and both are arrangements of the same slices that leave no gap and overlap nowhere. So
each order can be restored from the other. -/
namespace TextureCache.Dds

variable {info : ImageInfo} {texels payload buffer : Bytes}

/-- The slices of every level of an image that is no volume. -/
def layers (info : ImageInfo) : Nat := max 1 info.depthOrLayers.toNat

def sliceSizeAt (info : ImageInfo) (index : Nat) : Nat := info.sliceSize (info.level index)

/-- The bytes of one layer's slices before a level. -/
def chainSize (info : ImageInfo) (index : Nat) : Nat :=
  ((List.range index).map (sliceSizeAt info)).sum

/-- The places of one slice: behind all earlier layers and its own larger levels on disk, behind
all larger levels and the earlier layers of its own level in memory. -/
def moveAt (info : ImageInfo) (layer index : Nat) : Move where
  disk := layer * chainSize info info.levels.toNat + chainSize info index
  memory := layers info * chainSize info index + layer * sliceSizeAt info index
  size := sliceSizeAt info index

/-- The places of all slices, level by level and within a level layer by layer. -/
def levelMajorMoves (info : ImageInfo) : List Move :=
  (List.range info.levels.toNat).flatMap fun index =>
    (List.range (layers info)).map fun layer => moveAt info layer index

private theorem chainSize_succ (info : ImageInfo) (index : Nat) :
    chainSize info (index + 1) = chainSize info index + sliceSizeAt info index := by
  simp [chainSize, List.range_succ]

private theorem startsFrom_append (start : Nat) (first second : List Nat) :
    startsFrom start (first ++ second) =
      startsFrom start first ++ startsFrom (start + first.sum) second := by
  induction first generalizing start with
  | nil => rfl
  | cons size rest ih => simp [startsFrom, ih, Nat.add_assoc]

/-- Parts of given sizes start at the running sums of the sizes. -/
theorem startsFrom_map_range (start count : Nat) (size : Nat → Nat) :
    startsFrom start ((List.range count).map size) =
      (List.range count).map fun index => start + ((List.range index).map size).sum := by
  induction count with
  | zero => rfl
  | succ count ih =>
    rw [List.range_succ, List.map_append, startsFrom_append, ih, List.map_append]
    rfl

theorem flat_of_layerMajor (layered : isLayerMajor info = true) :
    info.dimensions ≠ .volume := by
  simp only [isLayerMajor, Bool.and_eq_true, decide_eq_true_eq] at layered
  exact layered.1.1

theorem slicesAt_eq_layers (flat : info.dimensions ≠ .volume) (index : Nat) :
    info.slicesAt index = layers info := if_neg flat

theorem map_sliceSize_mipChain (info : ImageInfo) :
    info.mipChain.map info.sliceSize = (List.range info.levels.toNat).map (sliceSizeAt info) := by
  rw [ImageInfo.mipChain, List.map_map]
  rfl

private theorem map_levelSize_mipChain (flat : info.dimensions ≠ .volume) :
    info.mipChain.map info.levelSize =
      (List.range info.levels.toNat).map fun index => sliceSizeAt info index * layers info := by
  rw [ImageInfo.mipChain, List.map_map]
  apply List.map_congr_left
  intro index _
  exact congrArg (sliceSizeAt info index * ·) (slicesAt_eq_layers flat index)

/-- The size of an image that is no volume: every layer has the same levels. -/
theorem exactSize_eq_layers (flat : info.dimensions ≠ .volume) :
    info.exactSize = layers info * chainSize info info.levels.toNat := by
  rw [ImageInfo.exactSize_eq_sum, map_levelSize_mipChain flat, List.sum_map_mul_right,
    Nat.mul_comm, chainSize]

/-- In memory the levels start behind all layers of the larger levels. -/
theorem levelStarts_eq (flat : info.dimensions ≠ .volume) :
    startsFrom 0 (info.mipChain.map info.levelSize) =
      (List.range info.levels.toNat).map fun index => layers info * chainSize info index := by
  simp only [map_levelSize_mipChain flat, startsFrom_map_range, List.sum_map_mul_right,
    Nat.zero_add, Nat.mul_comm (layers info)]
  rfl

/-- The running offsets amount to the closed form of every place. -/
theorem layerMajorMoves_eq (flat : info.dimensions ≠ .volume) :
    layerMajorMoves info = (List.range (layers info)).flatMap fun layer =>
      (List.range info.levels.toNat).map (moveAt info layer) := by
  have starts : startsFrom 0 (info.mipChain.map fun level =>
      info.sliceSize level * level.slices) = _ := levelStarts_eq flat
  unfold layerMajorMoves
  simp only [starts, map_sliceSize_mipChain, startsFrom_map_range, List.zip_map', List.map_map]
  rfl

theorem mem_levelMajorMoves (flat : info.dimensions ≠ .volume) (move : Move) :
    move ∈ levelMajorMoves info ↔ move ∈ layerMajorMoves info := by
  rw [layerMajorMoves_eq flat]
  simp only [levelMajorMoves, List.mem_flatMap, List.mem_map, List.mem_range]
  constructor
  · rintro ⟨index, level, layer, inside, same⟩
    exact ⟨layer, inside, index, level, same⟩
  · rintro ⟨layer, inside, index, level, same⟩
    exact ⟨index, level, layer, inside, same⟩

/-- On disk the slices lie end to end in layer-major order. -/
theorem endToEnd_disk (part : Move → Bytes) (flat : info.dimensions ≠ .volume)
    (sized : ∀ layer < layers info, ∀ index < info.levels.toNat,
      (part (moveAt info layer index)).length = sliceSizeAt info index) :
    Patch.EndToEnd 0 ((layerMajorMoves info).map fun move => ⟨move.disk, part move⟩)
      info.exactSize := by
  let chain := chainSize info info.levels.toNat
  have layer (layer : Nat) (inside : layer < layers info) :
      Patch.EndToEnd (layer * chain)
        ((List.range info.levels.toNat).map fun index =>
          ⟨(moveAt info layer index).disk, part (moveAt info layer index)⟩)
        ((layer + 1) * chain) := by
    rw [Nat.succ_mul]
    apply Patch.EndToEnd.map_range fun index => layer * chain + chainSize info index
    · exact fun index _ => rfl
    · intro index level
      rw [Patch.stop, sized layer inside index level, chainSize_succ, ← Nat.add_assoc]
      rfl
  have whole := Patch.EndToEnd.flatMap_range (· * chain) layer
  rw [layerMajorMoves_eq flat, List.map_flatMap, exactSize_eq_layers flat]
  simp only [List.map_map]
  rw [Nat.zero_mul] at whole
  exact whole

/-- In memory the slices lie end to end in level-major order. -/
theorem endToEnd_memory (part : Move → Bytes) (flat : info.dimensions ≠ .volume)
    (sized : ∀ layer < layers info, ∀ index < info.levels.toNat,
      (part (moveAt info layer index)).length = sliceSizeAt info index) :
    Patch.EndToEnd 0 ((levelMajorMoves info).map fun move => ⟨move.memory, part move⟩)
      info.exactSize := by
  have level (index : Nat) (inside : index < info.levels.toNat) :
      Patch.EndToEnd (layers info * chainSize info index)
        ((List.range (layers info)).map fun layer =>
          ⟨(moveAt info layer index).memory, part (moveAt info layer index)⟩)
        (layers info * chainSize info (index + 1)) := by
    let bound (layer : Nat) : Nat :=
      layers info * chainSize info index + layer * sliceSizeAt info index
    have first : bound 0 = layers info * chainSize info index := by simp [bound]
    have last : bound (layers info) = layers info * chainSize info (index + 1) := by
      rw [chainSize_succ, Nat.mul_add]
    rw [← first, ← last]
    apply Patch.EndToEnd.map_range bound
    · exact fun layer _ => rfl
    · intro layer below
      rw [Patch.stop, sized layer below index inside]
      simp only [bound, Nat.succ_mul, ← Nat.add_assoc]
      rfl
  have whole := Patch.EndToEnd.flatMap_range (layers info * chainSize info ·) level
  rw [levelMajorMoves, List.map_flatMap, exactSize_eq_layers flat]
  simp only [List.map_map]
  exact whole

theorem move_bounds (flat : info.dimensions ≠ .volume) {move : Move}
    (member : move ∈ layerMajorMoves info) :
    move.disk + move.size ≤ info.exactSize ∧ move.memory + move.size ≤ info.exactSize := by
  have sized : ∀ layer < layers info, ∀ index < info.levels.toNat,
      (Bytes.zeros (moveAt info layer index).size).length = sliceSizeAt info index :=
    fun _ _ _ _ => Bytes.length_zeros _
  have disk := (endToEnd_disk (fun move => Bytes.zeros move.size) flat sized).bounds
    (List.mem_map_of_mem member)
  have memory := (endToEnd_memory (fun move => Bytes.zeros move.size) flat sized).bounds
    (List.mem_map_of_mem ((mem_levelMajorMoves flat move).mpr member))
  simp only [Patch.stop, Bytes.length_zeros] at disk memory
  exact ⟨disk.2, memory.2⟩

theorem moveAt_mem (flat : info.dimensions ≠ .volume) {layer index : Nat}
    (inside : layer < layers info) (level : index < info.levels.toNat) :
    moveAt info layer index ∈ layerMajorMoves info := by
  rw [layerMajorMoves_eq flat]
  exact List.mem_flatMap.mpr
    ⟨layer, List.mem_range.mpr inside, List.mem_map_of_mem (List.mem_range.mpr level)⟩

/-- The slices of a memory image, each with its place on disk. -/
def diskPatches (info : ImageInfo) (texels : Bytes) : List Patch :=
  (layerMajorMoves info).map fun move => ⟨move.disk, texels.slice move.memory move.size⟩

/-- The slices of a payload, each with its place in memory, in the order of memory. -/
def memoryPatches (info : ImageInfo) (payload : Bytes) : List Patch :=
  (levelMajorMoves info).map fun move => ⟨move.memory, payload.slice move.disk move.size⟩

theorem diskPatches_endToEnd (flat : info.dimensions ≠ .volume)
    (enough : info.exactSize ≤ texels.length) :
    Patch.EndToEnd 0 (diskPatches info texels) info.exactSize := by
  apply endToEnd_disk (fun move => texels.slice move.memory move.size) flat
  intro layer inside index level
  have bounds := (move_bounds flat (moveAt_mem flat inside level)).2
  exact Bytes.length_slice_of_le (Nat.le_trans bounds enough)

theorem memoryPatches_endToEnd (flat : info.dimensions ≠ .volume)
    (enough : info.exactSize ≤ payload.length) :
    Patch.EndToEnd 0 (memoryPatches info payload) info.exactSize := by
  apply endToEnd_memory (fun move => payload.slice move.disk move.size) flat
  intro layer inside index level
  have bounds := (move_bounds flat (moveAt_mem flat inside level)).1
  exact Bytes.length_slice_of_le (Nat.le_trans bounds enough)

theorem toDisk_eq (flat : info.dimensions ≠ .volume) (fits : info.exactSize < wordLimit)
    (enough : info.exactSize ≤ texels.length) :
    toDisk info texels = Patch.contents (diskPatches info texels) := by
  have room : info.exactSize ≤ (Bytes.zeros info.exactSize).length := by simp
  have applied := Patch.applyAll_of_endToEnd (diskPatches_endToEnd flat enough)
    (fun _ => Iff.rfl) room
  have rest : (Bytes.zeros info.exactSize).drop info.exactSize = [] :=
    List.drop_eq_nil_of_le (by simp)
  rw [rest, List.append_nil] at applied
  unfold toDisk
  rw [ImageInfo.payloadSize_eq fits, ← applied, Patch.applyAll, diskPatches, List.foldl_map]

theorem length_toDisk (flat : info.dimensions ≠ .volume) (fits : info.exactSize < wordLimit)
    (enough : info.exactSize ≤ texels.length) : (toDisk info texels).length = info.exactSize := by
  rw [toDisk_eq flat fits enough]
  simpa using (diskPatches_endToEnd flat enough).stop_eq.symm

/-- A payload fills the start of a buffer with its slices in the order of memory. -/
theorem toMemory_eq (flat : info.dimensions ≠ .volume) (enough : info.exactSize ≤ payload.length)
    (room : info.exactSize ≤ buffer.length) :
    toMemory info payload buffer =
      Patch.contents (memoryPatches info payload) ++ buffer.drop info.exactSize := by
  have same : ∀ patch, patch ∈ (layerMajorMoves info).map (fun move =>
      ⟨move.memory, payload.slice move.disk move.size⟩) ↔ patch ∈ memoryPatches info payload := by
    intro patch
    simp only [memoryPatches, List.mem_map, mem_levelMajorMoves flat]
  rw [← Patch.applyAll_of_endToEnd (memoryPatches_endToEnd flat enough) same room, Patch.applyAll,
    List.foldl_map]
  rfl

theorem length_memoryContents (flat : info.dimensions ≠ .volume)
    (enough : info.exactSize ≤ payload.length) :
    (Patch.contents (memoryPatches info payload)).length = info.exactSize := by
  simpa using (memoryPatches_endToEnd flat enough).stop_eq.symm

private theorem slice_toDisk (flat : info.dimensions ≠ .volume) (fits : info.exactSize < wordLimit)
    (enough : info.exactSize ≤ texels.length) {move : Move}
    (member : move ∈ layerMajorMoves info) :
    (toDisk info texels).slice move.disk move.size = texels.slice move.memory move.size := by
  have placed := (diskPatches_endToEnd flat enough).slice_contents (List.mem_map_of_mem member)
  have length := Bytes.length_slice_of_le
    (Nat.le_trans (move_bounds flat member).2 enough)
  rw [toDisk_eq flat fits enough]
  simpa only [length, Nat.sub_zero] using placed

/-- Putting texels into disk order and back restores them and leaves the rest of the buffer. -/
theorem toMemory_toDisk (flat : info.dimensions ≠ .volume) (fits : info.exactSize < wordLimit)
    (enough : info.exactSize ≤ texels.length) (room : info.exactSize ≤ buffer.length) :
    toMemory info (toDisk info texels) buffer =
      texels.take info.exactSize ++ buffer.drop info.exactSize := by
  have whole : info.exactSize ≤ (toDisk info texels).length :=
    Nat.le_of_eq (length_toDisk flat fits enough).symm
  rw [toMemory_eq flat whole room]
  congr 1
  apply (memoryPatches_endToEnd flat whole).contents_eq_slice
  intro patch member
  obtain ⟨move, present, rfl⟩ := List.mem_map.mp member
  have present := (mem_levelMajorMoves flat move).mp present
  have length := Bytes.length_slice_of_le
    (Nat.le_trans (move_bounds flat present).2 enough)
  simp only [slice_toDisk flat fits enough present, length]

end TextureCache.Dds
