import TextureCache.Image

/-! The payload of a DDS file. In memory a texture is level-major; on disk every layer keeps its
whole mip chain together, except that a volume is level-major in both. -/
namespace TextureCache
namespace ImageInfo

def slicesAt (info : ImageInfo) (level : Nat) : Nat :=
  if info.dimensions = .volume then mipExtent info.depthOrLayers.toNat level
  else max 1 info.depthOrLayers.toNat

def level (info : ImageInfo) (index : Nat) : Level where
  index
  width := mipExtent info.width.toNat index
  height := mipExtent info.height.toNat index
  slices := info.slicesAt index

/-- The mip chain, largest level first. -/
def mipChain (info : ImageInfo) : List Level := (List.range info.levels.toNat).map info.level

def sliceSize (info : ImageInfo) (level : Level) : Nat :=
  info.format.sliceSize level.width level.height

/-- The bytes of the whole payload as an exact number. -/
def exactSize (info : ImageInfo) : Nat :=
  total (info.mipChain.map fun level => info.sliceSize level * level.slices)

/-- Add the size of a level, unless a product or the sum leaves the machine word. -/
def addLevel (info : ImageInfo) (total : Nat) (level : Level) : Option Nat := do
  let slice ← info.format.checkedSliceSize level.width level.height
  let slices ← fitsWord (slice * level.slices)
  fitsWord (slices + total)

/-- Add the sizes of `count` levels from a level on; the first excess ends the count. -/
def addLevels (info : ImageInfo) : (count level total : Nat) → Option Nat
  | 0, _, total => some total
  | count + 1, level, total => do
    info.addLevels count (level + 1) (← info.addLevel total (info.level level))

/-- The bytes of the whole payload, if they can be counted in machine words. -/
def checkedSize (info : ImageInfo) : Option Nat := info.addLevels info.levels.toNat 0 0

private theorem addLevels_eq_foldlM (info : ImageInfo) (count level total : Nat) :
    info.addLevels count level total =
      ((List.range' level count).map info.level).foldlM info.addLevel total := by
  induction count generalizing level total with
  | zero => rfl
  | succ count ih => simp [addLevels, List.range'_succ, ih]

theorem checkedSize_eq_foldlM (info : ImageInfo) :
    info.checkedSize = info.mipChain.foldlM info.addLevel 0 := by
  rw [checkedSize, addLevels_eq_foldlM, mipChain, List.range_eq_range']

/-- The bytes of the whole payload; the largest machine word stands for all that do not fit. -/
def payloadSize (info : ImageInfo) : Nat := info.checkedSize.getD (wordLimit - 1)

end ImageInfo

namespace Dds

/-- One slice's place on disk and in memory. -/
structure Move where
  disk : Nat
  memory : Nat
  size : Nat
  deriving DecidableEq, Repr

/-- Where consecutive parts start. -/
def startsFrom : (start : Nat) → List Nat → List Nat
  | _, [] => []
  | start, size :: rest => start :: startsFrom (start + size) rest

/-- Whether the order on disk differs from the order in memory. -/
def isLayerMajor (info : ImageInfo) : Bool :=
  info.dimensions ≠ .volume && info.depthOrLayers > 1 && info.levels > 1

/-- The places of all slices, layer by layer and within a layer level by level. -/
def layerMajorMoves (info : ImageInfo) : List Move :=
  let sizes := info.mipChain.map info.sliceSize
  let levelStarts :=
    startsFrom 0 (info.mipChain.map fun level => info.sliceSize level * level.slices)
  (List.range (max 1 info.depthOrLayers.toNat)).flatMap fun layer =>
    let layerStarts := startsFrom (layer * total sizes) sizes
    (layerStarts.zip (levelStarts.zip sizes)).map fun (disk, start, size) =>
      ⟨disk, start + layer * size, size⟩

/-- The payload in disk order from texels in memory order. -/
def toDisk (info : ImageInfo) (texels : Bytes) : Bytes :=
  (layerMajorMoves info).foldl
    (fun payload move => payload.overwrite move.disk (texels.slice move.memory move.size))
    (Bytes.zeros info.payloadSize)

/-- Put a payload in disk order into a buffer in memory order. -/
def toMemory (info : ImageInfo) (payload buffer : Bytes) : Bytes :=
  (layerMajorMoves info).foldl
    (fun buffer move => buffer.overwrite move.memory (payload.slice move.disk move.size)) buffer

end Dds
end TextureCache
