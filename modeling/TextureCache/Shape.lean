import TextureCache.Bytes

/-! The mip levels and slices of a texture and where they lie in a buffer. A buffer is
level-major: all slices of level 0, then all slices of level 1, and so on. A volume halves its
depth with every level; any other texture has the same layers at every level. -/
namespace TextureCache

/-- An extent at a mip level, halved and rounded down per level but never below one. -/
def mipExtent (size level : Nat) : Nat := max 1 (size >>> level)

/-- The outer form of a texture, in texels of level 0. -/
structure Shape where
  width : UInt32
  height : UInt32
  depth : UInt32
  layers : UInt32
  levels : UInt32
  deriving DecidableEq, Repr

/-- One mip level: its extents and the number of its slices. -/
structure Level where
  index : Nat
  width : Nat
  height : Nat
  slices : Nat
  deriving DecidableEq, Repr

/-- One two-dimensional image of a texture. -/
structure Slice where
  level : Nat
  index : Nat
  width : Nat
  height : Nat
  deriving DecidableEq, Repr

/-- A slice and the range of bytes that it takes in a buffer. -/
structure Region where
  slice : Slice
  offset : Nat
  size : Nat
  deriving DecidableEq, Repr

/-- Lay slices one after another, each as large as `sizeOf` says for its extents. -/
def layOut (sizeOf : Nat → Nat → Nat) : (offset : Nat) → List Slice → List Region
  | _, [] => []
  | offset, slice :: rest =>
    let size := sizeOf slice.width slice.height
    ⟨slice, offset, size⟩ :: layOut sizeOf (offset + size) rest

def rgba8SliceSize (width height : Nat) : Nat := width * height * 4

namespace Shape

/-- Volumes are the textures with more than one depth slice. -/
def isVolume (shape : Shape) : Bool := shape.depth > 1

/-- The count that file names carry; it wraps like every 32-bit product. -/
def depthOrLayers (shape : Shape) : UInt32 := shape.depth * shape.layers

def slicesAt (shape : Shape) (level : Nat) : Nat :=
  if shape.isVolume then mipExtent shape.depth.toNat level else shape.layers.toNat

def level (shape : Shape) (index : Nat) : Level where
  index
  width := mipExtent shape.width.toNat index
  height := mipExtent shape.height.toNat index
  slices := shape.slicesAt index

/-- The mip chain, largest level first. -/
def mipChain (shape : Shape) : List Level := (List.range shape.levels.toNat).map shape.level

/-- Every slice in canonical order: by level, then by index. -/
def slices (shape : Shape) : List Slice :=
  shape.mipChain.flatMap fun level =>
    (List.range level.slices).map fun index => ⟨level.index, index, level.width, level.height⟩

/-- Where the slices lie in an RGBA8 buffer. -/
def rgba8Regions (shape : Shape) : List Region := layOut rgba8SliceSize 0 shape.slices

def rgba8Size (shape : Shape) : Nat :=
  total (shape.mipChain.map fun level => level.width * level.height * 4 * level.slices)

def rgba8LevelSize (shape : Shape) (index : Nat) : Nat :=
  rgba8SliceSize (mipExtent shape.width.toNat index) (mipExtent shape.height.toNat index) *
    shape.slicesAt index

/-- The size of an RGBA8 buffer without a walk through all levels: those behind the first 32 are
alike. -/
def bufferSize (shape : Shape) : Nat :=
  let varied := min 32 shape.levels.toNat
  total ((List.range varied).map shape.rgba8LevelSize) +
    (shape.levels.toNat - varied) * shape.rgba8LevelSize 32

def resized (shape : Shape) (width height : UInt32) : Shape := { shape with width, height }

end Shape
end TextureCache
