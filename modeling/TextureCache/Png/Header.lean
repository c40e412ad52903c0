import TextureCache.Image
import TextureCache.Png.Chunk

/-! The header of a PNG file: the size of the image and the kind of its samples. -/
namespace TextureCache.Png

/-- What the samples of a pixel stand for. -/
inductive ColorType where
  | gray
  | rgb
  | indexed
  | grayAlpha
  | rgba
  deriving DecidableEq, Repr

namespace ColorType

def ofNumber? : Nat → Option ColorType
  | 0 => some gray
  | 2 => some rgb
  | 3 => some indexed
  | 4 => some grayAlpha
  | 6 => some rgba
  | _ => none

def channels : ColorType → Nat
  | gray | indexed => 1
  | grayAlpha => 2
  | rgb => 3
  | rgba => 4

/-- The bits that a sample may have. -/
def depths : ColorType → List Nat
  | gray => [1, 2, 4, 8, 16]
  | indexed => [1, 2, 4, 8]
  | rgb | grayAlpha | rgba => [8, 16]

end ColorType

/-- The size of an image and the layout of its pixels. -/
structure Header where
  width : UInt32
  height : UInt32
  depth : Nat
  color : ColorType
  interlaced : Bool
  deriving DecidableEq, Repr

namespace Header

def pixelBits (header : Header) : Nat := header.color.channels * header.depth

/-- The bytes of a row of `columns` pixels, without its filter. -/
def rowSize (header : Header) (columns : Nat) : Nat := (columns * header.pixelBits + 7) / 8

/-- The distance between bytes that a filter compares. -/
def filterDistance (header : Header) : Nat := max 1 (header.pixelBits / 8)

/-- The bytes of an expanded row: eight or sixteen bits per sample, palette entries looked up,
and an alpha channel where a transparent colour asks for one. -/
def expandedRowSize (header : Header) (transparent : Bool) : Nat :=
  let channels := match header.color with
    | .indexed => 3
    | color => color.channels
  let added := if transparent then 1 else 0
  header.width.toNat * (channels + added) * (if header.depth = 16 then 2 else 1)

/-- Read the body of a header chunk. There is one compression method, one filter method and two
ways to interlace. -/
def ofBytes? (body : Bytes) : Option Header := do
  let byte (position : Nat) : Nat := (body.getD position 0).toNat
  let color ← ColorType.ofNumber? (byte 9)
  let header : Header := {
    width := UInt32.ofNat (Bytes.ofBigEndian (body.take 4))
    height := UInt32.ofNat (Bytes.ofBigEndian (body.slice 4 4))
    depth := byte 8
    color
    interlaced := byte 12 = 1 }
  guard (13 ≤ body.length ∧ header.width ≠ 0 ∧ header.height ≠ 0 ∧ header.depth ∈ color.depths ∧
    byte 10 = 0 ∧ byte 11 = 0 ∧ byte 12 ≤ 1)
  guard (fitsWord (header.expandedRowSize false * header.height.toNat)).isSome
  some header

end Header

end TextureCache.Png
