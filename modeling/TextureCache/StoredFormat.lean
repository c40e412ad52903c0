import TextureCache.PixelFormat

/-! The formats that image files can hold, their link to the formats in graphics memory, and
size arithmetic that stays within machine words. -/
namespace TextureCache

/-- The first number that does not fit a machine word. -/
def wordLimit : Nat := UInt64.size

/-- The number, if it fits a machine word. -/
def fitsWord (value : Nat) : Option Nat := if value < wordLimit then some value else none

inductive StoredFormat where
  | bc1
  | bc2
  | bc3
  | rgba8
  | bgra8
  | r5g6b5
  | r5g5b5a1
  | r4g4b4a4
  deriving DecidableEq, Repr

namespace StoredFormat

def name : StoredFormat → String
  | bc1 => "Bc1RgbaUnorm"
  | bc2 => "Bc2Unorm"
  | bc3 => "Bc3Unorm"
  | rgba8 => "R8G8B8A8Unorm"
  | bgra8 => "B8G8R8A8Unorm"
  | r5g6b5 => "R5G6B5Unorm"
  | r5g5b5a1 => "R5G5B5A1Unorm"
  | r4g4b4a4 => "R4G4B4A4Unorm"

def all : List StoredFormat := [bc1, bc2, bc3, rgba8, bgra8, r5g6b5, r5g5b5a1, r4g4b4a4]

def ofName? (name : String) : Option StoredFormat := all.find? fun format => format.name == name

/-- The stored format that holds the texels of a native format unchanged. -/
def ofNative? : PixelFormat → Option StoredFormat
  | .bc1 _ => some bc1
  | .bc2 _ => some bc2
  | .bc3 _ => some bc3
  | .rgba8 _ => some rgba8
  | .r5g6b5 => some r5g6b5
  | .r5g5b5a1 => some r5g5b5a1
  | .r4g4b4a4 => some r4g4b4a4
  | _ => none

def storage : StoredFormat → StorageClass
  | bc1 => .block 4 4 8
  | bc2 | bc3 => .block 4 4 16
  | rgba8 | bgra8 => .packed 4
  | r5g6b5 | r5g5b5a1 | r4g4b4a4 => .packed 2

def sliceSize (format : StoredFormat) (width height : Nat) : Nat :=
  format.storage.sliceSize width height

/-- The bytes of one slice, refused as soon as an intermediate product leaves the machine word. -/
def checkedSliceSize (format : StoredFormat) (width height : Nat) : Option Nat :=
  match format.storage with
  | .packed bytes => do
    let texels ← fitsWord (width * height)
    fitsWord (texels * bytes)
  | .block across down bytes => do
    let blocks ← fitsWord (divCeil width across * divCeil height down)
    fitsWord (blocks * bytes)

/-- The native format of stored pixels in a colour space; the 16-bit formats have only one. -/
def native : StoredFormat → ColorSpace → PixelFormat
  | bc1, space => .bc1 space
  | bc2, space => .bc2 space
  | bc3, space => .bc3 space
  | rgba8, space | bgra8, space => .rgba8 space
  | r5g6b5, _ => .r5g6b5
  | r5g5b5a1, _ => .r5g5b5a1
  | r4g4b4a4, _ => .r4g4b4a4

end StoredFormat

/-- What the renderer is told about the texels of a replacement. -/
structure FormatInfo where
  format : PixelFormat
  blockWidth : Nat
  blockHeight : Nat
  bytesPerPixel : Nat
  components : Nat
  deriving DecidableEq, Repr

def FormatInfo.rgba8 (space : ColorSpace) : FormatInfo := ⟨.rgba8 space, 1, 1, 4, 4⟩

/-- Stored pixels in the colour space of the texture that they replace; for block formats
`bytesPerPixel` counts a whole block. -/
def FormatInfo.ofStored (stored : StoredFormat) (space : ColorSpace) : FormatInfo :=
  match stored with
  | .bc1 => ⟨stored.native space, 4, 4, 8, 4⟩
  | .bc2 | .bc3 => ⟨stored.native space, 4, 4, 16, 4⟩
  | .rgba8 | .bgra8 => rgba8 space
  | .r5g6b5 => ⟨stored.native space, 1, 1, 2, 3⟩
  | .r5g5b5a1 | .r4g4b4a4 => ⟨stored.native space, 1, 1, 2, 4⟩

end TextureCache
