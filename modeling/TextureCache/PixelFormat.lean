/-! The formats that textures have in graphics memory: what they are called, how their texels
are stored, and which of them the cache can read. -/
namespace TextureCache

/-- Whether colour values are stored linearly or with the sRGB curve. -/
inductive ColorSpace where
  | linear
  | srgb
  deriving DecidableEq, Repr

/-- The block sizes that ASTC offers for two-dimensional textures. -/
inductive AstcFootprint where
  | f4x4 | f5x4 | f5x5 | f6x5 | f6x6 | f8x5 | f8x6 | f8x8
  | f10x5 | f10x6 | f10x8 | f10x10 | f12x10 | f12x12
  deriving DecidableEq, Repr

def AstcFootprint.extent : AstcFootprint → Nat × Nat
  | f4x4 => (4, 4) | f5x4 => (5, 4) | f5x5 => (5, 5) | f6x5 => (6, 5) | f6x6 => (6, 6)
  | f8x5 => (8, 5) | f8x6 => (8, 6) | f8x8 => (8, 8) | f10x5 => (10, 5) | f10x6 => (10, 6)
  | f10x8 => (10, 8) | f10x10 => (10, 10) | f12x10 => (12, 10) | f12x12 => (12, 12)

def AstcFootprint.all : List AstcFootprint :=
  [.f4x4, .f5x4, .f5x5, .f6x5, .f6x6, .f8x5, .f8x6, .f8x8, .f10x5, .f10x6, .f10x8, .f10x10,
    .f12x10, .f12x12]

/-- The format of a texture in graphics memory. Channel names run from the lowest bit up. -/
inductive PixelFormat where
  | rgba8 (space : ColorSpace)
  | r5g6b5
  | b5g6r5
  | r5g5b5a1
  | b5g5r5a1
  | r5g5b5x1
  | a1b5g5r5
  | r4g4b4a4
  | bc1 (space : ColorSpace)
  | bc2 (space : ColorSpace)
  | bc3 (space : ColorSpace)
  | bc4 (signed : Bool)
  | bc5 (signed : Bool)
  | bc6h (signed : Bool)
  | bc7 (space : ColorSpace)
  | etc2Rgb (space : ColorSpace)
  | etc2RgbPunchthrough (space : ColorSpace)
  | etc2Rgba (space : ColorSpace)
  | astc (footprint : AstcFootprint) (space : ColorSpace)
  deriving DecidableEq, Repr

/-- How the texels of a format lie in memory: one by one, or in blocks of equal size. -/
inductive StorageClass where
  | packed (bytes : Nat)
  | block (width height bytes : Nat)
  deriving DecidableEq, Repr

def divCeil (count size : Nat) : Nat := (count + size - 1) / size

def StorageClass.sliceSize : StorageClass → (width height : Nat) → Nat
  | packed bytes, width, height => width * height * bytes
  | block across down bytes, width, height => divCeil width across * divCeil height down * bytes

namespace PixelFormat

/-- A name that ends with its colour space. -/
def suffixed (stem : String) : ColorSpace → String
  | .linear => stem ++ "Unorm"
  | .srgb => stem ++ "Srgb"

def name : PixelFormat → String
  | rgba8 space => suffixed "R8G8B8A8" space
  | r5g6b5 => "R5G6B5Unorm"
  | b5g6r5 => "B5G6R5Unorm"
  | r5g5b5a1 => "R5G5B5A1Unorm"
  | b5g5r5a1 => "B5G5R5A1Unorm"
  | r5g5b5x1 => "R5G5B5X1Unorm"
  | a1b5g5r5 => "A1B5G5R5Unorm"
  | r4g4b4a4 => "R4G4B4A4Unorm"
  | bc1 space => suffixed "Bc1Rgba" space
  | bc2 space => suffixed "Bc2" space
  | bc3 space => suffixed "Bc3" space
  | bc4 signed => if signed then "Bc4Snorm" else "Bc4Unorm"
  | bc5 signed => if signed then "Bc5Snorm" else "Bc5Unorm"
  | bc6h signed => if signed then "Bc6HSfloat" else "Bc6HUfloat"
  | bc7 space => suffixed "Bc7" space
  | etc2Rgb space => suffixed "Etc2Rgb" space
  | etc2RgbPunchthrough space => suffixed "Etc2RgbPta" space
  | etc2Rgba space => suffixed "Etc2Rgba" space
  | astc footprint space =>
    suffixed ("Astc" ++ toString footprint.extent.1 ++ "x" ++ toString footprint.extent.2) space

/-- A format in either colour space. -/
def inBothSpaces (format : ColorSpace → PixelFormat) : List PixelFormat :=
  [format .linear, format .srgb]

def all : List PixelFormat :=
  inBothSpaces rgba8 ++
    [r5g6b5, b5g6r5, r5g5b5a1, b5g5r5a1, r5g5b5x1, a1b5g5r5, r4g4b4a4] ++
    inBothSpaces bc1 ++ inBothSpaces bc2 ++ inBothSpaces bc3 ++
    [bc4 false, bc4 true, bc5 false, bc5 true, bc6h true, bc6h false] ++
    inBothSpaces bc7 ++ inBothSpaces etc2Rgb ++ inBothSpaces etc2RgbPunchthrough ++
    inBothSpaces etc2Rgba ++
    AstcFootprint.all.flatMap fun footprint => inBothSpaces (astc footprint)

def ofName? (name : String) : Option PixelFormat := all.find? fun format => format.name == name

/-- The one- and two-channel and the high-range block formats are neither dumped nor replaced. -/
def isSupported : PixelFormat → Bool
  | bc4 _ | bc5 _ | bc6h _ => false
  | _ => true

/-- The colour space of a format; formats without an sRGB flavour are linear. -/
def colorSpace : PixelFormat → ColorSpace
  | rgba8 space | bc1 space | bc2 space | bc3 space | bc7 space | etc2Rgb space
  | etc2RgbPunchthrough space | etc2Rgba space | astc _ space => space
  | _ => .linear

/-- Texels across and down one block of an ASTC format. -/
def astcExtent? : PixelFormat → Option (Nat × Nat)
  | astc footprint _ => some footprint.extent
  | _ => none

def storage : PixelFormat → StorageClass
  | rgba8 _ => .packed 4
  | r5g6b5 | b5g6r5 | r5g5b5a1 | b5g5r5a1 | r5g5b5x1 | a1b5g5r5 | r4g4b4a4 => .packed 2
  | bc1 _ | bc4 _ | etc2Rgb _ | etc2RgbPunchthrough _ => .block 4 4 8
  | bc2 _ | bc3 _ | bc5 _ | bc6h _ | bc7 _ | etc2Rgba _ => .block 4 4 16
  | astc footprint _ => .block footprint.extent.1 footprint.extent.2 16

def sliceSize (format : PixelFormat) (width height : Nat) : Nat :=
  format.storage.sliceSize width height

end PixelFormat
end TextureCache
