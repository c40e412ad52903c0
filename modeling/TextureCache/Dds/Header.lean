import TextureCache.Dds.Layout

/-! The header of a DDS file: a magic number and 31 words of 32 bits, and for arrays five more
words. `build` writes the header of an image and `ImageInfo.ofHeader` reads one. -/
namespace TextureCache.Dds

/-- The bytes that every DDS file starts with. -/
def magic : Bytes := [0x44, 0x44, 0x53, 0x20]

/-- The bytes of the magic number and the fixed header. -/
def headerSize : Nat := 128

/-- The bytes of the fixed header and the extended header after it. -/
def extendedHeaderSize : Nat := 148

/-- Words in file order. -/
def encodeWords (words : List UInt32) : Bytes :=
  words.flatMap fun word => Bytes.littleEndian 4 word.toNat

def wordAt (bytes : Bytes) (number : Nat) : UInt32 :=
  UInt32.ofNat (Bytes.ofLittleEndian (bytes.slice (4 * number) 4))

/-- How the pixels of a file without extended header are described. -/
structure PixelFields where
  flags : UInt32
  fourCC : UInt32
  bitCount : UInt32
  redMask : UInt32
  greenMask : UInt32
  blueMask : UInt32
  alphaMask : UInt32
  deriving DecidableEq, Repr

/-- The meaningful words of the fixed header; all others are written as zero. -/
structure Header where
  size : UInt32
  flags : UInt32
  height : UInt32
  width : UInt32
  pitchOrLinearSize : UInt32
  depth : UInt32
  mipMapCount : UInt32
  pixelSize : UInt32
  pixel : PixelFields
  caps : UInt32
  caps2 : UInt32
  deriving DecidableEq, Repr

/-- The words of the extended header. -/
structure Extension where
  format : UInt32
  dimension : UInt32
  misc : UInt32
  arraySize : UInt32
  misc2 : UInt32
  deriving DecidableEq, Repr

def Header.toWords (header : Header) : List UInt32 :=
  [header.size, header.flags, header.height, header.width, header.pitchOrLinearSize, header.depth,
    header.mipMapCount] ++ List.replicate 11 0 ++
  [header.pixelSize, header.pixel.flags, header.pixel.fourCC, header.pixel.bitCount,
    header.pixel.redMask, header.pixel.greenMask, header.pixel.blueMask, header.pixel.alphaMask,
    header.caps, header.caps2, 0, 0, 0]

/-- Read a header from the bytes after the magic number. -/
def Header.ofBytes (bytes : Bytes) : Header :=
  let word := wordAt bytes
  { size := word 0, flags := word 1, height := word 2, width := word 3
    pitchOrLinearSize := word 4, depth := word 5, mipMapCount := word 6
    pixelSize := word 18
    pixel := ⟨word 19, word 20, word 21, word 22, word 23, word 24, word 25⟩
    caps := word 26, caps2 := word 27 }

def Extension.toWords (extension : Extension) : List UInt32 :=
  [extension.format, extension.dimension, extension.misc, extension.arraySize, extension.misc2]

/-- Read an extended header from the bytes that it starts. -/
def Extension.ofBytes (bytes : Bytes) : Extension :=
  let word := wordAt bytes
  ⟨word 0, word 1, word 2, word 3, word 4⟩

/-- The header says what the file holds besides one image. -/
def flagCaps : UInt32 := 0x1
def flagHeight : UInt32 := 0x2
def flagWidth : UInt32 := 0x4
/-- The header gives the bytes of a row. -/
def flagPitch : UInt32 := 0x8
def flagPixelFormat : UInt32 := 0x1000
/-- The header gives the number of levels. -/
def flagMipMapCount : UInt32 := 0x20000
/-- The header gives the bytes of the first level. -/
def flagLinearSize : UInt32 := 0x80000
def flagDepth : UInt32 := 0x800000
def pixelAlpha : UInt32 := 0x1
/-- The pixels are named by a code of four letters. -/
def pixelFourCC : UInt32 := 0x4
/-- The pixels are described by channel masks. -/
def pixelRgb : UInt32 := 0x40
/-- The file holds more than one image. -/
def capsComplex : UInt32 := 0x8
def capsTexture : UInt32 := 0x1000
def capsMipMap : UInt32 := 0x400000
/-- The file holds a cube. -/
def caps2Cube : UInt32 := 0x200
/-- The cube has all of its faces. -/
def caps2AllFaces : UInt32 := 0xfc00
def caps2Volume : UInt32 := 0x200000
/-- The extended header is about cubes. -/
def miscCube : UInt32 := 0x4
/-- The number of flat images in an extended header. -/
def dimension2D : UInt32 := 3
/-- The number of volumes in an extended header. -/
def dimension3D : UInt32 := 4

def cubeFaces : UInt32 := 6

/-- The most levels that a file may claim. -/
def maxLevels : UInt32 := 32

/-- The word that spells the four characters of a code. -/
def fourCC (code : String) : UInt32 := UInt32.ofNat (Bytes.ofLittleEndian (Bytes.ofText code))

def has (word flag : UInt32) : Bool := word &&& flag != 0

/-- The number of a format in extended headers, if it has one. -/
def formatNumber? : StoredFormat → Option UInt32
  | .rgba8 => some 28
  | .bgra8 => some 87
  | .bc1 => some 71
  | .bc2 => some 74
  | .bc3 => some 77
  | .r5g6b5 | .r5g5b5a1 | .r4g4b4a4 => none

/-- The format with a number in extended headers; each has an sRGB twin that is read the same. -/
def formatOfNumber? (number : UInt32) : Option StoredFormat :=
  if number = 28 ∨ number = 29 then some .rgba8
  else if number = 87 ∨ number = 91 then some .bgra8
  else if number = 71 ∨ number = 72 then some .bc1
  else if number = 74 ∨ number = 75 then some .bc2
  else if number = 77 ∨ number = 78 then some .bc3
  else none

def formatCode? : StoredFormat → Option UInt32
  | .bc1 => some (fourCC "DXT1")
  | .bc2 => some (fourCC "DXT3")
  | .bc3 => some (fourCC "DXT5")
  | _ => none

/-- The block format with a code; two codes stand for premultiplied twins. -/
def formatOfCode? (code : UInt32) : Option StoredFormat :=
  if code = fourCC "DXT1" then some .bc1
  else if code = fourCC "DXT2" ∨ code = fourCC "DXT3" then some .bc2
  else if code = fourCC "DXT4" ∨ code = fourCC "DXT5" then some .bc3
  else none

/-- The bits of a texel and the masks of red, green, blue and alpha. -/
def formatMasks : StoredFormat → UInt32 × UInt32 × UInt32 × UInt32 × UInt32
  | .rgba8 => (32, 0xff, 0xff00, 0xff0000, 0xff000000)
  | .bgra8 => (32, 0xff0000, 0xff00, 0xff, 0xff000000)
  | .r5g6b5 => (16, 0x1f, 0x7e0, 0xf800, 0)
  | .r5g5b5a1 => (16, 0x1f, 0x3e0, 0x7c00, 0x8000)
  | _ => (16, 0xf, 0xf0, 0xf00, 0xf000)

/-- The plain format with the given colour masks; the alpha mask is not looked at. -/
def formatOfMasks? (pixel : PixelFields) : Option StoredFormat :=
  [StoredFormat.rgba8, .bgra8, .r5g6b5, .r5g5b5a1, .r4g4b4a4].find? fun format =>
    let (bits, red, green, blue, _) := formatMasks format
    pixel.bitCount == bits && pixel.redMask == red && pixel.greenMask == green &&
      pixel.blueMask == blue

/-- The format that the pixel fields of a file without extended header describe. -/
def formatOfPixel? (pixel : PixelFields) : Option StoredFormat :=
  if has pixel.flags pixelFourCC then formatOfCode? pixel.fourCC
  else if has pixel.flags pixelRgb then formatOfMasks? pixel
  else none

/-- The pixel fields of a format in a file without extended header. -/
def pixelOfFormat (format : StoredFormat) : PixelFields :=
  match formatCode? format with
  | some code => ⟨pixelFourCC, code, 0, 0, 0, 0, 0⟩
  | none =>
    let (bits, red, green, blue, alpha) := formatMasks format
    ⟨if alpha = 0 then pixelRgb else pixelRgb ||| pixelAlpha, 0, bits, red, green, blue, alpha⟩

/-- The pixel fields that announce an extended header. -/
def extendedPixel : PixelFields := ⟨pixelFourCC, fourCC "DX10", 0, 0, 0, 0, 0⟩

/-- Whether the pixel fields announce an extended header. -/
def isExtended (pixel : PixelFields) : Bool :=
  has pixel.flags pixelFourCC && pixel.fourCC == fourCC "DX10"

/-- Arrays are the arrangements that only the extended header can describe. -/
def needsExtension (dimensions : Dimensions) : Bool :=
  dimensions = .flatArray || dimensions = .cubeArray

def canStore (format : StoredFormat) (dimensions : Dimensions) : Bool :=
  !needsExtension dimensions || (formatNumber? format).isSome

/-- Whether texels of a format come in blocks. -/
def isBlock : StoredFormat → Bool
  | .bc1 | .bc2 | .bc3 => true
  | _ => false

/-- The flags of an arrangement: header flags, capabilities and secondary capabilities. -/
def arrangementFlags : Dimensions → UInt32 × UInt32 × UInt32
  | .flat => (0, 0, 0)
  | .flatArray => (0, capsComplex, 0)
  | .volume => (flagDepth, capsComplex, caps2Volume)
  | .cube | .cubeArray => (0, capsComplex, caps2Cube ||| caps2AllFaces)

def build (info : ImageInfo) : Header :=
  let (flags, caps, caps2) := arrangementFlags info.dimensions
  let block := isBlock info.format
  let rows := if block then info.height.toNat else 1
  { size := 124
    flags := flagCaps ||| flagHeight ||| flagWidth ||| flagPixelFormat ||| flagMipMapCount |||
      (if block then flagLinearSize else flagPitch) ||| flags
    height := info.height
    width := info.width
    pitchOrLinearSize := UInt32.ofNat (info.format.sliceSize info.width.toNat rows)
    depth := if info.dimensions = .volume then info.depthOrLayers else 0
    mipMapCount := info.levels
    pixelSize := 32
    pixel := if needsExtension info.dimensions then extendedPixel else pixelOfFormat info.format
    caps := capsTexture ||| (if info.levels > 1 then capsComplex ||| capsMipMap else 0) ||| caps
    caps2 }

/-- The extended header of an image whose format has a number there. -/
def buildExtension (info : ImageInfo) (number : UInt32) : Extension :=
  let isCube := info.dimensions = .cube ∨ info.dimensions = .cubeArray
  { format := number
    dimension := dimension2D
    misc := if isCube then miscCube else 0
    arraySize := if isCube then max 1 (info.depthOrLayers / cubeFaces) else max 1 info.depthOrLayers
    misc2 := 0 }

/-- The arrangement and the slice count that an extended header describes. -/
def arrangementOfExtension (header : Header) (extension : Extension) :
    Except LoadError (Dimensions × UInt32) :=
  let count := max 1 extension.arraySize
  if extension.dimension = dimension3D then .ok (.volume, max 1 header.depth)
  else if extension.dimension ≠ dimension2D then .error .unsupportedFormat
  else if has extension.misc miscCube then
    if count.toNat * 6 < UInt32.size then
      .ok (if count > 1 then .cubeArray else .cube, count * cubeFaces)
    else .error .corruptedHeader
  else .ok (if count > 1 then .flatArray else .flat, count)

/-- The arrangement and the slice count that a header without extension describes. -/
def arrangementOfHeader (header : Header) : Dimensions × UInt32 :=
  if has header.caps2 caps2Volume then (.volume, max 1 header.depth)
  else if has header.caps2 caps2Cube then (.cube, cubeFaces)
  else (.flat, 1)

def levelsOfHeader (header : Header) : UInt32 :=
  if has header.flags flagMipMapCount then max 1 header.mipMapCount else 1

/-- Whether the words of a header that never vary are right and its extents are not zero. -/
def Header.isSound (header : Header) : Bool :=
  header.size == 124 && header.pixelSize == 32 && header.width != 0 && header.height != 0 &&
    levelsOfHeader header ≤ maxLevels

end TextureCache.Dds
