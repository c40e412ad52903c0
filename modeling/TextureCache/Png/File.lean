import TextureCache.Deflate.Stored
import TextureCache.Png.Pixel

/-! Reading and writing whole PNG files. Every kind of image is read as RGBA8; images are written
as RGBA8 by an encoder, of which the plainest one does without compression. -/
namespace TextureCache.Png

def loadHeader (file : Bytes) : Except LoadError ImageInfo := do
  let (preamble, _) ← Preamble.read file
  .ok (.rgba8 preamble.header.width preamble.header.height)

/-- An image as it is stored: the rows of its passes and what they mean. -/
structure StoredImage where
  preamble : Preamble
  rows : List Rows
  deriving DecidableEq, Repr

namespace StoredImage

def read (file : Bytes) : Except ReadFault StoredImage := do
  let (preamble, data) ← (Preamble.read file).mapError .refused
  .ok ⟨preamble, ← preamble.readImage file data⟩

def size (image : StoredImage) : Nat :=
  let header := image.preamble.header
  rgba8SliceSize header.width.toNat header.height.toNat

def pixels (image : StoredImage) : Bytes :=
  (imagePixels image.preamble image.rows).flatMap Rgba.toBytes

end StoredImage

def loadPixels (file : Bytes) : Except ReadFault Bytes :=
  (StoredImage.read file).map StoredImage.pixels

/-- Copy the pixels of a file to the start of a buffer. -/
def loadData (file buffer : Bytes) : Except ReadFault Bytes := do
  let image ← StoredImage.read file
  if buffer.length < image.size then .error (.refused .outputTooShort)
  else .ok (buffer.overwrite 0 image.pixels)

def headerBody (width height : UInt32) : Bytes :=
  Bytes.bigEndian 4 width.toNat ++ Bytes.bigEndian 4 height.toNat ++ [8, 6, 0, 0, 0]

/-- Rows of RGBA8 pixels, each behind the number of the filter that changes nothing. -/
def storedRows (width height : Nat) (pixels : Bytes) : Bytes :=
  (Bytes.chunks (width * 4) height pixels).flatMap (0 :: ·)

def bodyLimit : Nat := UInt32.size / 2 - 1

/-- A stream in chunks, with `more` full chunks before the last. -/
def imageChunks : (more : Nat) → Bytes → Bytes
  | 0, stream => chunk Kind.imageData stream
  | more + 1, stream =>
    chunk Kind.imageData (stream.take bodyLimit) ++ imageChunks more (stream.drop bodyLimit)

/-- A way to write an RGBA8 image of exactly so many pixels. -/
abbrev Encoder := (width height : UInt32) → (pixels : Bytes) → Except SaveError Bytes

/-- The encoder that compresses nothing. -/
def stored : Encoder := fun width height pixels =>
  if width = 0 ∨ height = 0 then .error .emptyImage
  else
    let stream := Deflate.store (storedRows width.toNat height.toNat pixels)
    .ok (signature ++ chunk Kind.header (headerBody width height) ++
      imageChunks (stream.length / bodyLimit) stream ++ chunk Kind.fileEnd [])

/-- The file of an RGBA8 image; bytes past the pixels are ignored. -/
def save (encoder : Encoder) (width height : UInt32) (pixels : Bytes) : Except SaveError Bytes :=
  let size := width.toNat * height.toNat * 4
  if pixels.length < size then .error (.sliceTooShort pixels.length size)
  else encoder width height (pixels.take size)

end TextureCache.Png
