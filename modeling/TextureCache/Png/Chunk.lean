import TextureCache.Digest.Checksum

/-! The signature and the chunks that a PNG file consists of. A chunk is its body's length, four
letters that name its kind, the body, and a checksum of letters and body. -/
namespace TextureCache.Png

def signature : Bytes := [137, 80, 78, 71, 13, 10, 26, 10]

/-- The four letters of a chunk. -/
abbrev Kind := Bytes

namespace Kind

/-- The size and the layout of the pixels. -/
def header : Kind := [73, 72, 68, 82]
def palette : Kind := [80, 76, 84, 69]
/-- The transparent colour, or the alphas of the palette. -/
def transparency : Kind := [116, 82, 78, 83]
/-- The exponent of the samples. -/
def gamma : Kind := [103, 65, 77, 65]
/-- The colours that the channels stand for. -/
def chromaticities : Kind := [99, 72, 82, 77]
def physicalSize : Kind := [112, 72, 89, 115]
/-- A note on the standard colour space. -/
def renderingIntent : Kind := [115, 82, 71, 66]
/-- The number of frames of an animation. -/
def animationControl : Kind := [97, 99, 84, 76]
/-- The size and the place of a frame of an animation. -/
def frameControl : Kind := [102, 99, 84, 76]
def imageData : Kind := [73, 68, 65, 84]
/-- A part of the compressed pixels of a frame, behind its number. -/
def frameData : Kind := [102, 100, 65, 84]
def fileEnd : Kind := [73, 69, 78, 68]

/-- A chunk whose first letter is a capital is critical: a reader may not pass over damage. -/
def isCritical (kind : Kind) : Bool := (kind.headD 0).toNat / 32 % 2 = 0

end Kind

def chunk (kind : Kind) (body : Bytes) : Bytes :=
  Bytes.bigEndian 4 body.length ++ kind ++ body ++ Bytes.bigEndian 4 (crc32 (kind ++ body)).toNat

/-- What a chunk's checksum says. -/
inductive Integrity where
  | sound
  | damaged
  | cut
  deriving DecidableEq, Repr

/-- A chunk as far as the file holds it. -/
structure Chunk where
  kind : Kind
  /-- The length that the file tells. -/
  length : Nat
  body : Bytes
  checksum : Bytes
  /-- The file after the chunk. -/
  rest : Bytes
  deriving DecidableEq, Repr

namespace Chunk

/-- The first chunk of a file without its signature, if the file holds length and kind. -/
def read? (file : Bytes) : Option Chunk :=
  let start := file.take 8
  if start.length < 8 then none
  else
    let length := Bytes.ofBigEndian (start.take 4)
    some {
      kind := start.drop 4
      length
      body := file.slice 8 length
      checksum := file.slice (8 + length) 4
      rest := file.drop (12 + length) }

def integrity (chunk : Chunk) : Integrity :=
  if chunk.checksum.length < 4 then .cut
  else if Bytes.ofBigEndian chunk.checksum = (crc32 (chunk.kind ++ chunk.body)).toNat then .sound
  else .damaged

end Chunk
end TextureCache.Png
