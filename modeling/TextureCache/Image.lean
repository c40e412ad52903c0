import TextureCache.StoredFormat
import TextureCache.Texture

/-! What an image file says about its contents apart from the pixels, and the reasons why a file
cannot be read or written. -/
namespace TextureCache

/-- How the slices of an image are arranged. -/
inductive Dimensions where
  | flat
  | flatArray
  | volume
  | cube
  | cubeArray
  deriving DecidableEq, Repr

/-- The arrangement in which a texture of a target is stored, if there is one. -/
def Target.dimensions? : Target → Option Dimensions
  | .texture2D => some .flat
  | .texture2DArray => some .flatArray
  | .texture3D => some .volume
  | .cubemap => some .cube
  | .cubemapArray => some .cubeArray
  | .texture1D | .textureBuffer => none

structure ImageInfo where
  width : UInt32
  height : UInt32
  depthOrLayers : UInt32
  levels : UInt32
  format : StoredFormat
  dimensions : Dimensions
  deriving DecidableEq, Repr

/-- A single RGBA8 image, which is what a file with one slice holds. -/
def ImageInfo.rgba8 (width height : UInt32) : ImageInfo := ⟨width, height, 1, 1, .rgba8, .flat⟩

inductive LoadError where
  | corruptedHeader
  | corruptedData
  | dataTooShort
  | outputTooShort
  | unsupportedFormat
  deriving DecidableEq, Repr

namespace LoadError

def message : LoadError → String
  | corruptedHeader => "corrupted header"
  | corruptedData => "corrupted data"
  | dataTooShort => "data too short"
  | outputTooShort => "output buffer too short"
  | unsupportedFormat => "unsupported format"

/-- The failure as part of a sentence in the log. -/
def reason : LoadError → String
  | corruptedHeader => "the file header is corrupted"
  | corruptedData => "the file data is corrupted"
  | dataTooShort => "some data is missing from the file"
  | outputTooShort => "the output buffer was not large enough"
  | unsupportedFormat => "the image format is not currently supported"

end LoadError

/-- How reading the pixels of a file fails. -/
inductive ReadFault where
  | refused (error : LoadError)
  /-- The reader breaks off without an answer. -/
  | broken
  deriving DecidableEq, Repr

inductive SaveError where
  | textureTooShort (given required : Nat)
  | sliceTooShort (given required : Nat)
  | arrayFormat (format : StoredFormat)
  | emptyImage
  deriving DecidableEq, Repr

def SaveError.message : SaveError → String
  | textureTooShort given required =>
    "texture data is " ++ toString given ++ " bytes, " ++ toString required ++ " required"
  | sliceTooShort given required =>
    "slice data is " ++ toString given ++ " bytes, " ++ toString required ++ " required"
  | arrayFormat format => format.name ++ " cannot be stored in an array DDS"
  | emptyImage => "the image has no pixels"

/-- What was given cannot be encoded, whatever the writer is; this is told beside the message. -/
def SaveError.isInvalidInput : SaveError → Bool
  | textureTooShort _ _ | sliceTooShort _ _ | arrayFormat _ => true
  | emptyImage => false

end TextureCache
