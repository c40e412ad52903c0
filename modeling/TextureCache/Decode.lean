import TextureCache.Texture
import TextureCache.Texel.S3tc
import TextureCache.Texel.Bc7
import TextureCache.Texel.Etc2
import TextureCache.Texel.Astc

/-! Decoding a texture's native texels to RGBA8. Plain texels are converted in one run over the
whole buffer; block formats are decoded slice by slice. -/
namespace TextureCache

inductive DecodeError where
  | unsupportedFormat (format : PixelFormat)
  | dataTooShort (expected actual : Nat)
  | undecodable (format : PixelFormat) (reason : String)
  deriving DecidableEq, Repr

def DecodeError.message : DecodeError → String
  | unsupportedFormat format => "format " ++ format.name ++ " cannot be converted to RGBA8"
  | dataTooShort expected actual =>
    "texture data too short: expected " ++ toString expected ++ " bytes, got " ++ toString actual
  | undecodable format reason => "failed to decode " ++ format.name ++ " data: " ++ reason

/-- How the texels of a format are decoded. -/
inductive TexelDecoder where
  /-- The texels are RGBA8 already. -/
  | identity
  | packed (layout : PackedLayout)
  | blocks (decoder : BlockDecoder)

/-- The decoder of a format, if it can be read. -/
def PixelFormat.decoder? : PixelFormat → Option TexelDecoder
  | rgba8 _ => some .identity
  | r5g6b5 | b5g6r5 => some (.packed .r5g6b5)
  | r5g5b5a1 | b5g5r5a1 => some (.packed .r5g5b5a1)
  | r5g5b5x1 => some (.packed .r5g5b5x1)
  | a1b5g5r5 => some (.packed .a1b5g5r5)
  | r4g4b4a4 => some (.packed .r4g4b4a4)
  | bc1 _ => some (.blocks S3tc.bc1)
  | bc2 _ => some (.blocks S3tc.bc2)
  | bc3 _ => some (.blocks S3tc.bc3)
  | bc4 _ | bc5 _ | bc6h _ => none
  | bc7 _ => some (.blocks Bc7.decoder)
  | etc2Rgb _ => some (.blocks Etc2.rgb)
  | etc2RgbPunchthrough _ => some (.blocks Etc2.rgbPunchthrough)
  | etc2Rgba _ => some (.blocks Etc2.rgba)
  | astc footprint _ => some (.blocks (Astc.decoder footprint))

theorem PixelFormat.isSome_decoder? (format : PixelFormat) :
    format.decoder?.isSome = format.isSupported := by
  cases format <;> rfl

namespace Texture

/-- The pixels of one slice of a block format. -/
def decodeRegion (texture : Texture) (decoder : BlockDecoder) (region : Region) : Bytes :=
  decoder.decodeImage region.slice.width region.slice.height
    (texture.data.slice region.offset region.size)

/-- The RGBA8 pixels of all slices in canonical order; bytes past the native layout are ignored. -/
def toRgba8 (texture : Texture) : Except DecodeError Bytes :=
  match texture.format.decoder? with
  | none => .error (.unsupportedFormat texture.format)
  | some decoder =>
    if texture.data.length < texture.nativeSize then
      .error (.dataTooShort texture.nativeSize texture.data.length)
    else
      .ok <| match decoder with
        | .identity => texture.data.take texture.nativeSize
        | .packed layout => layout.toRgba8 (texture.data.take texture.nativeSize)
        | .blocks decoder => texture.nativeRegions.flatMap (texture.decodeRegion decoder)

end Texture
end TextureCache
