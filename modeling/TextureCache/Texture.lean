import TextureCache.PixelFormat
import TextureCache.Shape

/-! A texture as the renderer hands it over: its shape, its format, what it is bound as, and its
texels in native layout. -/
namespace TextureCache

/-- What a texture is bound as. -/
inductive Target where
  | texture1D
  | texture2D
  | texture2DArray
  | texture3D
  | cubemap
  | cubemapArray
  | textureBuffer
  deriving DecidableEq, Repr

/-- The renderer's number for a texture; the cache only stores it and hands it back. -/
structure Handle where
  number : UInt64
  deriving DecidableEq, Repr

/-- An immutable snapshot of one texture. -/
structure Texture where
  shape : Shape
  format : PixelFormat
  target : Target
  data : Bytes
  deriving DecidableEq, Repr

namespace Texture

/-- Where the slices lie in the texture's own data. -/
def nativeRegions (texture : Texture) : List Region :=
  layOut texture.format.sliceSize 0 texture.shape.slices

def nativeSize (texture : Texture) : Nat := total (texture.nativeRegions.map Region.size)

end Texture
end TextureCache
