import TextureCache.PixelFormat
import TextureCache.Texel.Packed

/-! Images stored in blocks of equal size, row by row. A block decoder turns the bytes of one
block into its texels; texels of blocks that reach past the image are cut off. -/
namespace TextureCache

/-- A block format: the texels across and down a block, its bytes, and its decoder, whose
result lists the texels row by row. -/
structure BlockDecoder where
  width : Nat
  height : Nat
  bytes : Nat
  decode : Bytes → Array Rgba

namespace BlockDecoder

/-- The texels of every block of an image. -/
def decodeBlocks (decoder : BlockDecoder) (width height : Nat) (data : Bytes) :
    Array (Array Rgba) :=
  ((data.chunks decoder.bytes (divCeil width decoder.width * divCeil height decoder.height)).map
    decoder.decode).toArray

/-- The texel at a position of an image, looked up in the image's blocks. -/
def texelAt (decoder : BlockDecoder) (width : Nat) (blocks : Array (Array Rgba))
    (row column : Nat) : Rgba :=
  let block := row / decoder.height * divCeil width decoder.width + column / decoder.width
  let texel := row % decoder.height * decoder.width + column % decoder.width
  (blocks.getD block #[]).getD texel default

def decodeImage (decoder : BlockDecoder) (width height : Nat) (data : Bytes) : Bytes :=
  let blocks := decoder.decodeBlocks width height data
  (List.range height).flatMap fun row =>
    (List.range width).flatMap fun column => (decoder.texelAt width blocks row column).toBytes

private theorem length_flatMap_of_length {Item : Type} (items : List Item) (part : Item → Bytes)
    (size : Nat) (each : ∀ item, (part item).length = size) :
    (items.flatMap part).length = items.length * size := by
  induction items with
  | nil => simp
  | cons item rest ih => simp [each, ih, Nat.succ_mul, Nat.add_comm]

theorem length_decodeImage (decoder : BlockDecoder) (width height : Nat) (data : Bytes) :
    (decoder.decodeImage width height data).length = width * height * 4 := by
  have row (blocks : Array (Array Rgba)) (index : Nat) :
      ((List.range width).flatMap fun column =>
        (decoder.texelAt width blocks index column).toBytes).length = width * 4 := by
    rw [length_flatMap_of_length _ _ 4 fun _ => rfl]; simp
  unfold decodeImage
  rw [length_flatMap_of_length _ _ _ (row _), List.length_range, Nat.mul_comm width height,
    Nat.mul_assoc]

end BlockDecoder
end TextureCache
