import TextureCache.Bytes

/-! Texels of 16 bits and their expansion to RGBA8. Channel names run from the lowest bit up; a
channel of fewer than eight bits is widened by repeating its high bits. -/
namespace TextureCache

/-- One texel with eight bits per channel. -/
structure Rgba where
  red : UInt8
  green : UInt8
  blue : UInt8
  alpha : UInt8
  deriving DecidableEq, Repr, Inhabited

def Rgba.toBytes (texel : Rgba) : Bytes := [texel.red, texel.green, texel.blue, texel.alpha]

def bitField (value position count : Nat) : Nat := (value >>> position) % (1 <<< count)

def widen4 (value : Nat) : UInt8 := UInt8.ofNat (value * 17)

def widen5 (value : Nat) : UInt8 := UInt8.ofNat (value * 8 + value / 4)

def widen6 (value : Nat) : UInt8 := UInt8.ofNat (value * 4 + value / 16)

/-- Full opacity for a set bit. -/
def opacity (bit : Nat) : UInt8 := if bit = 0 then 0 else 255

/-- The layouts of a 16-bit texel. -/
inductive PackedLayout where
  | r5g6b5
  | r5g5b5a1
  | r5g5b5x1
  | a1b5g5r5
  | r4g4b4a4
  deriving DecidableEq, Repr

namespace PackedLayout

/-- The channels of one texel. -/
def expand (layout : PackedLayout) (word : Nat) : Rgba :=
  let five position := widen5 (bitField word position 5)
  let four position := widen4 (bitField word position 4)
  match layout with
  | r5g6b5 => ⟨five 0, widen6 (bitField word 5 6), five 11, 255⟩
  | r5g5b5a1 => ⟨five 0, five 5, five 10, opacity (bitField word 15 1)⟩
  | r5g5b5x1 => ⟨five 0, five 5, five 10, 255⟩
  | a1b5g5r5 => ⟨five 11, five 6, five 1, opacity (bitField word 0 1)⟩
  | r4g4b4a4 => ⟨four 0, four 4, four 8, four 12⟩

/-- Expand little-endian texels; a lone last byte is dropped. -/
def toRgba8 (layout : PackedLayout) : Bytes → Bytes
  | low :: high :: rest =>
    (layout.expand (low.toNat + 256 * high.toNat)).toBytes ++ toRgba8 layout rest
  | _ => []

end PackedLayout

/-- Exchange red and blue in every whole texel, which turns BGRA8 into RGBA8 and back. -/
def swapRedBlue : Bytes → Bytes
  | first :: second :: third :: fourth :: rest =>
    third :: second :: first :: fourth :: swapRedBlue rest
  | rest => rest

theorem swapRedBlue_swapRedBlue (bytes : Bytes) : swapRedBlue (swapRedBlue bytes) = bytes := by
  fun_induction swapRedBlue bytes with
  | case1 first second third fourth rest ih => simp [swapRedBlue, ih]
  | case2 rest short =>
    unfold swapRedBlue
    split
    · exact absurd rfl (short _ _ _ _ _)
    · rfl

@[simp] theorem length_swapRedBlue (bytes : Bytes) : (swapRedBlue bytes).length = bytes.length := by
  fun_induction swapRedBlue bytes with
  | case1 first second third fourth rest ih => simp [ih]
  | case2 rest short => rfl

end TextureCache
