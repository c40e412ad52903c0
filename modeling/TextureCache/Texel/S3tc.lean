import TextureCache.Texel.Block

/-! The S3 block formats BC1, BC2 and BC3: two 16-bit endpoint colours with two-bit selectors,
and for BC2 and BC3 a separate half with the alpha values. -/
namespace TextureCache.S3tc

/-- A 16-bit endpoint colour, red in the highest bits. -/
def endpoint (word : Nat) : Nat × Nat × Nat :=
  ((widen5 (bitField word 11 5)).toNat, (widen6 (bitField word 5 6)).toNat,
    (widen5 (bitField word 0 5)).toNat)

/-- Combine two colours channel by channel. -/
def blend (mix : Nat → Nat → Nat) (left right : Nat × Nat × Nat) : Rgba :=
  ⟨UInt8.ofNat (mix left.1 right.1), UInt8.ofNat (mix left.2.1 right.2.1),
    UInt8.ofNat (mix left.2.2 right.2.2), 255⟩

/-- The four colours of a block. When the first endpoint is not the larger one, the block has
three colours and the fourth selector is black with alpha 0. -/
def palette (first second : Nat) : List Rgba :=
  let left := endpoint first
  let right := endpoint second
  [blend (fun a _ => a) left right, blend (fun _ b => b) left right] ++
    if second < first then
      [blend (fun a b => (2 * a + b) / 3) left right, blend (fun a b => (a + 2 * b) / 3) left right]
    else [blend (fun a b => (a + b) / 2) left right, ⟨0, 0, 0, 0⟩]

/-- The texels of an eight-byte colour block. -/
def colors (block : Nat) : List Rgba :=
  let colors := palette (bitField block 0 16) (bitField block 16 16)
  (List.range 16).map fun texel => colors.getD (bitField block (32 + 2 * texel) 2) default

def explicitAlphas (block : Nat) : List UInt8 :=
  (List.range 16).map fun texel => widen4 (bitField block (4 * texel) 4)

/-- The eight alpha values between two endpoints; with the first endpoint not larger there are
six, and the last two selectors mean transparent and opaque. -/
def alphaPalette (first second : Nat) : List Nat :=
  [first, second] ++
    if second < first then
      (List.range 6).map fun step => ((6 - step) * first + (step + 1) * second) / 7
    else
      ((List.range 4).map fun step => ((4 - step) * first + (step + 1) * second) / 5) ++ [0, 255]

def interpolatedAlphas (block : Nat) : List UInt8 :=
  let alphas := alphaPalette (bitField block 0 8) (bitField block 8 8)
  (List.range 16).map fun texel =>
    UInt8.ofNat (alphas.getD (bitField block (16 + 3 * texel) 3) 0)

def withAlphas (colors : List Rgba) (alphas : List UInt8) : List Rgba :=
  colors.zipWith (fun color alpha => { color with alpha }) alphas

/-- BC1: one colour block whose black selector is transparent. -/
def bc1 : BlockDecoder where
  width := 4
  height := 4
  bytes := 8
  decode block := (colors (Bytes.ofLittleEndian block)).toArray

/-- BC2: explicit alpha values, then a colour block. -/
def bc2 : BlockDecoder where
  width := 4
  height := 4
  bytes := 16
  decode block :=
    (withAlphas (colors (Bytes.ofLittleEndian (block.drop 8)))
      (explicitAlphas (Bytes.ofLittleEndian (block.take 8)))).toArray

/-- BC3: interpolated alpha values, then a colour block. -/
def bc3 : BlockDecoder where
  width := 4
  height := 4
  bytes := 16
  decode block :=
    (withAlphas (colors (Bytes.ofLittleEndian (block.drop 8)))
      (interpolatedAlphas (Bytes.ofLittleEndian (block.take 8)))).toArray

end TextureCache.S3tc
