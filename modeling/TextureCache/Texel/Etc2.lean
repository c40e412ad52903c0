import TextureCache.Texel.Block

/-! The ETC2 block formats. A colour block is read as one 64-bit number, its first byte highest;
selectors run down the columns. Two halves share a base colour each, or the block is in one of
the T, H and planar forms, which hide in base colours that would overflow. -/
namespace TextureCache.Etc2

def clampByte (value : Int) : UInt8 := UInt8.ofNat (min 255 value.toNat)

/-- A colour whose channels may still leave the range of eight bits. -/
structure Color where
  red : Int
  green : Int
  blue : Int
  deriving DecidableEq, Repr, Inhabited

def Color.shift (color : Color) (amount : Int) : Color :=
  ⟨color.red + amount, color.green + amount, color.blue + amount⟩

/-- The texel of a colour with an alpha value. -/
def Color.texel (color : Color) (alpha : UInt8) : Rgba :=
  ⟨clampByte color.red, clampByte color.green, clampByte color.blue, alpha⟩

def color4 (red green blue : Nat) : Color :=
  ⟨(widen4 red).toNat, (widen4 green).toNat, (widen4 blue).toNat⟩

def color5 (red green blue : Nat) : Color :=
  ⟨(widen5 red).toNat, (widen5 green).toNat, (widen5 blue).toNat⟩

/-- The small and the large modifier of each intensity table. -/
def modifiers : List (Int × Int) :=
  [(2, 8), (5, 17), (9, 29), (13, 42), (18, 60), (24, 80), (33, 106), (47, 183)]

/-- The colour distances of the T and H forms. -/
def distances : List Int := [3, 6, 11, 16, 23, 32, 41, 64]

/-- How transparent texels occur in a block. -/
inductive Alpha where
  /-- Every texel is opaque, and half blocks may have base colours of their own. -/
  | opaqueBlock
  /-- Selector 2 is transparent. -/
  | punchthrough
  deriving DecidableEq, Repr

/-- The selector of a texel. -/
def selector (block row column : Nat) : Nat :=
  let position := column * 4 + row
  2 * bitField block (16 + position) 1 + bitField block position 1

/-- The texel that a selector picks from four paint colours. -/
def painted (alpha : Alpha) (paints : List Color) (selected : Nat) : Rgba :=
  (paints.getD selected default).texel (if alpha = .punchthrough ∧ selected = 2 then 0 else 255)

/-- The texel that a selector picks around a base colour. In a block with transparent texels the
small modifier is zero, so a transparent texel keeps the base colour. -/
def modulated (alpha : Alpha) (base : Color) (table selected : Nat) : Rgba :=
  let (small, large) := modifiers.getD table (0, 0)
  let small := if alpha = .punchthrough then 0 else small
  let paints := [small, large, -small, -large].map base.shift
  painted alpha paints selected

/-- The texel of a block whose two halves have a base colour and a table each; the halves lie
side by side, or one above the other when the flip bit is set. -/
def halved (alpha : Alpha) (block : Nat) (first second : Color) (row column : Nat) : Rgba :=
  let inFirst := if bitField block 32 1 = 0 then column < 2 else row < 2
  let selected := selector block row column
  if inFirst then modulated alpha first (bitField block 37 3) selected
  else modulated alpha second (bitField block 34 3) selected

/-- The texel of a block with one base colour alone and three around another. -/
def tForm (alpha : Alpha) (block row column : Nat) : Rgba :=
  let single := color4 (4 * bitField block 59 2 + bitField block 56 2) (bitField block 52 4)
    (bitField block 48 4)
  let centre := color4 (bitField block 44 4) (bitField block 40 4) (bitField block 36 4)
  let distance := distances.getD (2 * bitField block 34 2 + bitField block 32 1) 0
  painted alpha [single, centre.shift distance, centre, centre.shift (-distance)]
    (selector block row column)

/-- The texel of a block with two colours around each of two base colours; their order gives the
last bit of the distance. -/
def hForm (alpha : Alpha) (block row column : Nat) : Rgba :=
  let red := bitField block 59 4
  let green := 2 * bitField block 56 3 + bitField block 52 1
  let blue := 8 * bitField block 51 1 + bitField block 47 3
  let red' := bitField block 43 4
  let green' := bitField block 39 4
  let blue' := bitField block 35 4
  let ordered := red' * 256 + green' * 16 + blue' ≤ red * 256 + green * 16 + blue
  let distance := distances.getD
    (4 * bitField block 34 1 + 2 * bitField block 32 1 + if ordered then 1 else 0) 0
  let first := color4 red green blue
  let second := color4 red' green' blue'
  painted alpha [first.shift distance, first.shift (-distance), second.shift distance,
    second.shift (-distance)] (selector block row column)

/-- One channel of a plane through an origin and its neighbours four texels right and down. -/
def plane (origin right down : Nat) (row column : Nat) : Int :=
  (column * ((right : Int) - origin) + row * ((down : Int) - origin) + 4 * origin + 2) / 4

def widen7 (value : Nat) : Nat := value * 2 + value / 64

/-- The texel of a block that is a linear ramp; always opaque. -/
def planarForm (block row column : Nat) : Rgba :=
  let six value := (widen6 value).toNat
  let red := plane (six (bitField block 57 6))
    (six (2 * bitField block 34 5 + bitField block 32 1)) (six (bitField block 13 6)) row column
  let green := plane (widen7 (64 * bitField block 56 1 + bitField block 49 6))
    (widen7 (bitField block 25 7)) (widen7 (bitField block 6 7)) row column
  let blue := plane
    (six (32 * bitField block 48 1 + 8 * bitField block 43 2 + bitField block 39 3))
    (six (bitField block 19 6)) (six (bitField block 0 6)) row column
  Color.texel ⟨red, green, blue⟩ 255

/-- A three-bit number in two's complement. -/
def signed3 (value : Nat) : Int := if value < 4 then value else (value : Int) - 8

/-- Whether a five-bit channel value left its range. -/
def overflows (value : Int) : Bool := value < 0 || 31 < value

/-- The texel of a block whose second base colour is given by its difference to the first. A sum
out of range selects the T form for red, the H form for green and the planar form for blue. -/
def differential (alpha : Alpha) (block row column : Nat) : Rgba :=
  let red := bitField block 59 5
  let green := bitField block 51 5
  let blue := bitField block 43 5
  let red' := red + signed3 (bitField block 56 3)
  let green' := green + signed3 (bitField block 48 3)
  let blue' := blue + signed3 (bitField block 40 3)
  if overflows red' then tForm alpha block row column
  else if overflows green' then hForm alpha block row column
  else if overflows blue' then planarForm block row column
  else halved alpha block (color5 red green blue)
    (color5 red'.toNat green'.toNat blue'.toNat) row column

/-- The texel of a block without alpha; it may give both base colours in four bits. -/
def opaqueTexel (block row column : Nat) : Rgba :=
  if bitField block 33 1 = 0 then
    halved .opaqueBlock block
      (color4 (bitField block 60 4) (bitField block 52 4) (bitField block 44 4))
      (color4 (bitField block 56 4) (bitField block 48 4) (bitField block 40 4)) row column
  else differential .opaqueBlock block row column

/-- The texel of a block with one bit of alpha. -/
def punchthroughTexel (block row column : Nat) : Rgba :=
  differential (if bitField block 33 1 = 0 then .punchthrough else .opaqueBlock) block row column

def alphaModifiers : List (List Int) := [
  [-3, -6, -9, -15, 2, 5, 8, 14], [-3, -7, -10, -13, 2, 6, 9, 12],
  [-2, -5, -8, -13, 1, 4, 7, 12], [-2, -4, -6, -13, 1, 3, 5, 12],
  [-3, -6, -8, -12, 2, 5, 7, 11], [-3, -7, -9, -11, 2, 6, 8, 10],
  [-4, -7, -8, -11, 3, 6, 7, 10], [-3, -5, -8, -11, 2, 4, 7, 10],
  [-2, -6, -8, -10, 1, 5, 7, 9], [-2, -5, -8, -10, 1, 4, 7, 9],
  [-2, -4, -8, -10, 1, 3, 7, 9], [-2, -5, -7, -10, 1, 4, 6, 9],
  [-3, -4, -7, -10, 2, 3, 6, 9], [-1, -2, -3, -10, 0, 1, 2, 9],
  [-4, -6, -8, -9, 3, 5, 7, 8], [-3, -5, -7, -9, 2, 4, 6, 8]]

/-- The alpha value of a texel: a base value and a scaled modifier. -/
def alphaAt (block row column : Nat) : UInt8 :=
  let table := alphaModifiers.getD (bitField block 48 4) []
  let modifier := table.getD (bitField block (45 - 3 * (column * 4 + row)) 3) 0
  clampByte (bitField block 56 8 + modifier * bitField block 52 4)

/-- The sixteen texels of a block, row by row. -/
def texels (texelAt : (row column : Nat) → Rgba) : Array Rgba :=
  ((List.range 16).map fun texel => texelAt (texel / 4) (texel % 4)).toArray

/-- Colour alone. -/
def rgb : BlockDecoder where
  width := 4
  height := 4
  bytes := 8
  decode block := texels (opaqueTexel (Bytes.ofBigEndian block))

/-- Colour with one bit of alpha. -/
def rgbPunchthrough : BlockDecoder where
  width := 4
  height := 4
  bytes := 8
  decode block := texels (punchthroughTexel (Bytes.ofBigEndian block))

/-- A block of alpha values, then a colour block. -/
def rgba : BlockDecoder where
  width := 4
  height := 4
  bytes := 16
  decode block :=
    let alphas := Bytes.ofBigEndian (block.take 8)
    let colors := Bytes.ofBigEndian (block.drop 8)
    texels fun row column =>
      { opaqueTexel colors row column with alpha := alphaAt alphas row column }

end TextureCache.Etc2
