import TextureCache.Texel.Block

/-! The BC7 block format. The lowest set bit of a block gives one of eight modes, which say how
many endpoint pairs there are, how precise they are and how many bits each selector has. -/
namespace TextureCache.Bc7

/-- The field widths of a mode. -/
structure Mode where
  /-- Endpoint pairs, one for each subset of the texels. -/
  subsets : Nat
  partitionBits : Nat
  rotationBits : Nat
  selectionBits : Nat
  colorBits : Nat
  alphaBits : Nat
  /-- Low endpoint bits: one for each endpoint, one for each pair, or none. -/
  lowBits : Nat
  indexBits : Nat
  /-- The width of the separate selectors for alpha, zero if there are none. -/
  secondBits : Nat

def modes : List Mode := [
  ⟨3, 4, 0, 0, 4, 0, 6, 3, 0⟩, ⟨2, 6, 0, 0, 6, 0, 2, 3, 0⟩, ⟨3, 6, 0, 0, 5, 0, 0, 2, 0⟩,
  ⟨2, 6, 0, 0, 7, 0, 4, 2, 0⟩, ⟨1, 0, 2, 1, 5, 6, 0, 2, 3⟩, ⟨1, 0, 2, 0, 7, 8, 0, 2, 2⟩,
  ⟨1, 0, 0, 0, 7, 7, 2, 4, 0⟩, ⟨2, 6, 0, 0, 5, 5, 4, 2, 0⟩]

/-- The partitions of sixteen texels into two subsets, two bits a texel from the lowest up. -/
def partitions2 : Array Nat := #[
  0x50505050, 0x40404040, 0x54545454, 0x54505040, 0x50404000, 0x55545450, 0x55545040, 0x54504000,
  0x50400000, 0x55555450, 0x55544000, 0x54400000, 0x55555440, 0x55550000, 0x55555500, 0x55000000,
  0x55150100, 0x00004054, 0x15010000, 0x00405054, 0x00004050, 0x15050100, 0x05010000, 0x40505054,
  0x00404050, 0x05010100, 0x14141414, 0x05141450, 0x01155440, 0x00555500, 0x15014054, 0x05414150,
  0x44444444, 0x55005500, 0x11441144, 0x05055050, 0x05500550, 0x11114444, 0x41144114, 0x44111144,
  0x15055054, 0x01055040, 0x05041050, 0x05455150, 0x14414114, 0x50050550, 0x41411414, 0x00141400,
  0x00041504, 0x00105410, 0x10541000, 0x04150400, 0x50410514, 0x41051450, 0x05415014, 0x14054150,
  0x41050514, 0x41505014, 0x40011554, 0x54150140, 0x50505500, 0x00555050, 0x15151010, 0x54540404]

/-- The partitions of sixteen texels into three subsets, two bits a texel from the lowest up. -/
def partitions3 : Array Nat := #[
  0xaa685050, 0x6a5a5040, 0x5a5a4200, 0x5450a0a8, 0xa5a50000, 0xa0a05050, 0x5555a0a0, 0x5a5a5050,
  0xaa550000, 0xaa555500, 0xaaaa5500, 0x90909090, 0x94949494, 0xa4a4a4a4, 0xa9a59450, 0x2a0a4250,
  0xa5945040, 0x0a425054, 0xa5a5a500, 0x55a0a0a0, 0xa8a85454, 0x6a6a4040, 0xa4a45000, 0x1a1a0500,
  0x0050a4a4, 0xaaa59090, 0x14696914, 0x69691400, 0xa08585a0, 0xaa821414, 0x50a4a450, 0x6a5a0200,
  0xa9a58000, 0x5090a0a8, 0xa8a09050, 0x24242424, 0x00aa5500, 0x24924924, 0x24499224, 0x50a50a50,
  0x500aa550, 0xaaaa4444, 0x66660000, 0xa5a0a5a0, 0x50a050a0, 0x69286928, 0x44aaaa44, 0x66666600,
  0xaa444444, 0x54a854a8, 0x95809580, 0x96969600, 0xa85454a8, 0x80959580, 0xaa141414, 0x96960000,
  0xaaaa1414, 0xa05050a0, 0xa0a5a5a0, 0x96000000, 0x40804080, 0xa9a8a9a8, 0xaaaaaa44, 0x2a4a5254]

/-- The texel of the second of two subsets whose selector has one bit less. -/
def anchors2 : Array Nat := #[
  15, 15, 15, 15, 15, 15, 15, 15, 15, 15, 15, 15, 15, 15, 15, 15,
  15, 2, 8, 2, 2, 8, 8, 15, 2, 8, 2, 2, 8, 8, 2, 2,
  15, 15, 6, 8, 2, 8, 15, 15, 2, 8, 2, 2, 2, 15, 15, 6,
  6, 2, 6, 8, 15, 15, 2, 2, 15, 15, 15, 15, 15, 2, 2, 15]

/-- The texel of the second of three subsets whose selector has one bit less. -/
def anchors3Second : Array Nat := #[
  3, 3, 15, 15, 8, 3, 15, 15, 8, 8, 6, 6, 6, 5, 3, 3,
  3, 3, 8, 15, 3, 3, 6, 10, 5, 8, 8, 6, 8, 5, 15, 15,
  8, 15, 3, 5, 6, 10, 8, 15, 15, 3, 15, 5, 15, 15, 15, 15,
  3, 15, 5, 5, 5, 8, 5, 10, 5, 10, 8, 13, 15, 12, 3, 3]

/-- The texel of the third of three subsets whose selector has one bit less. -/
def anchors3Third : Array Nat := #[
  15, 8, 8, 3, 15, 15, 3, 8, 15, 15, 15, 15, 15, 15, 15, 8,
  15, 8, 15, 3, 15, 8, 15, 8, 3, 15, 6, 10, 15, 15, 10, 8,
  15, 3, 15, 10, 10, 8, 9, 10, 6, 15, 8, 15, 3, 6, 6, 8,
  15, 3, 15, 15, 15, 15, 15, 15, 15, 15, 15, 15, 3, 15, 15, 8]

def subsetOf (subsets partitioning texel : Nat) : Nat :=
  match subsets with
  | 2 => bitField (partitions2.getD partitioning 0) (2 * texel) 2
  | 3 => bitField (partitions3.getD partitioning 0) (2 * texel) 2
  | _ => 0

/-- The texels whose selector has one bit less. -/
def anchors (subsets partitioning : Nat) : List Nat :=
  match subsets with
  | 2 => [0, anchors2.getD partitioning 0]
  | 3 => [0, anchors3Second.getD partitioning 0, anchors3Third.getD partitioning 0]
  | _ => [0]

/-- The weight of the second endpoint out of 64, for selectors of a width. -/
def weights (bits : Nat) : List Nat :=
  match bits with
  | 2 => [0, 21, 43, 64]
  | 3 => [0, 9, 18, 27, 37, 46, 55, 64]
  | _ => [0, 4, 9, 13, 17, 21, 26, 30, 34, 38, 43, 47, 51, 55, 60, 64]

/-- Widen a value of at least four bits to eight. -/
def widen (bits value : Nat) : Nat := (value <<< (8 - bits)) + (value >>> (2 * bits - 8))

/-- The selector of a texel in a run of selectors with some anchors. -/
def index (block start bits : Nat) (anchors : List Nat) (texel : Nat) : Nat :=
  let position := start + bits * texel - (anchors.filter (· < texel)).length
  bitField block position (if texel ∈ anchors then bits - 1 else bits)

/-- The value between two endpoints that a selector picks. -/
def interpolate (bits selected first second : Nat) : Nat :=
  let weight := (weights bits).getD selected 0
  ((64 - weight) * first + weight * second + 32) / 64

/-- The texels of a block in a mode; `start` is the position after the mode's own bits. -/
def Mode.texels (mode : Mode) (block start : Nat) : List Rgba :=
  let partitioning := bitField block start mode.partitionBits
  let start := start + mode.partitionBits
  let rotation := bitField block start mode.rotationBits
  let start := start + mode.rotationBits
  let selection := bitField block start mode.selectionBits
  let colors := start + mode.selectionBits
  let endpoints := 2 * mode.subsets
  let alphas := colors + 3 * endpoints * mode.colorBits
  let lows := alphas + endpoints * mode.alphaBits
  let first := lows + mode.lowBits
  let anchored := anchors mode.subsets partitioning
  let second := first + 16 * mode.indexBits - mode.subsets
  let refine (bits value endpoint : Nat) : Nat :=
    if mode.lowBits = 0 then widen bits value
    else
      let low := bitField block (lows + endpoint * mode.lowBits / endpoints) 1
      widen (bits + 1) (2 * value + low)
  let color (channel endpoint : Nat) : Nat :=
    let position := colors + (channel * endpoints + endpoint) * mode.colorBits
    refine mode.colorBits (bitField block position mode.colorBits) endpoint
  let alpha (endpoint : Nat) : Nat :=
    if mode.alphaBits = 0 then 255
    else
      let position := alphas + endpoint * mode.alphaBits
      refine mode.alphaBits (bitField block position mode.alphaBits) endpoint
  (List.range 16).map fun texel =>
    let pair := 2 * subsetOf mode.subsets partitioning texel
    let primary := (mode.indexBits, index block first mode.indexBits anchored texel)
    let secondary :=
      if mode.secondBits = 0 then primary
      else (mode.secondBits, index block second mode.secondBits [0] texel)
    let (forColor, forAlpha) := if selection = 0 then (primary, secondary) else (secondary, primary)
    let channel (number : Nat) : UInt8 :=
      UInt8.ofNat (interpolate forColor.1 forColor.2 (color number pair) (color number (pair + 1)))
    let red := channel 0
    let green := channel 1
    let blue := channel 2
    let opacity := UInt8.ofNat (interpolate forAlpha.1 forAlpha.2 (alpha pair) (alpha (pair + 1)))
    match rotation with
    | 0 => ⟨red, green, blue, opacity⟩
    | 1 => ⟨opacity, green, blue, red⟩
    | 2 => ⟨red, opacity, blue, green⟩
    | _ => ⟨red, green, opacity, blue⟩

/-- The texels of a block; without a mode bit they are transparent black. -/
def texels (block : Nat) : List Rgba :=
  match (List.range 8).find? fun mode => bitField block mode 1 = 1 with
  | none => List.replicate 16 ⟨0, 0, 0, 0⟩
  | some number => (modes[number]?.map fun mode => mode.texels block (number + 1)).getD []

def decoder : BlockDecoder where
  width := 4
  height := 4
  bytes := 16
  decode block := (texels (Bytes.ofLittleEndian block)).toArray

end TextureCache.Bc7
