import TextureCache.Texel.Block

/-! The ASTC block format with its low-range endpoints. A block holds endpoint colours for up to
four partitions from its low end up and a grid of weights from its high end down, both as
integer sequences whose ranges need not be powers of two. -/
namespace TextureCache.Astc

/-- A range of an integer sequence: plain bits, or bits below a base-three or base-five digit. -/
inductive Range where
  | plain (bits : Nat)
  | trits (bits : Nat)
  | quints (bits : Nat)
  deriving DecidableEq, Repr

/-- The bits of a sequence. Five trits share eight bits and three quints share seven. -/
def Range.size (range : Range) (count : Nat) : Nat :=
  match range with
  | .plain bits => count * bits
  | .trits bits => count * bits + (count * 8 + 4) / 5
  | .quints bits => count * bits + (count * 7 + 2) / 3

/-- A member of a sequence: its digit and the bits below it. -/
structure Member where
  digit : Nat
  bits : Nat
  deriving DecidableEq, Repr, Inhabited

/-- Five base-three digits from their eight bits. -/
def tritDigits (packed : Nat) : List Nat :=
  let field := bitField packed
  let (low, fourth, fifth) :=
    if field 2 3 = 7 then (4 * field 5 3 + field 0 2, 2, 2)
    else if field 5 2 = 3 then (field 0 5, field 7 1, 2)
    else (field 0 5, field 5 2, field 7 1)
  let field := bitField low
  let (first, second, third) :=
    if field 0 2 = 3 then (2 * field 3 1 + field 2 1 * (1 - field 3 1), field 4 1, 2)
    else if field 2 2 = 3 then (field 0 2, 2, 2)
    else (2 * field 1 1 + field 0 1 * (1 - field 1 1), field 2 2, field 4 1)
  [first, second, third, fourth, fifth]

/-- Three base-five digits from their seven bits. -/
def quintDigits (packed : Nat) : List Nat :=
  let field := bitField packed
  if field 1 2 = 3 ∧ field 5 2 = 0 then
    let free := 1 - field 0 1
    [4, 4, 4 * field 0 1 + (2 * field 4 1 + field 3 1) * free]
  else
    let (low, third) :=
      if field 1 2 = 3 then (8 * field 3 2 + 2 * (3 - field 5 2) + field 0 1, 4)
      else (field 0 5, field 5 2)
    if low % 8 = 5 then [low / 8, 4, third] else [low % 8, low / 8, third]

/-- The members of one group, and the number of bits that the group takes. The bits of the
packed digits are spread between the members as `shares` says. -/
def readGroup (source bits : Nat) (shares : List Nat) (digits : Nat → List Nat) :
    List Member × Nat :=
  let step := fun (state : List Nat × Nat × Nat × Nat) share =>
    let (lows, packed, packedBits, position) := state
    (lows ++ [bitField source position bits],
      packed + (bitField source (position + bits) share <<< packedBits),
      packedBits + share, position + bits + share)
  let (lows, packed, _, size) := shares.foldl step ([], 0, 0, 0)
  ((digits packed).zipWith Member.mk lows, size)

/-- The members of consecutive groups. -/
def readGroups (source bits : Nat) (shares : List Nat) (digits : Nat → List Nat) :
    (groups : Nat) → List Member
  | 0 => []
  | groups + 1 =>
    let (members, size) := readGroup source bits shares digits
    members ++ readGroups (source >>> size) bits shares digits groups

/-- Read a sequence from the low end of a number; bits past the sequence count as zero. -/
def readSequence (source : Nat) (range : Range) (count : Nat) : List Member :=
  let source := bitField source 0 (range.size count)
  match range with
  | .plain bits => (List.range count).map fun member => ⟨0, bitField source (member * bits) bits⟩
  | .trits bits =>
    (readGroups source bits [2, 2, 1, 2, 1] tritDigits ((count + 4) / 5)).take count
  | .quints bits => (readGroups source bits [3, 2, 2] quintDigits ((count + 2) / 3)).take count

/-- Combine a scaled digit with spread bits; the lowest bit inverts the result of `width` bits. -/
def unfoldMember (width scale spread : Nat) (member : Member) : Nat :=
  let total := member.digit * scale + spread
  let inverted := if member.bits % 2 = 0 then 0 else (1 <<< width) - 1
  ((total ^^^ inverted) >>> 2) ||| (inverted &&& (1 <<< (width - 2)))

/-- An endpoint value in eight bits. -/
def endpointValue (range : Range) (member : Member) : Nat :=
  let value := member.bits
  let upper := value / 2
  match range with
  | .plain 1 => value * 255
  | .plain 2 => value * 85
  | .plain 3 => value * 36 + value / 2
  | .plain bits => (value <<< (8 - bits)) + (value >>> (2 * bits - 8))
  | .trits 2 => unfoldMember 9 93 (upper * 0x116) member
  | .trits 3 => unfoldMember 9 44 (upper / 2 * 0x10a + upper % 2 * 0x85) member
  | .trits 4 => unfoldMember 9 22 (upper * 65) member
  | .trits 5 => unfoldMember 9 11 (upper * 32 + upper / 4) member
  | .trits 6 => unfoldMember 9 5 (upper * 16 + upper / 16) member
  | .trits _ => unfoldMember 9 204 0 member
  | .quints 2 => unfoldMember 9 54 (upper * 0x10c) member
  | .quints 3 => unfoldMember 9 26 (upper * 130 + upper / 2) member
  | .quints 4 => unfoldMember 9 13 (upper * 64 + upper / 2) member
  | .quints 5 => unfoldMember 9 6 (upper * 32 + upper / 8) member
  | .quints _ => unfoldMember 9 113 0 member

def weightValue (range : Range) (member : Member) : Nat :=
  let value := member.bits
  let upper := value / 2
  let six :=
    match range with
    | .plain 1 => value * 63
    | .plain 2 => value * 21
    | .plain 3 => value * 9
    | .plain 4 => value * 4 + value / 4
    | .plain _ => value * 2 + value / 16
    | .trits 0 => [0, 32, 63].getD member.digit 0
    | .trits 1 => unfoldMember 7 50 0 member
    | .trits 2 => unfoldMember 7 23 (upper * 0x45) member
    | .trits _ => unfoldMember 7 11 (upper * 33) member
    | .quints 0 => [0, 16, 32, 47, 63].getD member.digit 0
    | .quints 1 => unfoldMember 7 28 0 member
    | .quints _ => unfoldMember 7 13 (upper * 0x42) member
  if 32 < six then six + 1 else six

/-- The weight ranges by their four-bit number; the first two of either half are reserved. -/
def weightRanges : List Range := [
  .plain 0, .plain 0, .plain 1, .trits 0, .plain 2, .quints 0, .trits 1, .plain 3,
  .plain 0, .plain 0, .quints 1, .trits 2, .plain 4, .quints 2, .trits 3, .plain 5]

/-- The endpoint ranges, largest first. -/
def endpointRanges : List Range := [
  .plain 8, .trits 6, .quints 5, .plain 7, .trits 5, .quints 4, .plain 6, .trits 4, .quints 3,
  .plain 5, .trits 3, .quints 2, .plain 4, .trits 2, .quints 1, .plain 3, .trits 1, .plain 2,
  .plain 1]

/-- The weight grid of a block and how its weights are stored. -/
structure Grid where
  width : Nat
  height : Nat
  dual : Bool
  range : Range
  deriving DecidableEq, Repr

/-- The number of stored weights; a second plane doubles it. -/
def Grid.count (grid : Grid) : Nat := grid.width * grid.height * if grid.dual then 2 else 1

/-- The bits that the weights take. -/
def Grid.size (grid : Grid) : Nat := grid.range.size grid.count

/-- The grid that the eleven mode bits of a block describe. -/
def grid (block : Nat) : Grid :=
  let field := bitField block
  let range (number : Nat) : Range := weightRanges.getD number (.plain 0)
  let dual : Bool := field 10 1 = 1
  let upper := 8 * field 9 1
  if field 0 2 ≠ 0 then
    let range := range (upper + 2 * field 0 2 + field 4 1)
    let a := field 5 2
    match field 2 2 with
    | 0 => ⟨field 7 2 + 4, a + 2, dual, range⟩
    | 1 => ⟨field 7 2 + 8, a + 2, dual, range⟩
    | 2 => ⟨a + 2, field 7 2 + 8, dual, range⟩
    | _ =>
      if field 8 1 = 1 then ⟨field 7 1 + 2, a + 2, dual, range⟩
      else ⟨a + 2, field 7 1 + 6, dual, range⟩
  else
    let low := 2 * field 2 2 + field 4 1
    let a := field 5 2
    match field 7 2 with
    | 0 => ⟨12, a + 2, dual, range (upper + low)⟩
    | 1 => ⟨a + 2, 12, dual, range (upper + low)⟩
    | 2 => ⟨a + 6, field 9 2 + 6, false, range low⟩
    | _ =>
      if field 5 1 = 1 then ⟨10, 6, dual, range (upper + low)⟩
      else ⟨6, 10, dual, range (upper + low)⟩

/-- A number of 128 bits in reverse order. -/
def reverseBits (block : Nat) : Nat :=
  (List.range 128).foldl (fun reversed position => 2 * reversed + bitField block position 1) 0

/-- The weights of a block as stored, both planes interleaved. -/
def storedWeights (block : Nat) (grid : Grid) : Array Nat :=
  ((readSequence (reverseBits block) grid.range grid.count).map (weightValue grid.range)).toArray

/-- The weight of a texel in a plane, interpolated between four grid points. -/
def weightAt (grid : Grid) (weights : Array Nat) (width height plane row column : Nat) : Nat :=
  let scale (size points position : Nat) : Nat :=
    ((1024 + size / 2) / (size - 1) * position * (points - 1) + 32) / 64
  let across := scale width grid.width column
  let down := scale height grid.height row
  let planes := if grid.dual then 2 else 1
  let start := across / 16 + down / 16 * grid.width
  let stored (point : Nat) : Nat := weights.getD (point * planes + plane) 0
  let fx := across % 16
  let fy := down % 16
  let both := (fx * fy + 8) / 16
  (stored start * (16 + both - fx - fy) + stored (start + 1) * (fx - both) +
    stored (start + grid.width) * (fy - both) + stored (start + grid.width + 1) * both + 8) / 16

/-- Scramble a partition number to 32 bits. -/
def scramble (seed : UInt32) : UInt32 :=
  let p := seed ^^^ (seed >>> 15)
  let p := p - (p <<< 17)
  let p := p + (p <<< 7)
  let p := p + (p <<< 4)
  let p := p ^^^ (p >>> 5)
  let p := p + (p <<< 16)
  let p := p ^^^ (p >>> 7)
  let p := p ^^^ (p >>> 3)
  let p := p ^^^ (p <<< 6)
  p ^^^ (p >>> 17)

/-- The partition that a texel belongs to; blocks of fewer than 31 texels use doubled positions. -/
def partitionOf (number partitions : Nat) (small : Bool) (row column : Nat) : Nat :=
  if partitions = 1 then 0
  else
    let x := if small then 2 * column else column
    let y := if small then 2 * row else row
    let seed := number + (partitions - 1) * 1024
    let random := (scramble (UInt32.ofNat seed)).toNat
    let square (position : Nat) : Nat := bitField random position 4 * bitField random position 4
    let byTwo := if seed / 2 % 2 = 1 then 4 else 5
    let byThree := if partitions = 3 then 6 else 5
    let (first, second) := if seed % 2 = 1 then (byTwo, byThree) else (byThree, byTwo)
    let term (left right shift : Nat) : Nat :=
      ((square left >>> first) * x + (square right >>> second) * y + (random >>> shift)) % 64
    let a := term 0 4 14
    let b := term 8 12 10
    let c := if partitions < 3 then 0 else term 16 20 6
    let d := if partitions < 4 then 0 else term 24 28 2
    if b ≤ a ∧ c ≤ a ∧ d ≤ a then 0 else if c ≤ b ∧ d ≤ b then 1 else if d ≤ c then 2 else 3

/-- A colour whose channels, red first and alpha last, may leave the range of eight bits. -/
abbrev Channels := List Int

def clamp (value : Int) : Int := max 0 (min 255 value)

/-- Move the top bit of an offset to its base value; the offset becomes signed. -/
def transfer (base offset : Nat) : Int × Int :=
  let moved := base / 2 + offset / 128 * 128
  let rest := offset / 2 % 64
  (moved, if 32 ≤ rest then (rest : Int) - 64 else rest)

/-- Pull red and green halfway to blue. -/
def contract (color : Channels) : Channels :=
  match color with
  | [red, green, blue, alpha] => [(red + blue) / 2, (green + blue) / 2, blue, alpha]
  | _ => color

def intensity (color : Channels) : Int := (color.take 3).foldl (· + ·) 0

/-- The endpoints given directly; in reverse order they are contracted. -/
def direct (first second : Channels) : Channels × Channels :=
  if intensity first ≤ intensity second then (first, second)
  else (contract second, contract first)

/-- The endpoints given by a base and an offset; with a negative offset they change places. -/
def offsetPair (base offset : Channels) : Channels × Channels :=
  let second := base.zipWith (· + ·) offset
  let (first, second) :=
    if 0 ≤ intensity offset then (base, second) else (contract second, contract base)
  (first.map clamp, second.map clamp)

/-- The two endpoints that the values of an endpoint mode stand for. -/
def endpoints (mode : Nat) (values : List Nat) : Channels × Channels :=
  let at' (index : Nat) : Nat := values.getD index 0
  let value (index : Nat) : Int := at' index
  let scaled (index : Nat) : Int := ((at' index * at' 3 / 256 : Nat) : Int)
  let moved (index : Nat) : Int × Int := transfer (at' index) (at' (index + 1))
  match mode with
  | 0 => ([value 0, value 0, value 0, 255], [value 1, value 1, value 1, 255])
  | 1 =>
    let low : Int := (at' 0 / 4 + at' 1 / 64 * 64 : Nat)
    let high := min 255 (low + (at' 1 % 64 : Nat))
    ([low, low, low, 255], [high, high, high, 255])
  | 4 => ([value 0, value 0, value 0, value 2], [value 1, value 1, value 1, value 3])
  | 5 =>
    let (light, lightOffset) := moved 0
    let (alpha, alphaOffset) := moved 2
    let second := light + lightOffset
    ([light, light, light, alpha].map clamp,
      [second, second, second, alpha + alphaOffset].map clamp)
  | 6 => ([scaled 0, scaled 1, scaled 2, 255], [value 0, value 1, value 2, 255])
  | 8 => direct [value 0, value 2, value 4, 255] [value 1, value 3, value 5, 255]
  | 9 =>
    offsetPair [(moved 0).1, (moved 2).1, (moved 4).1, 255]
      [(moved 0).2, (moved 2).2, (moved 4).2, 0]
  | 10 => ([scaled 0, scaled 1, scaled 2, value 4], [value 0, value 1, value 2, value 5])
  | 12 => direct [value 0, value 2, value 4, value 6] [value 1, value 3, value 5, value 7]
  | 13 =>
    offsetPair [(moved 0).1, (moved 2).1, (moved 4).1, (moved 6).1]
      [(moved 0).2, (moved 2).2, (moved 4).2, (moved 6).2]
  | _ => ([0, 0, 0, 0], [0, 0, 0, 0])

/-- The configuration of a block beside its weights. -/
structure Config where
  partitions : Nat
  /-- The endpoint mode of every partition. -/
  modes : List Nat
  /-- The channel that the second weight plane is for. -/
  secondPlane : Option Nat
  /-- Where the endpoint values start and how many bits they may take. -/
  endpointStart : Nat
  endpointBits : Nat
  deriving DecidableEq, Repr

/-- The configuration of a block; mode bits of many partitions spill to just below the weights. -/
def config (block : Nat) (grid : Grid) : Config :=
  let partitions := bitField block 11 2 + 1
  let free := 128 - grid.size
  let selectorBits := if grid.dual then 2 else 0
  let single := partitions = 1
  let spilled := if single ∨ bitField block 23 2 = 0 then 0 else 3 * partitions - 4
  let packed := bitField block 23 6 + 64 * bitField block (free - spilled) spilled
  let start := if single then 17 else 29
  { partitions
    modes :=
      if single then [bitField block 13 4]
      else if bitField packed 0 2 = 0 then List.replicate partitions (bitField packed 2 4)
      else (List.range partitions).map fun index =>
        4 * (bitField packed 0 2 - 1 + bitField packed (2 + index) 1) +
          bitField packed (2 + partitions + 2 * index) 2
    secondPlane :=
      if grid.dual then some (bitField block (free - spilled - selectorBits) 2) else none
    endpointStart := start
    endpointBits := free - spilled - selectorBits - start }

def valueCount (mode : Nat) : Nat := mode / 4 * 2 + 2

/-- Cut the endpoint values into the groups of the partitions. -/
def groupValues : List Nat → List Nat → List (List Nat)
  | [], _ => []
  | mode :: modes, values =>
    values.take (valueCount mode) :: groupValues modes (values.drop (valueCount mode))

def allEndpoints (block : Nat) (config : Config) : List (Channels × Channels) :=
  let count := total (config.modes.map valueCount)
  let fits (range : Range) : Bool := range.size count ≤ config.endpointBits
  let range := (endpointRanges.find? fits).getD (.plain 0)
  let members := readSequence (block >>> config.endpointStart) range count
  let values := members.map (endpointValue range)
  config.modes.zipWith endpoints (groupValues config.modes values)

/-- A channel between two endpoints; values are widened to 16 bits before they are weighed. -/
def interpolate (first second : Int) (weight : Nat) : UInt8 :=
  let wide := (first * 257 * (64 - weight) + second * 257 * weight + 32) / 64
  UInt8.ofNat ((wide * 255 + 32768) / 65536).toNat

/-- The texels of a block that is neither constant nor reserved. -/
def mixedTexels (width height block : Nat) : List Rgba :=
  let grid := grid block
  let config := config block grid
  let endpoints := (allEndpoints block config).toArray
  let weights := storedWeights block grid
  let number := bitField block 13 10
  (List.range (width * height)).map fun texel =>
    let row := texel / width
    let column := texel % width
    let owner := partitionOf number config.partitions (width * height < 31) row column
    let (first, second) := endpoints.getD owner ([], [])
    let channel (index : Nat) : UInt8 :=
      let plane := if config.secondPlane = some index then 1 else 0
      interpolate (first.getD index 0) (second.getD index 0)
        (weightAt grid weights width height plane row column)
    ⟨channel 0, channel 1, channel 2, channel 3⟩

/-- The texels of a block. A constant block keeps the high byte of every channel; reserved
blocks are opaque magenta. -/
def texels (width height block : Nat) : List Rgba :=
  let high (position : Nat) : UInt8 := UInt8.ofNat (bitField block position 8)
  if bitField block 0 9 = 0x1fc then
    List.replicate (width * height) ⟨high 72, high 88, high 104, high 120⟩
  else if bitField block 0 4 = 0 ∨
      (bitField block 0 2 = 0 ∧ bitField block 6 3 = 7) then
    List.replicate (width * height) ⟨255, 0, 255, 255⟩
  else mixedTexels width height block

def decoder (footprint : AstcFootprint) : BlockDecoder where
  width := footprint.extent.1
  height := footprint.extent.2
  bytes := 16
  decode block :=
    (texels footprint.extent.1 footprint.extent.2 (Bytes.ofLittleEndian block)).toArray

end TextureCache.Astc
