import TextureCache.Bytes

/-! The 128-bit XXH3 digest without a seed. Inputs of up to 16, 128 and 240 bytes have mixing
rules of their own; longer ones run through eight lanes of 64 bits, a stripe of 64 bytes at a
time. All arithmetic is on 64-bit words that wrap. -/
namespace TextureCache.Digest.Xxh3

/-- A 128-bit value as two words. -/
structure Wide where
  low : UInt64
  high : UInt64
  deriving DecidableEq, Repr

/-- The first of three odd constants of 32 bits. -/
def prime32A : UInt64 := 0x9E3779B1
def prime32B : UInt64 := 0x85EBCA77
def prime32C : UInt64 := 0xC2B2AE3D
/-- The first of five odd constants of 64 bits. -/
def prime64A : UInt64 := 0x9E3779B185EBCA87
def prime64B : UInt64 := 0xC2B2AE3D27D4EB4F
def prime64C : UInt64 := 0x165667B19E3779F9
def prime64D : UInt64 := 0x85EBCA77C2B2AE63
def prime64E : UInt64 := 0x27D4EB2F165667C5
/-- The constant of the final scrambling. -/
def primeMixA : UInt64 := 0x165667919E3779F9
/-- The constant that mixes four to eight bytes. -/
def primeMixB : UInt64 := 0x9FB21C651E98DF25

/-- The fixed key of the digest. -/
def secret : Array UInt8 := #[
  0xb8, 0xfe, 0x6c, 0x39, 0x23, 0xa4, 0x4b, 0xbe, 0x7c, 0x01, 0x81, 0x2c, 0xf7, 0x21, 0xad, 0x1c,
  0xde, 0xd4, 0x6d, 0xe9, 0x83, 0x90, 0x97, 0xdb, 0x72, 0x40, 0xa4, 0xa4, 0xb7, 0xb3, 0x67, 0x1f,
  0xcb, 0x79, 0xe6, 0x4e, 0xcc, 0xc0, 0xe5, 0x78, 0x82, 0x5a, 0xd0, 0x7d, 0xcc, 0xff, 0x72, 0x21,
  0xb8, 0x08, 0x46, 0x74, 0xf7, 0x43, 0x24, 0x8e, 0xe0, 0x35, 0x90, 0xe6, 0x81, 0x3a, 0x26, 0x4c,
  0x3c, 0x28, 0x52, 0xbb, 0x91, 0xc3, 0x00, 0xcb, 0x88, 0xd0, 0x65, 0x8b, 0x1b, 0x53, 0x2e, 0xa3,
  0x71, 0x64, 0x48, 0x97, 0xa2, 0x0d, 0xf9, 0x4e, 0x38, 0x19, 0xef, 0x46, 0xa9, 0xde, 0xac, 0xd8,
  0xa8, 0xfa, 0x76, 0x3f, 0xe3, 0x9c, 0x34, 0x3f, 0xf9, 0xdc, 0xbb, 0xc7, 0xc7, 0x0b, 0x4f, 0x1d,
  0x8a, 0x51, 0xe0, 0x4b, 0xcd, 0xb4, 0x59, 0x31, 0xc8, 0x9f, 0x7e, 0xc9, 0xd9, 0x78, 0x73, 0x64,
  0xea, 0xc5, 0xac, 0x83, 0x34, 0xd3, 0xeb, 0xc3, 0xc5, 0x81, 0xa0, 0xff, 0xfa, 0x13, 0x63, 0xeb,
  0x17, 0x0d, 0xdd, 0x51, 0xb7, 0xf0, 0xda, 0x49, 0xd3, 0x16, 0x55, 0x26, 0x29, 0xd4, 0x68, 0x9e,
  0x2b, 0x16, 0xbe, 0x58, 0x7d, 0x47, 0xa1, 0xfc, 0x8f, 0xf8, 0xb8, 0xd1, 0x7a, 0xd0, 0x31, 0xce,
  0x45, 0xcb, 0x3a, 0x8f, 0x95, 0x16, 0x04, 0x28, 0xaf, 0xd7, 0xfb, 0xca, 0xbb, 0x4b, 0x40, 0x7e]

/-- The byte at an offset, zero past the end. -/
def byteAt (bytes : Array UInt8) (offset : Nat) : UInt64 := (bytes.getD offset 0).toUInt64

/-- The 32-bit word at an offset, least significant byte first. -/
def half (bytes : Array UInt8) (offset : Nat) : UInt64 :=
  byteAt bytes offset ||| byteAt bytes (offset + 1) <<< 8 ||| byteAt bytes (offset + 2) <<< 16 |||
    byteAt bytes (offset + 3) <<< 24

/-- The 64-bit word at an offset, least significant byte first. -/
def word (bytes : Array UInt8) (offset : Nat) : UInt64 :=
  half bytes offset ||| half bytes (offset + 4) <<< 32

def secretWord (offset : Nat) : UInt64 := word secret offset

/-- The bits of a word from a position on that a mask selects. -/
def field (value position mask : UInt64) : UInt64 := (value >>> position) &&& mask

/-- The low 32 bits of a word with their bytes reversed. -/
def reverseHalf (value : UInt64) : UInt64 :=
  field value 0 0xff <<< 24 ||| field value 8 0xff <<< 16 ||| field value 16 0xff <<< 8 |||
    field value 24 0xff

def reverseWord (value : UInt64) : UInt64 :=
  reverseHalf value <<< 32 ||| reverseHalf (value >>> 32)

/-- A 32-bit value rotated left by 13. -/
def rotateHalf (value : UInt64) : UInt64 := field (value <<< 13) 0 0xffffffff ||| value >>> 19

def product (left right : UInt64) : Wide :=
  let exact := left.toNat * right.toNat
  ⟨exact.toUInt64, (exact >>> 64).toUInt64⟩

/-- The two halves of the full product, combined. -/
def fold (left right : UInt64) : UInt64 :=
  let wide := product left right
  wide.low ^^^ wide.high

/-- The product of the low halves of two words. -/
def halfProduct (left right : UInt64) : UInt64 := field left 0 0xffffffff * field right 0 0xffffffff

/-- The final scrambling of inputs of up to three bytes. -/
def avalancheShort (value : UInt64) : UInt64 :=
  let value := (value ^^^ value >>> 33) * prime64B
  let value := (value ^^^ value >>> 29) * prime64C
  value ^^^ value >>> 32

/-- The final scrambling of longer inputs. -/
def avalanche (value : UInt64) : UInt64 :=
  let value := (value ^^^ value >>> 37) * primeMixA
  value ^^^ value >>> 32

/-- The digest of no bytes. -/
def ofNone : Wide :=
  ⟨avalancheShort (secretWord 64 ^^^ secretWord 72),
    avalancheShort (secretWord 80 ^^^ secretWord 88)⟩

def ofUpTo3 (input : Array UInt8) : Wide :=
  let size := input.size
  let low :=
    byteAt input 0 <<< 16 ||| byteAt input (size / 2) <<< 24 ||| byteAt input (size - 1) |||
    size.toUInt64 <<< 8
  let high := rotateHalf (reverseHalf low)
  ⟨avalancheShort (low ^^^ (half secret 0 ^^^ half secret 4)),
    avalancheShort (high ^^^ (half secret 8 ^^^ half secret 12))⟩

def ofUpTo8 (input : Array UInt8) : Wide :=
  let size := input.size
  let value := half input 0 + half input (size - 4) <<< 32
  let keyed := value ^^^ (secretWord 16 ^^^ secretWord 24)
  let mixed := product keyed (prime64A + size.toUInt64 <<< 2)
  let high := mixed.high + mixed.low <<< 1
  let low := mixed.low ^^^ high >>> 3
  let low := (low ^^^ low >>> 35) * primeMixB
  ⟨low ^^^ low >>> 28, avalanche high⟩

def ofUpTo16 (input : Array UInt8) : Wide :=
  let size := input.size
  let first := word input 0
  let last := word input (size - 8)
  let mixed := product (first ^^^ last ^^^ (secretWord 32 ^^^ secretWord 40)) prime64A
  let low := mixed.low + (size - 1).toUInt64 <<< 54
  let last := last ^^^ (secretWord 48 ^^^ secretWord 56)
  let high := mixed.high + (last + halfProduct last (prime32B - 1))
  let low := low ^^^ reverseWord high
  let final := product low prime64B
  ⟨avalanche final.low, avalanche (final.high + high * prime64B)⟩

def mix16 (input : Array UInt8) (offset keyOffset : Nat) : UInt64 :=
  fold (word input offset ^^^ secretWord keyOffset)
    (word input (offset + 8) ^^^ secretWord (keyOffset + 8))

/-- Mix two runs of 16 bytes into a state. -/
def mix32 (input : Array UInt8) (state : Wide) (left right keyOffset : Nat) : Wide :=
  ⟨(state.low + mix16 input left keyOffset) ^^^ (word input right + word input (right + 8)),
    (state.high + mix16 input right (keyOffset + 16)) ^^^ (word input left + word input (left + 8))⟩

/-- The digest that a state of a medium input stands for. -/
def finishMedium (size : Nat) (state : Wide) : Wide :=
  ⟨avalanche (state.low + state.high),
    0 - avalanche (state.low * prime64A + state.high * prime64D + size.toUInt64 * prime64B)⟩

/-- The digest of 17 to 128 bytes, taken from both ends inwards. -/
def ofUpTo128 (input : Array UInt8) : Wide :=
  let size := input.size
  let rounds := (size - 1) / 32
  finishMedium size <| (List.range (rounds + 1)).reverse.foldl
    (fun state round => mix32 input state (16 * round) (size - 16 * (round + 1)) (32 * round))
    ⟨size.toUInt64 * prime64A, 0⟩

/-- The digest of 129 to 240 bytes. -/
def ofUpTo240 (input : Array UInt8) : Wide :=
  let size := input.size
  let first := (List.range 4).foldl
    (fun state round => mix32 input state (32 * round) (32 * round + 16) (32 * round))
    ⟨size.toUInt64 * prime64A, 0⟩
  let rest := (List.range (size / 32 - 4)).foldl
    (fun state round => mix32 input state (32 * round + 128) (32 * round + 144) (32 * round + 3))
    ⟨avalanche first.low, avalanche first.high⟩
  finishMedium size (mix32 input rest (size - 16) (size - 32) 103)

/-- The eight words of running state of long inputs. -/
abbrev Lanes := Array UInt64

def initialLanes : Lanes :=
  #[prime32C, prime64A, prime64B, prime64C, prime64D, prime32B, prime64E, prime32A]

/-- Take one stripe of 64 bytes into the lanes. -/
def accumulate (input : Array UInt8) (lanes : Lanes) (offset keyOffset : Nat) : Lanes :=
  (List.range 8).foldl (fun lanes lane =>
    let value := word input (offset + 8 * lane)
    let keyed := value ^^^ secretWord (keyOffset + 8 * lane)
    let lanes := lanes.modify (lane ^^^ 1) (· + value)
    lanes.modify lane (· + halfProduct keyed (keyed >>> 32))) lanes

/-- Stir the lanes at the end of a block. -/
def scramble (lanes : Lanes) : Lanes :=
  lanes.mapIdx fun (lane : Nat) (value : UInt64) =>
    ((value ^^^ (value >>> 47)) ^^^ secretWord (128 + 8 * lane)) * prime32A

/-- Take consecutive stripes of a block into the lanes. -/
def accumulateBlock (input : Array UInt8) (lanes : Lanes) (offset stripes : Nat) : Lanes :=
  (List.range stripes).foldl
    (fun lanes stripe => accumulate input lanes (offset + 64 * stripe) (8 * stripe)) lanes

/-- Fold the lanes to one word. -/
def mergeLanes (lanes : Lanes) (keyOffset : Nat) (start : UInt64) : UInt64 :=
  avalanche <| (List.range 4).foldl (fun total pair =>
    total + fold (lanes.getD (2 * pair) 0 ^^^ secretWord (keyOffset + 16 * pair))
      (lanes.getD (2 * pair + 1) 0 ^^^ secretWord (keyOffset + 16 * pair + 8))) start

/-- The digest of more than 240 bytes. -/
def ofLong (input : Array UInt8) : Wide :=
  let size := input.size
  let blocks := (size - 1) / 1024
  let lanes := (List.range blocks).foldl
    (fun lanes block => scramble (accumulateBlock input lanes (1024 * block) 16)) initialLanes
  let lanes := accumulateBlock input lanes (1024 * blocks) ((size - 1 - 1024 * blocks) / 64)
  let lanes := accumulate input lanes (size - 64) 121
  ⟨mergeLanes lanes 11 (size.toUInt64 * prime64A),
    mergeLanes lanes 117 (~~~(size.toUInt64 * prime64B))⟩

def digest (bytes : Bytes) : Wide :=
  let input := bytes.toArray
  if input.size = 0 then ofNone
  else if input.size ≤ 3 then ofUpTo3 input
  else if input.size ≤ 8 then ofUpTo8 input
  else if input.size ≤ 16 then ofUpTo16 input
  else if input.size ≤ 128 then ofUpTo128 input
  else if input.size ≤ 240 then ofUpTo240 input
  else ofLong input

/-- The digest as 32 lowercase hexadecimal digits, high word first. -/
def hexDigest (bytes : Bytes) : String :=
  let wide := digest bytes
  Bytes.hex (Bytes.bigEndian 16 ((wide.high.toNat <<< 64) + wide.low.toNat))

end TextureCache.Digest.Xxh3
