import TextureCache.Deflate.BitBuffer
import TextureCache.Deflate.PrefixCode

/-! Decompression of a zlib stream that comes in pieces: a header of two bytes, blocks that are
stored or coded, and a checksum, which is skipped. A machine takes one step per symbol. It waits
where a piece ends, and where its output has no room. -/
namespace TextureCache.Deflate

/-- What a stream goes on with. -/
inductive Phase where
  | header
  | block
  /-- The lengths of the code for code lengths, of which a block lists the first few. -/
  | orderLengths (literals distances listed : Nat)
  /-- The lengths of the codes of a block, with those that are known. -/
  | codeLengths (literals distances : Nat) (code : PrefixCode) (known : Array Nat)
  | symbols (literals distances : PrefixCode)
  /-- Bytes of a stored block. -/
  | stored (left : Nat)
  | checksum
  | done
  deriving DecidableEq, Repr

/-- Output that is due but did not fit. -/
inductive Pending where
  | nothing
  | literal (byte : UInt8)
  /-- Bytes of a repetition. -/
  | copy (distance count : Nat)
  deriving DecidableEq, Repr

/-- A stream that was read in part, and what it was decompressed to. -/
structure Inflater where
  bits : BitBuffer
  phase : Phase
  /-- No block follows the current one. -/
  isLast : Bool
  pending : Pending
  output : Array UInt8
  deriving DecidableEq, Repr

/-- What a step comes to. -/
inductive Step where
  | moved (inflater : Inflater)
  /-- The next step takes more input or more room. -/
  | waiting (inflater : Inflater)
  | damaged
  deriving DecidableEq, Repr

/-- The shortest match of each length symbol and the number of bits added to it. -/
def lengthSteps : Array (Nat × Nat) := #[
  (3, 0), (4, 0), (5, 0), (6, 0), (7, 0), (8, 0), (9, 0), (10, 0),
  (11, 1), (13, 1), (15, 1), (17, 1), (19, 2), (23, 2), (27, 2), (31, 2),
  (35, 3), (43, 3), (51, 3), (59, 3), (67, 4), (83, 4), (99, 4), (115, 4),
  (131, 5), (163, 5), (195, 5), (227, 5), (258, 0)]

/-- The nearest distance of each distance symbol and the number of bits added to it. -/
def distanceSteps : Array (Nat × Nat) := #[
  (1, 0), (2, 0), (3, 0), (4, 0), (5, 1), (7, 1), (9, 2), (13, 2), (17, 3), (25, 3),
  (33, 4), (49, 4), (65, 5), (97, 5), (129, 6), (193, 6), (257, 7), (385, 7), (513, 8), (769, 8),
  (1025, 9), (1537, 9), (2049, 10), (3073, 10), (4097, 11), (6145, 11), (8193, 12), (12289, 12),
  (16385, 13), (24577, 13)]

/-- The literal code of blocks that bring no codes of their own. -/
def fixedLiterals : PrefixCode :=
  .ofLengths (List.replicate 144 8 ++ List.replicate 112 9 ++ List.replicate 24 7 ++
    List.replicate 8 8)

/-- The distance code of blocks that bring no codes of their own. -/
def fixedDistances : PrefixCode := .ofLengths (List.replicate 32 5)

/-- The symbols of the code for code lengths, in the order in which their lengths are listed. -/
def lengthOrder : List Nat := [16, 17, 18, 0, 8, 7, 9, 6, 10, 5, 11, 4, 12, 3, 13, 2, 14, 1, 15]

/-- The least count of a symbol that repeats a code length, and the number of bits added to it. -/
def repeatStep? : Nat → Option (Nat × Nat)
  | 16 => some (3, 2)
  | 17 => some (3, 3)
  | 18 => some (11, 7)
  | _ => none

/-- The symbol that ends a block. -/
def endMark : Nat := 256

/-- A header names the method and a window of at most 32 KiB, asks for no dictionary, and is a
multiple of 31. -/
def isHeader (method flags : Nat) : Bool :=
  method % 16 = 8 && method / 16 ≤ 7 && bitField flags 5 1 = 0 && (method * 256 + flags) % 31 = 0

/-- A distance code may be empty or hold one code of one bit; any other has to be complete. -/
def isDistanceCode (code : PrefixCode) : Bool :=
  code.counts = [] || code.counts = [1] || code.isComplete

/-- The codes that listed lengths make up: that of literals, which has an end mark, and that of
distances. -/
def codesOf? (literals : Nat) (lengths : List Nat) : Option (PrefixCode × PrefixCode) :=
  let literalCode := PrefixCode.ofLengths (lengths.take literals)
  let distanceCode := PrefixCode.ofLengths (lengths.drop literals)
  if lengths.getD endMark 0 ≠ 0 ∧ literalCode.isComplete ∧ isDistanceCode distanceCode then
    some (literalCode, distanceCode)
  else none

/-- Append to an output `count` times its last byte but `distance`. -/
def copyBack (distance : Nat) : (count : Nat) → Array UInt8 → Array UInt8
  | 0, output => output
  | count + 1, output =>
    copyBack distance count (output.push (output.getD (output.size - distance) 0))

/-- The next numbers of three bits. -/
def takeTriples : (count : Nat) → BitBuffer → List Nat × BitBuffer
  | 0, bits => ([], bits)
  | count + 1, bits =>
    let bits := bits.fill
    let (rest, left) := takeTriples count (bits.drop 3)
    (bits.field 0 3 :: rest, left)

namespace Inflater

def start : Inflater := ⟨.empty, .header, false, .nothing, #[]⟩

/-- Take a step if enough bits are there. The step is worked out only then. -/
@[macro_inline] def need (inflater : Inflater) (count : Nat) (next : Step) : Step :=
  if inflater.bits.count < count then .waiting inflater else next

/-- Take bits and go on with a phase. -/
def enter (inflater : Inflater) (count : Nat) (phase : Phase) : Inflater :=
  { inflater with bits := inflater.bits.drop count, phase }

def afterBlock (inflater : Inflater) : Phase := if inflater.isLast then .checksum else .block

def readHeader (inflater : Inflater) : Step :=
  inflater.need 16 <|
  if isHeader (inflater.bits.field 0 8) (inflater.bits.field 8 8) then
    .moved (inflater.enter 16 .block)
  else .damaged

/-- Read the start of a block. A stored block begins at a whole byte and gives its length twice, the
second time inverted. -/
def readBlock (inflater : Inflater) : Step :=
  inflater.need 10 <|
  let bits := inflater.bits
  let inflater := { inflater with isLast := bits.field 0 1 = 1 }
  match bits.field 1 2 with
  | 0 =>
    let start := 3 + (bits.count - 3) % 8
    inflater.need (start + 32) <|
    let length := bits.field start 16
    if length + bits.field (start + 16) 16 = 0xffff then
      .moved (inflater.enter (start + 32) (.stored length))
    else .damaged
  | 1 => .moved (inflater.enter 3 (.symbols fixedLiterals fixedDistances))
  | 2 =>
    inflater.need 17 <|
    let literals := bits.field 3 5 + 257
    let distances := bits.field 8 5 + 1
    if literals ≤ 286 ∧ distances ≤ 30 then
      .moved (inflater.enter 17 (.orderLengths literals distances (bits.field 13 4 + 4)))
    else .damaged
  | _ => .damaged

def readOrderLengths (inflater : Inflater) (literals distances listed : Nat) : Step :=
  if inflater.bits.available < 3 * listed then .waiting inflater
  else
    let (lengths, bits) := takeTriples listed inflater.bits
    let named := lengthOrder.zip lengths
    let code := PrefixCode.ofLengths
      ((List.range 19).map fun symbol => (named.lookup symbol).getD 0)
    if code.isComplete then
      .moved { inflater with bits, phase := .codeLengths literals distances code #[] }
    else .damaged

/-- Go on with some known code lengths, or with the symbols once all lengths are known. -/
def addLengths (inflater : Inflater) (literals distances : Nat) (code : PrefixCode)
    (taken : Nat) (known : Array Nat) : Step :=
  if known.size < literals + distances then
    .moved (inflater.enter taken (.codeLengths literals distances code known))
  else if known.size = literals + distances then
    match codesOf? literals known.toList with
    | none => .damaged
    | some (literalCode, distanceCode) =>
      .moved (inflater.enter taken (.symbols literalCode distanceCode))
  else .damaged

def readCodeLength (inflater : Inflater) (literals distances : Nat) (code : PrefixCode)
    (known : Array Nat) : Step :=
  inflater.need 7 <|
  match code.find? inflater.bits.value with
  | none => .damaged
  | some word =>
    match repeatStep? word.symbol with
    | none => inflater.addLengths literals distances code word.length (known.push word.symbol)
    | some (least, extra) =>
      inflater.need (word.length + extra) <|
      let count := least + inflater.bits.field word.length extra
      match if word.symbol = 16 then known.back? else some 0 with
      | none => .damaged
      | some length =>
        inflater.addLengths literals distances code (word.length + extra)
          (known ++ List.replicate count length)

/-- Write a literal. A second one that fits into twelve bits with the first is read along with it,
even if there is no room for it yet. -/
def readLiterals (inflater : Inflater) (literals : PrefixCode) (limit : Nat) (word : CodeWord) :
    Step :=
  let first := UInt8.ofNat word.symbol
  let next := (literals.find? (inflater.bits.value >>> word.length)).filter fun next =>
    next.symbol < endMark ∧ 2 ≤ next.length ∧ word.length + next.length ≤ 12
  match next with
  | none =>
    inflater.need word.length <| .moved { inflater with
      bits := inflater.bits.drop word.length, output := inflater.output.push first }
  | some next =>
    let length := word.length + next.length
    let second := UInt8.ofNat next.symbol
    inflater.need length <|
    if inflater.output.size + 1 < limit then
      .moved { inflater with
        bits := inflater.bits.drop length, output := (inflater.output.push first).push second }
    else
      .moved { inflater with
        bits := inflater.bits.drop length, pending := .literal second,
        output := inflater.output.push first }

/-- Write as much of a repetition as there is room for. -/
def copy (inflater : Inflater) (limit distance count : Nat) : Inflater :=
  let copied := min count (limit - inflater.output.size)
  { inflater with
    pending := if copied < count then .copy distance (count - copied) else .nothing
    output := copyBack distance copied inflater.output }

/-- Repeat earlier output. A distance without a code is only noticed when ten bits of it are
there. -/
def readMatch (inflater : Inflater) (distances : PrefixCode) (limit : Nat) (word : CodeWord) :
    Step :=
  let (base, extra) := lengthSteps.getD (word.symbol - 257) (0, 0)
  let count := base + inflater.bits.field word.length extra
  let start := word.length + extra
  let near := (distances.find? (inflater.bits.value >>> start)).filter (·.symbol < 30)
  match near with
  | none => inflater.need (start + 10) .damaged
  | some near =>
    let (base, extra) := distanceSteps.getD near.symbol (0, 0)
    let distance := base + inflater.bits.field (start + near.length) extra
    let taken := start + near.length + extra
    inflater.need taken <|
    if inflater.output.size < distance then .damaged
    else .moved ({ inflater with bits := inflater.bits.drop taken }.copy limit distance count)

/-- Read one symbol of a coded block. Without room for output, only an end mark among fifteen bits
is read. Symbols behind the lengths end a block as well. -/
def readSymbol (inflater : Inflater) (literals distances : PrefixCode) (limit : Nat) : Step :=
  match literals.find? inflater.bits.value with
  | none => .damaged
  | some word =>
    if limit ≤ inflater.output.size then
      if word.symbol = endMark ∧ 15 ≤ inflater.bits.count then
        .moved (inflater.enter word.length inflater.afterBlock)
      else .waiting inflater
    else if word.symbol < endMark then inflater.readLiterals literals limit word
    else if word.symbol = endMark ∨ 285 < word.symbol then
      inflater.need word.length <| .moved (inflater.enter word.length inflater.afterBlock)
    else inflater.readMatch distances limit word

def copyStored (inflater : Inflater) (limit left : Nat) : Step :=
  let (bytes, bits) := inflater.bits.takeBytes (min left (limit - inflater.output.size))
  let left := left - bytes.length
  let phase := if left = 0 then inflater.afterBlock else .stored left
  let inflater := { inflater with bits, phase, output := inflater.output ++ bytes }
  if left = 0 then .moved inflater else .waiting inflater

/-- Skip the checksum, which begins at a whole byte. -/
def skipChecksum (inflater : Inflater) : Step :=
  let size := inflater.bits.count % 8 + 32
  inflater.need size <| .moved (inflater.enter size .done)

def readPhase (inflater : Inflater) (limit : Nat) : Step :=
  let filled := { inflater with bits := inflater.bits.fill }
  match inflater.phase with
  | .header => filled.readHeader
  | .block => filled.readBlock
  | .orderLengths literals distances listed => filled.readOrderLengths literals distances listed
  | .codeLengths literals distances code known =>
    filled.readCodeLength literals distances code known
  | .symbols literals distances => filled.readSymbol literals distances limit
  | .stored left => inflater.copyStored limit left
  | .checksum => filled.skipChecksum
  | .done => .waiting inflater

/-- Take one step; the output may grow up to `limit` bytes. What is due is written first. -/
def step (inflater : Inflater) (limit : Nat) : Step :=
  match inflater.pending with
  | .nothing => inflater.readPhase limit
  | .literal byte =>
    if inflater.output.size < limit then
      .moved { inflater with pending := .nothing, output := inflater.output.push byte }
    else .waiting inflater
  | .copy distance count =>
    let room := limit - inflater.output.size
    let inflater := inflater.copy limit distance count
    if room < count then .waiting inflater else .moved inflater

/-- Take steps until one has to wait; none if the stream is damaged. -/
def run (limit : Nat) : (fuel : Nat) → Inflater → Option Inflater
  | 0, inflater => some inflater
  | fuel + 1, inflater =>
    match inflater.step limit with
    | .moved next => run limit fuel next
    | .waiting here => some here
    | .damaged => none

/-- Decompress a piece of input into at most `room` bytes. Every other step takes a bit at least. -/
def read (inflater : Inflater) (input : Bytes) (room : Nat) : Option Inflater :=
  let inflater := { inflater with bits := { inflater.bits with input } }
  inflater.run (inflater.output.size + room) (2 * inflater.bits.available + 4)

end Inflater
end TextureCache.Deflate
