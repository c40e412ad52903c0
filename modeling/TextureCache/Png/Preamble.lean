import TextureCache.Png.Header

/-! What the chunks before the pixels say: the palette, the transparent colour and the first frame
of an animation. The pixels begin with the first chunk of image or frame data. -/
namespace TextureCache.Png

/-- The part of an image that a frame covers, and its number among the chunks of the animation. -/
structure Frame where
  number : Nat
  width : Nat
  height : Nat
  deriving DecidableEq, Repr

/-- Read the body of a frame chunk: number, width, height, left, top, and four bytes more besides
the way in which the frame is removed and drawn. Frames lie within the image. -/
def Frame.ofBytes? (header : Header) (previous : Option Frame) (body : Bytes) : Option Frame := do
  let word (position : Nat) : Nat := Bytes.ofBigEndian (body.slice position 4)
  let frame : Frame := ⟨word 0, word 4, word 8⟩
  guard (26 ≤ body.length ∧ frame.number = ((previous.map (·.number + 1)).getD 0))
  guard (body.getD 24 0 ≤ 2 ∧ body.getD 25 0 ≤ 1 ∧ frame.width ≠ 0 ∧ frame.height ≠ 0)
  guard (word 12 + frame.width ≤ header.width.toNat ∧
    word 16 + frame.height ≤ header.height.toNat)
  some frame

/-- What the chunks before the pixels say. -/
structure Preamble where
  header : Header
  palette : Option Bytes
  transparency : Option Bytes
  /-- The number of frames that an animation announces. -/
  announced : Option Nat
  /-- The frame that was described last. -/
  frame : Option Frame
  /-- The kinds that may not come again. -/
  seen : List Kind
  deriving DecidableEq, Repr

/-- The body of a chunk, if it has one. A body is looked at only when the file goes on behind it. -/
def Chunk.content? (chunk : Chunk) : Except LoadError (Option Bytes) :=
  if chunk.length = 0 then .ok none
  else if chunk.checksum.isEmpty then .error .dataTooShort
  else .ok (some chunk.body)

/-- Pass a chunk: damage to one that is not critical does not count. -/
def Chunk.verify (chunk : Chunk) : Except LoadError Unit :=
  match chunk.integrity with
  | .sound => .ok ()
  | .damaged => if Kind.isCritical chunk.kind then .error .corruptedHeader else .ok ()
  | .cut => .error .dataTooShort

namespace Preamble

/-- The extents of the stored image: those of the frame, if there is one. -/
def extents (preamble : Preamble) : Nat × Nat :=
  match preamble.frame with
  | none => (preamble.header.width.toNat, preamble.header.height.toNat)
  | some frame => (frame.width, frame.height)

/-- The most bytes that the rows are expected to take. For an interlaced image this is twice the
size without interlacing, and for a frame nothing is expected. -/
def expectedSize (preamble : Preamble) : Option Nat :=
  let header := preamble.header
  let rows := header.height.toNat * (1 + header.rowSize header.width.toNat)
  if preamble.frame.isSome then none
  else some (if header.interlaced then 2 * rows else rows)

/-- There is an image to read: an animation without frames has none, unless its image comes before
the description of a frame. -/
def hasImage (preamble : Preamble) : Bool := preamble.announced ≠ some 0 || preamble.frame.isNone

/-- The transparent colour fits the pixels; palette entries have to come before their alphas. -/
def acceptsTransparency (preamble : Preamble) (body : Bytes) : Bool :=
  match preamble.header.color with
  | .gray => 2 ≤ body.length
  | .rgb => 6 ≤ body.length
  | .indexed => preamble.palette.isSome
  | .grayAlpha | .rgba => false

/-- The body of a chunk that is checked but not used is long enough and in range. -/
def acceptsNote (kind : Kind) (body : Bytes) : Bool :=
  if kind = Kind.gamma then 4 ≤ body.length
  else if kind = Kind.chromaticities then 32 ≤ body.length
  else if kind = Kind.physicalSize then 9 ≤ body.length && body.getD 8 0 ≤ 1
  else 1 ≤ body.length && body.getD 0 0 ≤ 3

/-- The kinds that are checked but not used and may come once. -/
def notes : List Kind := [.gamma, .chromaticities, .physicalSize, .renderingIntent]

/-- Take in the body of a chunk after the header; a chunk of another kind says nothing. -/
def add? (preamble : Preamble) (kind : Kind) (body : Bytes) : Option Preamble :=
  let marked := { preamble with seen := kind :: preamble.seen }
  if kind ∈ preamble.seen then none
  else if kind = Kind.palette then some { marked with palette := some body }
  else if kind = Kind.transparency then
    if preamble.acceptsTransparency body then some { marked with transparency := some body }
    else none
  else if kind ∈ notes then if acceptsNote kind body then some marked else none
  else if kind = Kind.animationControl then
    if 8 ≤ body.length then
      some { preamble with announced := some (Bytes.ofBigEndian (body.take 4)) }
    else none
  else if kind = Kind.frameControl then
    (Frame.ofBytes? preamble.header preamble.frame body).map fun frame =>
      { preamble with frame := some frame }
  else some preamble

/-- Take in a chunk after the header. Its body counts before its checksum is looked at. -/
def addChunk (preamble : Preamble) (chunk : Chunk) : Except LoadError Preamble := do
  let preamble ← match ← chunk.content? with
    | none => pure preamble
    | some body =>
      match preamble.add? chunk.kind body with
      | none => .error .corruptedHeader
      | some preamble => pure preamble
  chunk.verify
  if chunk.kind = Kind.fileEnd then .error .corruptedHeader else .ok preamble

/-- Read chunks up to the first one with pixels, which the rest starts with. Data of a frame come
after the frame and begin with four bytes of their own. -/
def readChunks : (fuel : Nat) → Preamble → Bytes → Except LoadError (Preamble × Bytes)
  | 0, _, _ => .error .dataTooShort
  | fuel + 1, preamble, file =>
    match Chunk.read? file with
    | none => .error .dataTooShort
    | some chunk =>
      if chunk.kind = Kind.imageData then .ok (preamble, file)
      else if chunk.kind = Kind.frameData then
        if preamble.frame.isSome ∧ 4 ≤ chunk.length then .ok (preamble, file)
        else .error .corruptedHeader
      else do readChunks fuel (← preamble.addChunk chunk) chunk.rest

/-- Read the header, which is the first chunk with a body and comes before any other kind. -/
def readHeader : (fuel : Nat) → Bytes → Except LoadError (Header × Bytes)
  | 0, _ => .error .dataTooShort
  | fuel + 1, file =>
    match Chunk.read? file with
    | none => .error .dataTooShort
    | some chunk =>
      if chunk.kind ≠ Kind.header then .error .corruptedHeader
      else do
        match ← chunk.content? with
        | none =>
          chunk.verify
          readHeader fuel chunk.rest
        | some body =>
          match Header.ofBytes? body with
          | none => .error .corruptedHeader
          | some header =>
            chunk.verify
            .ok (header, chunk.rest)

def readSignature (file : Bytes) : Except LoadError Bytes :=
  if file.length < 4 then .error .dataTooShort
  else if file.take 4 ≠ signature.take 4 then .error .corruptedHeader
  else if file.length < 8 then .error .dataTooShort
  else if file.take 8 ≠ signature then .error .corruptedHeader
  else .ok (file.drop 8)

/-- Read a file up to its pixels. -/
def read (file : Bytes) : Except LoadError (Preamble × Bytes) := do
  let (header, rest) ← readHeader file.length (← readSignature file)
  readChunks file.length ⟨header, none, none, none, none, [Kind.header]⟩ rest

end Preamble
end TextureCache.Png
