import TextureCache.Deflate.Stream
import TextureCache.Png.Preamble

/-! The compressed pixels of a file: one stream that is cut into consecutive chunks of one kind. It
is read no further than the rows need, so that of two faults in a file the one counts that is met
first. -/
namespace TextureCache.Png

/-- Where a reader stands. -/
inductive Position where
  /-- In the body of a chunk, of which so many bytes are left. -/
  | body (left : Nat)
  /-- At the checksum of a chunk. -/
  | checksum
  /-- Behind the last chunk of the stream. -/
  | finished
  deriving DecidableEq, Repr

/-- A reader of the compressed pixels. -/
structure Source where
  kind : Kind
  position : Position
  /-- What the checksum of the current chunk says. -/
  integrity : Integrity
  rest : Bytes
  /-- The part of the file that was read. -/
  offset : Nat
  /-- The size of the whole file. -/
  size : Nat
  /-- The last number in the order of an animation. -/
  number : Nat
  stream : Deflate.Stream
  /-- The part of the output that was taken as rows. -/
  taken : Nat
  deriving DecidableEq, Repr

namespace Source

/-- The bytes of output that wait to be taken. -/
def waiting (source : Source) : Nat := source.stream.output.size - source.taken

def skip (source : Source) (count : Nat) : Source :=
  { source with rest := source.rest.drop count, offset := source.offset + count }

/-- Read the number before the data of a frame, which follows the last number. -/
def readNumber (source : Source) (length : Nat) : Except LoadError Source :=
  let field := source.rest.take 4
  if length < 4 then .error .corruptedData
  else if field.length < 4 then .error .dataTooShort
  else if Bytes.ofBigEndian field ≠ source.number + 1 then .error .corruptedData
  else .ok { source.skip 4 with number := source.number + 1, position := .body (length - 4) }

/-- Come to the end of the stream. -/
def finish (source : Source) : Except LoadError Source :=
  match source.stream.finish with
  | none => .error .corruptedData
  | some stream => .ok { source with stream, position := .finished }

/-- Begin the next chunk. The stream ends before a chunk of another kind. -/
def beginChunk (source : Source) : Except LoadError Source :=
  match Chunk.read? source.rest with
  | none => .error .dataTooShort
  | some chunk =>
    if chunk.kind ≠ source.kind then source.finish
    else
      let source := { source.skip 8 with
        integrity := chunk.integrity, position := .body chunk.length }
      if chunk.kind = Kind.frameData then source.readNumber chunk.length else .ok source

/-- End a chunk; damage to data of a frame does not count. -/
def endChunk (source : Source) : Except LoadError Source :=
  match source.integrity with
  | .cut => .error .dataTooShort
  | .damaged =>
    if Kind.isCritical source.kind then .error .corruptedData else (source.skip 4).beginChunk
  | .sound => (source.skip 4).beginChunk

/-- The file is read in pieces of 32 KiB. -/
def pieceSize : Nat := 32768

/-- Decompress what is left of a chunk, at most up to the end of the current piece of the file. -/
def decompress (source : Source) (left : Nat) : Except LoadError Source :=
  if source.rest.isEmpty then .error .dataTooShort
  else
    let piece := source.rest.take (min left (pieceSize - source.offset % pieceSize))
    match source.stream.feed piece with
    | none => .error .corruptedData
    | some (stream, count) =>
      let position := if count = left then .checksum else .body (left - count)
      .ok { source.skip count with stream, position }

def advance (source : Source) : Except LoadError Source :=
  match source.position with
  | .body left => source.decompress left
  | .checksum => source.endChunk
  | .finished => .ok source

/-- Go on until `size` bytes wait to be taken, or to the end of the stream. -/
def reachWithin (size : Nat) : (fuel : Nat) → Source → Except LoadError Source
  | 0, _ => .error .dataTooShort
  | fuel + 1, source =>
    if size ≤ source.waiting ∨ source.position = .finished then .ok source
    else do reachWithin size fuel (← source.advance)

/-- A bound on the steps to the end of the stream: nearly all of them pass a byte, and the others
follow a step that does. -/
def stepsLeft (source : Source) : Nat := 2 * (source.size - source.offset) + 4

def take (source : Source) (size : Nat) : Except LoadError (Array UInt8 × Source) := do
  let source ← source.reachWithin size source.stepsLeft
  if source.waiting < size then .error .corruptedData
  else
    let stop := source.taken + size
    .ok (source.stream.output.extract source.taken stop, { source with taken := stop })

/-- Go on to the end of the stream. -/
def drainWithin : (fuel : Nat) → Source → Except LoadError Source
  | 0, _ => .error .dataTooShort
  | fuel + 1, source =>
    if source.position = .finished then .ok source
    else do drainWithin fuel (← source.advance)

/-- Go on to the end of the stream, whose faults count even if nothing more is taken. -/
def drain (source : Source) : Except LoadError Source := source.drainWithin source.stepsLeft

/-- Begin with the first chunk of pixels in a file, at which `data` starts. -/
def start (preamble : Preamble) (file data : Bytes) : Except LoadError Source :=
  beginChunk {
    kind := data.slice 4 4
    position := .checksum
    integrity := .sound
    rest := data
    offset := file.length - data.length
    size := file.length
    number := (preamble.frame.map Frame.number).getD 0
    stream := .start preamble.expectedSize
    taken := 0 }

end Source
end TextureCache.Png
