import TextureCache.Png.Source

/-! The rows of a PNG image. A row is stored as its difference from a prediction; interlaced
images store seven reduced images one after the other. -/
namespace TextureCache.Png

/-- How a byte is predicted from its neighbours. -/
inductive Filter where
  | none
  | left
  | above
  | average
  | nearest
  deriving DecidableEq, Repr

namespace Filter

def ofNumber? : Nat → Option Filter
  | 0 => some none
  | 1 => some left
  | 2 => some above
  | 3 => some average
  | 4 => some nearest
  | _ => Option.none

/-- The neighbour that is nearest to left plus above minus corner; on a tie the first of them. -/
def nearestOf (left above corner : Int) : Int :=
  let estimate := left + above - corner
  let distance (neighbour : Int) : Nat := (estimate - neighbour).natAbs
  if distance left ≤ distance above ∧ distance left ≤ distance corner then left
  else if distance above ≤ distance corner then above
  else corner

/-- The prediction for a byte with the given neighbours. -/
def predict (filter : Filter) (left above corner : UInt8) : UInt8 :=
  match filter with
  | .none => 0
  | .left => left
  | .above => above
  | .average => UInt8.ofNat ((left.toNat + above.toNat) / 2)
  | .nearest => UInt8.ofNat (nearestOf left.toNat above.toNat corner.toNat).toNat

/-- The bytes of a stored row; bytes before the first column and above the first row are zero. -/
def undo (filter : Filter) (distance : Nat) (above stored : Array UInt8) : Array UInt8 :=
  stored.foldl (fun row byte =>
    let index := row.size
    let before (bytes : Array UInt8) : UInt8 :=
      if distance ≤ index then bytes.getD (index - distance) 0 else 0
    row.push (byte + filter.predict (before row) (above.getD index 0) (before above))) #[]

end Filter

/-- A reduced image: the pixels at a grid of positions. -/
structure Pass where
  left : Nat
  top : Nat
  across : Nat
  down : Nat
  deriving DecidableEq, Repr

namespace Pass

def whole : Pass := ⟨0, 0, 1, 1⟩

/-- The seven passes of an interlaced image. -/
def interlaced : List Pass :=
  [⟨0, 0, 8, 8⟩, ⟨4, 0, 8, 8⟩, ⟨0, 4, 4, 8⟩, ⟨2, 0, 4, 4⟩, ⟨0, 2, 2, 4⟩, ⟨1, 0, 2, 2⟩, ⟨0, 1, 1, 2⟩]

def columns (pass : Pass) (width : Nat) : Nat := (width + pass.across - 1 - pass.left) / pass.across

def rows (pass : Pass) (height : Nat) : Nat := (height + pass.down - 1 - pass.top) / pass.down

def covers (pass : Pass) (column row : Nat) : Bool :=
  pass.left ≤ column && (column - pass.left) % pass.across = 0 &&
    pass.top ≤ row && (row - pass.top) % pass.down = 0

end Pass

def Header.passes (header : Header) : List Pass :=
  if header.interlaced then Pass.interlaced else [Pass.whole]

/-- What keeps samples from being looked up. A palette is a list of at most 256 colours; a reader
that is handed anything else breaks off. -/
def Preamble.paletteFault? (preamble : Preamble) : Option ReadFault :=
  match preamble.header.color, preamble.palette with
  | .indexed, none => some (.refused .corruptedData)
  | .indexed, some palette =>
    if palette.length % 3 = 0 ∧ palette.length ≤ 768 then none else some .broken
  | _, _ => none

/-- Take one row of `size` bytes behind its filter. -/
def Source.takeRow (source : Source) (distance size : Nat) (above : Array UInt8) :
    Except LoadError (Array UInt8 × Source) := do
  let (stored, source) ← source.take (size + 1)
  match Filter.ofNumber? (stored.getD 0 0).toNat with
  | none => .error .corruptedData
  | some filter => .ok (filter.undo distance above (stored.extract 1 (size + 1)), source)

abbrev Rows := Array (Array UInt8)

namespace Preamble

/-- Take `count` rows of `size` bytes after those of a pass that were taken before. -/
def readRows (preamble : Preamble) (size : Nat) :
    (count : Nat) → Rows → Source → Except ReadFault (Rows × Source)
  | 0, rows, source => .ok (rows, source)
  | count + 1, rows, source => do
    let (row, source) ←
      (source.takeRow preamble.header.filterDistance size (rows.back?.getD #[])).mapError .refused
    match preamble.paletteFault? with
    | none => preamble.readRows size count (rows.push row) source
    | some fault => .error fault

/-- Take the rows of a pass; a pass without pixels has no rows. -/
def readPass (preamble : Preamble) (pass : Pass) (source : Source) :
    Except ReadFault (Rows × Source) :=
  let (width, height) := preamble.extents
  let columns := pass.columns width
  let count := if columns = 0 then 0 else pass.rows height
  preamble.readRows (preamble.header.rowSize columns) count #[] source

def readPasses (preamble : Preamble) :
    List Pass → Source → Except ReadFault (List Rows × Source)
  | [], source => .ok ([], source)
  | pass :: passes, source => do
    let (rows, source) ← preamble.readPass pass source
    let (rest, source) ← preamble.readPasses passes source
    .ok (rows :: rest, source)

/-- Read all rows of a file, and the stream to its end. -/
def readImage (preamble : Preamble) (file data : Bytes) : Except ReadFault (List Rows) := do
  let rowSize := preamble.header.expandedRowSize preamble.transparency.isSome
  if bufferLimit < rowSize * preamble.header.height.toNat ∨ ¬ preamble.hasImage then
    .error (.refused .corruptedData)
  else
    let source ← (Source.start preamble file data).mapError .refused
    let (rows, source) ← preamble.readPasses preamble.header.passes source
    let _finished ← source.drain.mapError ReadFault.refused
    .ok rows

end Preamble
end TextureCache.Png
