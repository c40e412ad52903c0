import TextureCache.Buffer
import TextureCache.FileName
import TextureCache.FileSystem.Basic
import TextureCache.Failure
import TextureCache.Png.File

/-! Looking for the slices of a texture in a list of directories, one PNG file per slice. The
extents of the first slice decide those of all others, and the pixels of all slices go into one
buffer. The search ends at the first slice that is of no use, and what it has found by then makes up
the replacement. -/
namespace TextureCache

/-- What an import sees: which paths lead to files, and what reading them gives. -/
structure FileView where
  isFile : Path → Bool
  read : Path → Except FileFault Bytes

namespace FileView

def ofFiles (files : FileSystem) : FileView := ⟨files.isFile, files.read⟩

/-- The first file of a name. Only this one counts, even if it turns out to be of no use. -/
def firstMatch? (view : FileView) (directories : List Path) (name : String) : Option Path :=
  (directories.map (·.join name)).find? view.isFile

end FileView

/-- A replacement: its outer form, the layout of its texels, and the texels, level by level. -/
structure ImportedTexture where
  width : UInt32
  height : UInt32
  depthOrLayers : UInt32
  levels : UInt32
  format : FormatInfo
  data : Bytes
  deriving DecidableEq, Repr

/-- Why a search breaks off. -/
inductive Breakdown where
  /-- A buffer would be larger than any can be. -/
  | capacity
  /-- A range reaches past the end of a buffer. -/
  | range
  /-- The reader of a file breaks off. -/
  | reader
  deriving DecidableEq, Repr

inductive ImportOutcome where
  | nothing
  | replaced (texture : ImportedTexture)
  | broken (cause : Breakdown)
  deriving DecidableEq, Repr

/-- How far a search for slices has come. -/
structure PngScan where
  /-- The extents of the first slice. -/
  base : Option (UInt32 × UInt32)
  /-- Room for the pixels of all slices, made when the extents are known. -/
  buffer : Buffer
  /-- The bytes of the buffer that are filled. -/
  written : Nat
  /-- The slices of the top level that are taken. -/
  baseSlices : UInt32
  completeLevels : UInt32
  /-- The bytes of the complete levels. -/
  completeSize : Nat
  examined : List String
  lines : List LogLine
  deriving DecidableEq, Repr

/-- How a search goes on after a slice. -/
inductive ScanTurn where
  | onward
  | stop
  | broken (cause : Breakdown)
  deriving DecidableEq, Repr

namespace PngScan

def start : PngScan := ⟨none, .zeros 0, 0, 0, 0, 0, [], []⟩

def report (scan : PngScan) (lines : List LogLine) : PngScan :=
  { scan with lines := scan.lines ++ lines }

/-- The line for a slice of the wrong extents. -/
def extentLine (name : String) (info : ImageInfo) (width height : Nat) : LogLine where
  severity := .warning
  message := "[ImportScanner::import_png] \"" ++ name ++ "\" is " ++ toString info.width ++ "x" ++
    toString info.height ++ ", expected " ++ toString width ++ "x" ++ toString height

/-- The extents of the first slice. If there was none yet, this one is it, and the buffer for all
slices of its size is made, unless no buffer can be as large. -/
def settle? (scan : PngScan) (shape : Shape) (info : ImageInfo) :
    Option (PngScan × (UInt32 × UInt32)) :=
  match scan.base with
  | some base => some (scan, base)
  | none =>
    let size := (shape.resized info.width info.height).bufferSize
    -- a size past machine words is not made either: adding it up overflows
    if bufferLimit < size then none
    else
      let base := (info.width, info.height)
      some ({ scan with base := some base, buffer := .zeros size }, base)

/-- Count a slice whose pixels are in the buffer. -/
def count (scan : PngScan) (shape : Shape) (level index : Nat) : PngScan :=
  let last : Bool := index + 1 = shape.slicesAt level
  { scan with
    baseSlices := if level = 0 then UInt32.ofNat (index + 1) else scan.baseSlices
    completeLevels := if last then scan.completeLevels + 1 else scan.completeLevels
    completeSize := if last then scan.written else scan.completeSize }

/-- Put the pixels of a slice of `size` bytes behind those that are in the buffer. -/
def addPixels (scan : PngScan) (shape : Shape) (level index size : Nat) (path : Path)
    (file : Bytes) : PngScan × ScanTurn :=
  match scan.buffer.slice? scan.written size with
  | none => (scan, .broken .range)
  | some target =>
    match Png.loadData file target with
    | .error (.refused error) => (scan.report (Failure.load path error).logLines, .stop)
    | .error .broken => (scan, .broken .reader)
    | .ok pixels =>
      match scan.buffer.overwrite? scan.written pixels with
      | none => (scan, .broken .range)
      | some buffer =>
        let scan := { scan with buffer, written := scan.written + size }
        (scan.count shape level index, .onward)

def addFile (scan : PngScan) (shape : Shape) (level index : Nat) (name : String) (path : Path)
    (file : Bytes) : PngScan × ScanTurn :=
  match Png.loadHeader file with
  | .error error => (scan.report (Failure.load path error).logLines, .stop)
  | .ok info =>
    match scan.settle? shape info with
    | none => (scan, .broken .capacity)
    | some (scan, base) =>
      let width := mipExtent base.1.toNat level
      let height := mipExtent base.2.toNat level
      if info.width.toNat = width ∧ info.height.toNat = height then
        scan.addPixels shape level index (rgba8SliceSize width height) path file
      else (scan.report [extentLine name info width height], .stop)

/-- What makes up the replacement: all complete levels, or else the slices that the top
level has. -/
def found (scan : PngScan) (space : ColorSpace) : ImportOutcome :=
  match scan.base with
  | none => .nothing
  | some (width, height) =>
    let (levels, size) :=
      if scan.completeLevels = 0 then (1, scan.written)
      else (scan.completeLevels, scan.completeSize)
    .replaced {
      width, height, levels
      depthOrLayers := scan.baseSlices
      format := FormatInfo.rgba8 space
      data := scan.buffer.take size }

/-- A search that has not broken off ends with what it has found. -/
def outcome (scan : PngScan) (turn : ScanTurn) (space : ColorSpace) : ImportOutcome :=
  match turn with
  | .broken cause => .broken cause
  | .onward | .stop => scan.found space

end PngScan

namespace FileView

variable (view : FileView) (directories : List Path) (texture : Texture)

def addSlice (level index : Nat) (scan : PngScan) : PngScan × ScanTurn :=
  let name := (texture.sliceName level index).render
  match view.firstMatch? directories name with
  | none => (scan, .stop)
  | some path =>
    let scan := { scan with examined := scan.examined ++ [name] }
    match view.read path with
    | .error fault => (scan.report (Failure.read path fault.message).logLines, .stop)
    | .ok file => scan.addFile texture.shape level index name path file

/-- Look for `count` slices of a level from an index on. -/
def addSlices (level : Nat) : (count index : Nat) → PngScan → PngScan × ScanTurn
  | 0, _, scan => (scan, .onward)
  | count + 1, index, scan =>
    match view.addSlice directories texture level index scan with
    | (scan, .onward) => addSlices level count (index + 1) scan
    | ended => ended

/-- Look for the slices of `count` levels from a level on. -/
def addLevels : (count level : Nat) → PngScan → PngScan × ScanTurn
  | 0, _, scan => (scan, .onward)
  | count + 1, level, scan =>
    match view.addSlices directories texture level (texture.shape.slicesAt level) 0 scan with
    | (scan, .onward) => addLevels count (level + 1) scan
    | ended => ended

end FileView
end TextureCache
