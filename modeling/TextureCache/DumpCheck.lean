import TextureCache.Dds.File
import TextureCache.Failure
import TextureCache.FileName
import TextureCache.FileSystem.Basic
import TextureCache.OsText
import TextureCache.Png.File

/-! Checking directories of dumped textures: every file whose name belongs to the cache has to hold
an image of the shape that its name tells. -/
namespace TextureCache

/-- What is wrong with a file of the cache. -/
inductive Complaint where
  | unreadable (cause : String)
  | damaged (error : LoadError)
  | extents (info : ImageInfo) (width height : Nat)
  | slices (info : ImageInfo) (count : UInt32)
  deriving DecidableEq, Repr

def Complaint.message : Complaint → String
  | unreadable cause => "failed to read file: " ++ cause
  | damaged error => error.reason
  | extents info width height =>
    "image is " ++ toString info.width ++ "x" ++ toString info.height ++ ", name says " ++
      toString width ++ "x" ++ toString height
  | slices info count =>
    "image has " ++ toString info.depthOrLayers ++ " slice(s), name says " ++ toString count

namespace FileName

/-- The extents and the slice count that a name promises; a slice is a single image of its level. -/
def promise (name : FileName) : Nat × Nat × UInt32 :=
  let stem := name.stem
  match stem.slice with
  | some (level, _) =>
    (mipExtent stem.width.toNat level.toNat, mipExtent stem.height.toNat level.toNat, 1)
  | none => (stem.width.toNat, stem.height.toNat, stem.depthOrLayers)

def loadHeader (name : FileName) (file : Bytes) : Except LoadError ImageInfo :=
  match name.container with
  | .dds => Dds.loadHeader file
  | .png => Png.loadHeader file

def check (name : FileName) (contents : Except String Bytes) : Option Complaint :=
  match contents with
  | .error cause => some (.unreadable cause)
  | .ok file =>
    match name.loadHeader file with
    | .error error => some (.damaged error)
    | .ok info =>
      let (width, height, count) := name.promise
      if info.width.toNat ≠ width ∨ info.height.toNat ≠ height then
        some (.extents info width height)
      else if info.depthOrLayers ≠ count then some (.slices info count)
      else none

end FileName

namespace DumpCheck

/-- A regular file of a directory. -/
structure Entry where
  /-- The path that messages show. -/
  path : String
  name : OsText
  contents : Except String Bytes

/-- What became of a file. -/
inductive Verdict where
  | valid
  | invalid (complaint : Complaint)
  | skipped
  deriving DecidableEq, Repr

/-- The name of the cache that an entry has, if it has one. -/
def fileName? (name : OsText) : Option FileName := name.unicode?.bind FileName.parse?

/-- Judge a file; names that are not of the cache are passed over. -/
def Entry.verdict (entry : Entry) : Verdict :=
  match fileName? entry.name with
  | none => .skipped
  | some name =>
    match name.check entry.contents with
    | none => .valid
    | some complaint => .invalid complaint

def Entry.lines (entry : Entry) : List LogLine :=
  match entry.verdict with
  | .valid => []
  | .invalid complaint => [⟨.warning, entry.path ++ ": " ++ complaint.message⟩]
  | .skipped => [⟨.debug, "Skipping " ++ entry.path⟩]

/-- A directory and its regular files; a failure of the system ends them early. -/
structure Listing where
  directory : String
  entries : List Entry
  failure : Option String

/-- What a check sees. The names in a directory come in some order, and a failure can end them at
the start or on the way; whether a name leads to a regular file, and what that file holds, is asked
of the system as well. -/
structure DirectoryView where
  list : (directory : Path) → List OsText × Option FileFault
  isFile : (directory : Path) → (name : OsText) → Bool
  read : (directory : Path) → (name : OsText) → Except FileFault Bytes

namespace DirectoryView

/-- A regular file, or nothing if the name leads to none. -/
def file? (view : DirectoryView) (directory : Path) (name : OsText) : Option Entry :=
  if view.isFile directory name then
    some ⟨(directory.join name.shown).text, name,
      (view.read directory name).mapError FileFault.message⟩
  else none

def listing (view : DirectoryView) (directory : Path) : Listing where
  directory := directory.text
  entries := (view.list directory).1.filterMap (view.file? directory)
  failure := (view.list directory).2.map FileFault.message

/-- The directories of a tree, in which all names are Unicode. -/
def ofFiles (files : FileSystem) : DirectoryView where
  list directory :=
    match files.list directory with
    | .error fault => ([], some fault)
    | .ok names => (names.map .unicode, none)
  isFile directory name := name.unicode?.any fun name => files.isFile (directory.join name)
  read directory name :=
    match name.unicode? with
    | none => .error .notFound
    | some name => files.read (directory.join name)

end DirectoryView

def Listing.ofFiles (files : FileSystem) : (directory : Path) → Listing :=
  (DirectoryView.ofFiles files).listing

/-- The files of each verdict. -/
structure Summary where
  valid : Nat
  invalid : Nat
  skipped : Nat
  deriving DecidableEq, Repr

namespace Summary

def zero : Summary := ⟨0, 0, 0⟩

def add (summary : Summary) (entry : Entry) : Summary :=
  match entry.verdict with
  | .valid => { summary with valid := summary.valid + 1 }
  | .invalid _ => { summary with invalid := summary.invalid + 1 }
  | .skipped => { summary with skipped := summary.skipped + 1 }

/-- The last line of a check that came to its end. -/
def line (summary : Summary) : LogLine :=
  if summary.invalid = 0 then
    ⟨.info, toString summary.valid ++ " valid file(s), " ++ toString summary.skipped ++
      " other file(s) skipped"⟩
  else
    ⟨.error, toString summary.invalid ++ " invalid file(s), " ++ toString summary.valid ++ " valid"⟩

end Summary

/-- Look at the files of one directory after another, and give up where a directory cannot be
listed. -/
def scan : Summary → List Listing → List LogLine × Except String Summary
  | summary, [] => ([], .ok summary)
  | summary, listing :: rest =>
    let lines := listing.entries.flatMap Entry.lines
    match listing.failure with
    | some cause => (lines, .error ("failed to list " ++ listing.directory ++ ": " ++ cause))
    | none =>
      let (others, result) := scan (listing.entries.foldl Summary.add summary) rest
      (lines ++ others, result)

/-- What the check tells: its exit code and its lines. -/
structure Report where
  code : UInt32
  lines : List LogLine
  deriving DecidableEq, Repr

def report (listings : List Listing) : Report :=
  let (lines, result) :=
    if listings.isEmpty then ([], .error "usage: dump_check <dir>...") else scan .zero listings
  match result with
  | .ok summary => ⟨if summary.invalid = 0 then 0 else 1, lines ++ [summary.line]⟩
  | .error cause => ⟨2, lines ++ [⟨.error, "dump_check failed: " ++ cause⟩]⟩

/-- The directories of a command line behind the name of the program. Every text of the line has to
be Unicode. -/
def directories? (command : List OsText) : Option (List Path) := do
  let texts ← command.mapM OsText.unicode?
  return (texts.drop 1).map Path.ofText

/-- The report on a check that broke off before it began. -/
def broken : Report := ⟨101, []⟩

/-- What a command line makes of the directories that it names. -/
def DirectoryView.run (view : DirectoryView) (command : List OsText) : Report :=
  match directories? command with
  | none => broken
  | some directories => report (directories.map view.listing)

end DumpCheck
end TextureCache
