import TextureCache.Bytes
import TextureCache.Path
import TextureCache.Table

/-! A tree of files as a value: directories, files with contents and a time of change, and
symbolic links. A path is resolved name by name; links are followed, a bounded number of times. -/
namespace TextureCache

/-- A moment, counted from the start of 1970. -/
structure Time where
  nanoseconds : Int
  deriving DecidableEq, Repr

namespace Time

/-- A moment given by seconds and a count of nanoseconds after them. -/
def ofSeconds (seconds : Int) (nanoseconds : Nat) : Time := ⟨seconds * 1000000000 + nanoseconds⟩

/-- The whole seconds of a moment; moments before 1970 are rounded up. -/
def unixSeconds (time : Time) : Int := time.nanoseconds.tdiv 1000000000

end Time

/-- The names that lead from the root to an entry. -/
abbrev Location := List String

inductive Node where
  | directory (modified : Time)
  | file (contents : Bytes) (modified : Time)
  | link (target : Path)
  deriving DecidableEq, Repr

/-- Why an operation on files fails. -/
inductive FileFault where
  | notFound
  | notADirectory
  | isADirectory
  | alreadyExists
  | directoryNotEmpty
  | tooManyLinks
  | nameTooLong
  | zeroInName
  | invalidArgument
  | resourceBusy
  deriving DecidableEq, Repr

/-- The message of a failure, with the number that the system has for it. -/
def FileFault.message : FileFault → String
  | notFound => "No such file or directory (os error 2)"
  | notADirectory => "Not a directory (os error 20)"
  | isADirectory => "Is a directory (os error 21)"
  | alreadyExists => "File exists (os error 17)"
  | directoryNotEmpty => "Directory not empty (os error 39)"
  | tooManyLinks => "Too many levels of symbolic links (os error 40)"
  | nameTooLong => "File name too long (os error 36)"
  | zeroInName => "file name contained an unexpected NUL byte"
  | invalidArgument => "Invalid argument (os error 22)"
  | resourceBusy => "Device or resource busy (os error 16)"

/-- A tree of files and the time that the next change gets. -/
structure FileSystem where
  nodes : Table Location Node
  clock : Time

namespace FileSystem

/-- Only the root, which is an empty directory. -/
def initial (clock : Time) : FileSystem := ⟨(∅ : Table _ _).insert [] (.directory clock), clock⟩

def node? (files : FileSystem) (location : Location) : Option Node := files.nodes.find? location

def setNode (files : FileSystem) (location : Location) (node : Node) : FileSystem :=
  { files with nodes := files.nodes.insert location node }

def eraseNode (files : FileSystem) (location : Location) : FileSystem :=
  { files with nodes := files.nodes.erase location }

inductive LastStep where
  /-- There is no step from the root. -/
  | root
  | current
  | parent
  | name (name : String)
  deriving DecidableEq, Repr

/-- The step that a segment stands for. -/
def LastStep.ofSegment : String → LastStep
  | "" => root
  | "." => current
  | ".." => parent
  | segment => name segment

/-- Where a path ends: in a directory that exists, with a step whose entry need not exist. -/
structure PathEnd where
  directory : Location
  last : LastStep
  /-- A slash follows the last step, which then has to be a directory. -/
  slash : Bool
  deriving DecidableEq, Repr

def nameLimit : Nat := 255

def PathEnd.location (place : PathEnd) : Except FileFault Location :=
  match place.last with
  | .root => .ok []
  | .current => .ok place.directory
  | .parent => .ok place.directory.dropLast
  | .name name =>
    if nameLimit < name.utf8ByteSize then .error .nameTooLong
    else .ok (place.directory ++ [name])

def PathEnd.isNamed (place : PathEnd) : Bool := place.last ≠ .current && place.last ≠ .parent

/-- Where the way along a path stops. -/
inductive Stop where
  | arrived (place : PathEnd)
  /-- At a link in a directory, with names left behind it. -/
  | link (directory : Location) (target : Path) (rest : List String)
  | fault (fault : FileFault)
  deriving DecidableEq, Repr

/-- Go through names from a location up to the next link. What `follow` makes of the slash after the
last name says whether a link of that name counts. -/
def walkNames (files : FileSystem) (follow : Bool → Bool) :
    Location → (names : List String) → Stop
  | location, [] => .arrived ⟨location, .current, false⟩
  | location, name :: rest =>
    let isLast := rest.all (· = "")
    if name = "" ∧ isLast then .arrived ⟨location, .root, true⟩
    else
      match files.node? location with
      | none => .fault .notFound
      | some (.directory _) =>
        if isLast then
          let slash := rest ≠ []
          match files.node? (location ++ [name]) with
          | some (.link target) =>
            if follow slash then .link location target rest
            else .arrived ⟨location, .ofSegment name, slash⟩
          | _ => .arrived ⟨location, .ofSegment name, slash⟩
        else if name = "" ∨ name = "." then walkNames files follow location rest
        else if name = ".." then walkNames files follow location.dropLast rest
        else if nameLimit < name.utf8ByteSize then .fault .nameTooLong
        else
          match files.node? (location ++ [name]) with
          | none => .fault .notFound
          | some (.link target) => .link location target rest
          | some _ => walkNames files follow (location ++ [name]) rest
      | some _ => .fault .notADirectory

/-- The names to go through for a path; the first one of an absolute path is the root. -/
def namesOf (path : Path) : List String :=
  if path.isAbsolute then path.segments.drop 1 else path.segments

/-- Go through names and links, at most `links` of them. -/
def walkLinks (files : FileSystem) (follow : Bool → Bool) :
    (links : Nat) → Location → List String → Except FileFault PathEnd
  | 0, location, names =>
    match files.walkNames follow location names with
    | .arrived place => .ok place
    | .link _ _ _ => .error .tooManyLinks
    | .fault fault => .error fault
  | links + 1, location, names =>
    match files.walkNames follow location names with
    | .arrived place => .ok place
    | .link directory target rest =>
      let start := if target.isAbsolute then [] else directory
      files.walkLinks follow links start (namesOf target ++ rest)
    | .fault fault => .error fault

/-- The most links on the way to an entry. -/
def linkLimit : Nat := 40

/-- A path as text is shorter than this. -/
def pathLimit : Nat := 4096

/-- What makes a path unusable for any operation. -/
def textFault? (path : Path) : Option FileFault :=
  let text := path.text
  if text.toList.contains '\x00' then some .zeroInName
  else if text = "" then some .notFound
  else if pathLimit ≤ text.utf8ByteSize then some .nameTooLong
  else none

def walk (files : FileSystem) (follow : Bool → Bool) (path : Path) : Except FileFault PathEnd :=
  match textFault? path with
  | some fault => .error fault
  | none => files.walkLinks follow linkLimit [] (namesOf path)

/-- Where a path ends, with a link as its last name left alone. -/
def place (files : FileSystem) (path : Path) : Except FileFault PathEnd :=
  files.walk (fun _ => false) path

/-- The entry at the end of a path; before a slash it is a directory. -/
def entryAt (files : FileSystem) (place : PathEnd) : Except FileFault (Location × Node) := do
  let location ← place.location
  match files.node? location with
  | none => .error .notFound
  | some (.directory modified) => .ok (location, .directory modified)
  | some node => if place.slash then .error .notADirectory else .ok (location, node)

/-- The entry that a path leads to when links are followed. -/
def find (files : FileSystem) (path : Path) : Except FileFault (Location × Node) := do
  files.entryAt (← files.walk (fun _ => true) path)

def location? (files : FileSystem) (path : Path) : Option Location :=
  (files.find path).toOption.map Prod.fst

def lookUp (files : FileSystem) (path : Path) : Except FileFault Node :=
  (files.find path).map Prod.snd

def isFile (files : FileSystem) (path : Path) : Bool := files.lookUp path matches .ok (.file _ _)

def isDirectory (files : FileSystem) (path : Path) : Bool :=
  files.lookUp path matches .ok (.directory _)

def read (files : FileSystem) (path : Path) : Except FileFault Bytes := do
  match ← files.lookUp path with
  | .file contents _ => .ok contents
  | .directory _ | .link _ => .error .isADirectory

def modified? (files : FileSystem) (path : Path) : Option Time :=
  match files.lookUp path with
  | .ok (.file _ modified) | .ok (.directory modified) => some modified
  | _ => none

/-- The path without links, dots and parents of an entry that exists. -/
def canonical? (files : FileSystem) (path : Path) : Option Path :=
  (files.location? path).map Path.ofNames

/-- The names in a directory, in order. -/
def list (files : FileSystem) (path : Path) : Except FileFault (List String) := do
  match ← files.find path with
  | (location, .directory _) =>
    .ok ((files.nodes.entries.filterMap fun entry =>
      match entry.1.getLast? with
      | some name => if entry.1 = location ++ [name] then some name else none
      | none => none).mergeSort (· ≤ ·))
  | _ => .error .notADirectory

/-- Create a file, or replace the contents of the one that is there. A file is never created before
a slash, whatever is there. -/
def write (files : FileSystem) (path : Path) (contents : Bytes) : Except FileFault FileSystem := do
  let place ← files.walk not path
  if place.slash then .error .isADirectory
  else
    let location ← place.location
    match files.node? location with
    | some (.directory _) => .error .isADirectory
    | _ => .ok (files.setNode location (.file contents files.clock))

end FileSystem
end TextureCache
