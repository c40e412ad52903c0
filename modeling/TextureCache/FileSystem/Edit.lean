import TextureCache.FileSystem.Basic

/-! Changes to a tree of files besides writing: directories, links, removal, renaming and times. -/
namespace TextureCache.FileSystem

/-- The location at which an entry can be made: that of a name without entry. -/
def freeLocation (files : FileSystem) (place : PathEnd) : Except FileFault Location := do
  if place.isNamed then
    let location ← place.location
    if (files.node? location).isSome then .error .alreadyExists else .ok location
  else .error .alreadyExists

def makeDirectory (files : FileSystem) (path : Path) : Except FileFault FileSystem := do
  let location ← files.freeLocation (← files.place path)
  .ok (files.setNode location (.directory files.clock))

/-- Make a link at a path. A link is not made before a slash. -/
def makeLink (files : FileSystem) (path target : Path) : Except FileFault FileSystem := do
  match textFault? target with
  | some fault => .error fault
  | none =>
    let place ← files.place path
    let location ← files.freeLocation place
    if place.slash then .error .notFound else .ok (files.setNode location (.link target))

/-- Make the first of some nested directories after the others. Those that were made before a
failure stay. -/
def makeNested (files : FileSystem) : List Path → FileSystem × Option FileFault
  | [] => (files, none)
  | path :: parents =>
    let retry (files : FileSystem) : FileSystem × Option FileFault :=
      match files.makeDirectory path with
      | .ok files => (files, none)
      | .error fault => (files, if files.isDirectory path then none else some fault)
    match files.makeDirectory path with
    | .error .notFound =>
      match files.makeNested parents with
      | (files, none) => retry files
      | failed => failed
    | _ => retry files

/-- Make a directory with everything above it. -/
def makeDirectories (files : FileSystem) (path : Path) : FileSystem × Option FileFault :=
  files.makeNested path.ancestors

def removeFile (files : FileSystem) (path : Path) : Except FileFault FileSystem := do
  let place ← files.place path
  if place.isNamed then
    let location ← place.location
    match files.node? location with
    | none => .error .notFound
    | some (.directory _) => .error .isADirectory
    | some _ =>
      if place.slash then .error .notADirectory
      else .ok (files.eraseNode location)
  else .error .isADirectory

/-- Remove an empty directory. Dots and parents are no names to remove, and one whose name was lost
is gone. -/
def removeEmptied (files : FileSystem) (path : Path) : FileSystem × Option FileFault :=
  let removal : Except FileFault FileSystem := do
    let place ← files.place path
    match place.last with
    | .current => .error .invalidArgument
    | .parent => .error .directoryNotEmpty
    | .root | .name _ =>
      let location ← place.location
      match files.node? location with
      | none => .error .notFound
      | some (.directory _) => .ok (files.eraseNode location)
      | some _ => .error .notADirectory
  match removal with
  | .ok files => (files, none)
  | .error .notFound => (files, none)
  | .error fault => (files, some fault)

/-- Remove a directory with everything in it; a link is removed itself. What was in the directory is
gone even if the directory cannot be removed by its path. -/
def removeTree (files : FileSystem) (path : Path) : FileSystem × Option FileFault :=
  match files.walk id path >>= files.entryAt with
  | .error fault => (files, some fault)
  | .ok (_, .file _ _) => (files, some .notADirectory)
  | .ok (location, .link _) => (files.eraseNode location, none)
  | .ok (location, .directory _) =>
    let emptied := { files with
      nodes := files.nodes.filter fun entry _ => ¬ location <+: entry ∨ entry = location }
    emptied.removeEmptied path

/-- The entries at and below a location, moved to another one. -/
def moved (files : FileSystem) (source target : Location) : List (Location × Node) :=
  files.nodes.entries.filterMap fun entry =>
    if source <+: entry.1 then some (target ++ entry.1.drop source.length, entry.2) else none

/-- What keeps an entry from taking the place of another one. -/
def replaceFault? (files : FileSystem) (node : Node) (target : Location) : Option FileFault :=
  match node, files.node? target with
  | .directory _, some (.directory _) =>
    if files.nodes.entries.any fun entry => target <+: entry.1 ∧ entry.1 ≠ target then
      some .directoryNotEmpty
    else none
  | .directory _, some _ => some .notADirectory
  | _, some (.directory _) => some .isADirectory
  | _, _ => none

/-- Move an entry to another location. No entry goes into itself, and none takes the place of a
directory that it is in. -/
def move (files : FileSystem) (source target : PathEnd) : Except FileFault FileSystem := do
  let old ← source.location
  match files.node? old with
  | none => .error .notFound
  | some node =>
    let new ← target.location
    if ¬ (node matches .directory _) ∧ (source.slash ∨ target.slash) then .error .notADirectory
    else if old = new then .ok files
    else if old <+: target.directory then .error .invalidArgument
    else if new <+: source.directory then .error .directoryNotEmpty
    else
      match files.replaceFault? node new with
      | some fault => .error fault
      | none =>
        let kept := (files.nodes.filter fun entry _ => ¬ old <+: entry).erase new
        .ok { files with
          nodes := (files.moved old new).foldl
            (fun nodes entry => nodes.insert entry.1 entry.2) kept }

/-- Give an entry another path, in place of the one that may be there. -/
def rename (files : FileSystem) (path newPath : Path) : Except FileFault FileSystem := do
  match textFault? newPath with
  | some .zeroInName => .error .zeroInName
  | _ =>
    let source ← files.place path
    let target ← files.place newPath
    if source.isNamed ∧ target.isNamed then files.move source target else .error .resourceBusy

def setModified (files : FileSystem) (path : Path) (time : Time) : Except FileFault FileSystem := do
  match ← files.find path with
  | (location, .file contents _) => .ok (files.setNode location (.file contents time))
  | _ => .error .isADirectory

/-- Everything below the root, each directory followed by what it holds. -/
def everything (files : FileSystem) : List (Location × Node) :=
  (files.nodes.entries.filter fun entry => entry.1 ≠ []).mergeSort fun first second =>
    !second.1.lex first.1

end TextureCache.FileSystem
