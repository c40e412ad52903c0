import TextureCache.Registry

/-! What happens when a file changes: a texture that came from it is loaded again, unless the change
is our own. -/
namespace TextureCache

/-- How changes are handled. -/
structure ReloadPolicy where
  /-- Changes within this many seconds after our own write are ignored. -/
  guard : Int
  /-- How often a changed file is tried before the change is dropped. -/
  attempts : Nat
  deriving DecidableEq, Repr

inductive ReloadOutcome where
  /-- No texture came from the file. -/
  | untracked
  /-- The change is our own. -/
  | selfWrite
  /-- No attempt to read the file succeeded. -/
  | unreadable
  /-- The texture is to be imported again. -/
  | reloaded (handle : Handle)
  deriving DecidableEq, Repr

/-- One of so many attempts to read a file succeeds; all of them see the same file. -/
def FileSystem.isReadable (files : FileSystem) (attempts : Nat) (path : Path) : Bool :=
  0 < attempts && (files.read path matches .ok _)

def latestTime : Int := Int64.maxValue.toInt

/-- Decide on a change. A file without a time of change never counts as our finished write. -/
def ReloadPolicy.handleChange (policy : ReloadPolicy) (files : FileSystem) (registry : Registry)
    (path : Path) : ReloadOutcome :=
  match path.fileName? with
  | none => .untracked
  | some name =>
    let modified := ((files.modified? path).map Time.unixSeconds).getD latestTime
    if ¬ registry.isTracked name then .untracked
    else if registry.isSelfWrite path modified policy.guard then .selfWrite
    else if ¬ files.isReadable policy.attempts path then .unreadable
    else
      match registry.association? name with
      | some handle => .reloaded handle
      | none => .untracked

/-- A directory whose files are watched, and where it was when the watch began. -/
structure Watch where
  directory : Path
  location : Location
  deriving DecidableEq, Repr

namespace Watch

/-- Watch a directory; none if it cannot be found. -/
def start? (files : FileSystem) (directory : Path) : Option Watch :=
  (files.location? directory).map fun location => ⟨directory, location⟩

/-- The path under which the watch notices a change to what a path leads to. -/
def noticed? (watch : Watch) (files : FileSystem) (changed : Path) : Option Path := do
  let location ← files.location? changed
  let name ← location.getLast?
  if location = watch.location ++ [name] then some (watch.directory.join name) else none

end Watch
end TextureCache
