import TextureCache.FileSystem.Basic
import TextureCache.Texture

/-! The bookkeeping that exports, imports and reloads share: which writes are our own, by path, and
which texture a file belongs to, by name. -/
namespace TextureCache

/-- The state of our last write to a path. -/
inductive WriteStamp where
  | pending
  /-- The write is finished; the file had this time of change, in seconds. -/
  | committed (time : Int)
  deriving DecidableEq, Repr

/-- A difference of 64-bit numbers, moved to the nearest number in range. -/
def saturatingSub (first second : Int) : Int :=
  max Int64.minValue.toInt (min Int64.maxValue.toInt (first - second))

/-- Write stamps and associations. Paths count by their components. -/
structure Registry where
  stamps : Table (List Component) WriteStamp
  associations : Table String Handle

namespace Registry

def empty : Registry := ⟨∅, ∅⟩

instance : EmptyCollection Registry := ⟨empty⟩

def stamp? (registry : Registry) (path : Path) : Option WriteStamp :=
  registry.stamps.find? path.components

def reserve (registry : Registry) (path : Path) : Registry :=
  { registry with stamps := registry.stamps.insert path.components .pending }

def commit (registry : Registry) (path : Path) (time : Int) : Registry :=
  { registry with stamps := registry.stamps.insert path.components (.committed time) }

def rollback (registry : Registry) (path : Path) : Registry :=
  { registry with stamps := registry.stamps.erase path.components }

/-- Drop the stamps of all paths under a directory. -/
def forgetUnder (registry : Registry) (directory : Path) : Registry :=
  { registry with
    stamps := registry.stamps.filter fun path _ => ¬ directory.components.isPrefixOf path }

/-- End the reservation of a path: a finished write is committed with the time that its file has
now, or with the clock if it has none; any other is rolled back. -/
def settle (registry : Registry) (files : FileSystem) (path : Path) (finished : Bool) : Registry :=
  if finished then
    registry.commit path ((files.modified? path).getD files.clock).unixSeconds
  else registry.rollback path

/-- A change at a time is our own when a write is in flight, or when one was committed later than
`guard` seconds before the change. -/
def isSelfWrite (registry : Registry) (path : Path) (modified guard : Int) : Bool :=
  match registry.stamp? path with
  | some .pending => true
  | some (.committed saved) => saturatingSub modified guard < saved
  | none => false

def associate (registry : Registry) (name : String) (handle : Handle) : Registry :=
  { registry with associations := registry.associations.insert name handle }

/-- The texture that a file name is linked to. -/
def association? (registry : Registry) (name : String) : Option Handle :=
  registry.associations.find? name

def isTracked (registry : Registry) (name : String) : Bool := (registry.association? name).isSome

def release (registry : Registry) (handle : Handle) : Registry :=
  { registry with associations := registry.associations.filter fun _ linked => linked != handle }

def associationCount (registry : Registry) : Nat := registry.associations.size

end Registry
end TextureCache
