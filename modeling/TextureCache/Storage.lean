import TextureCache.Config
import TextureCache.Export.Run
import TextureCache.Import
import TextureCache.Reload

/-! The texture cache as its owner uses it: the directories, the queue of exports and the watch for
edits. Jobs wait in the queue until it is drained. -/
namespace TextureCache

/-- The directory for exports and the directories that are searched on import. -/
structure Directories where
  output : Option Path
  search : List Path
  deriving DecidableEq, Repr

namespace Directories

def empty : Directories := ⟨none, []⟩

/-- Search a directory after all others, unless it is searched already. -/
def addSearch (directories : Directories) (directory : Path) : Directories :=
  if directory ∈ directories.search then directories
  else { directories with search := directories.search ++ [directory] }

/-- Stop exporting to the output directory and stop searching it. -/
def dropOutput (directories : Directories) : Directories :=
  match directories.output with
  | none => directories
  | some previous => ⟨none, directories.search.filter (· ≠ previous)⟩

/-- Export to a directory and search it. -/
def addOutput (directories : Directories) (directory : Path) : Directories :=
  { directories.addSearch directory with output := some directory }

/-- There is a directory to export to or to search. -/
def isActive (directories : Directories) : Bool :=
  directories.output.isSome || !directories.search.isEmpty

end Directories

/-- The path of an existing directory without links, dots and parents. Stamps and changes name files
by their full path, so no other spelling may reach the registry. -/
def FileSystem.directory? (files : FileSystem) (path : Path) : Option Path :=
  if files.isDirectory path then files.canonical? path else none

structure Storage where
  dump : Bool
  container : Container
  directories : Directories
  /-- The jobs that wait, first in first out. -/
  queue : List ExportJob
  /-- How changes are handled, if edits are watched. -/
  policy : Option ReloadPolicy
  watch : Option Watch
  deriving DecidableEq, Repr

namespace Storage

def addInput (storage : Storage) (files : FileSystem) (path : Path) : Storage :=
  match files.directory? path with
  | none => storage
  | some directory => { storage with directories := storage.directories.addSearch directory }

/-- Replace the output directory by one that was found before. The earlier one is not searched any
more and the stamps under it are dropped. -/
def switchOutput (storage : Storage) (workspace : Workspace) (found : Option Path) :
    Storage × Workspace :=
  let forget (registry : Registry) : Registry :=
    match storage.directories.output with
    | none => registry
    | some previous => registry.forgetUnder previous
  let kept := storage.directories.dropOutput
  let storage := { storage with
    directories := match found with
      | none => kept
      | some directory => kept.addOutput directory
    watch := match storage.policy with
      | none => none
      | some _ => found.bind (Watch.start? workspace.files) }
  (storage, workspace.updateRegistry forget)

/-- Replace the output directory. One that does not exist leaves no output directory. -/
def setOutput (storage : Storage) (workspace : Workspace) (path : Path) : Storage × Workspace :=
  storage.switchOutput workspace (workspace.files.directory? path)

def start (config : Config) (workspace : Workspace) : Storage × Workspace :=
  let empty : Storage := {
    dump := config.dump
    container := config.container
    directories := .empty
    queue := []
    policy := if config.live then some ⟨config.guard, config.attempts.toNat⟩ else none
    watch := none }
  let workspace := { workspace with registry := ∅ }
  let (storage, workspace) := match config.output with
    | none => (empty, workspace)
    | some path => empty.setOutput workspace path
  let addInput (storage : Storage) (path : Path) : Storage := storage.addInput workspace.files path
  (config.inputs.foldl addInput storage, workspace)

/-- Queue a texture for export to the directory that is the output now. -/
def enqueue (storage : Storage) (handle : Handle) (texture : Texture) : Storage :=
  match storage.dump, storage.directories.output with
  | true, some directory =>
    { storage with queue := storage.queue ++ [⟨handle, texture, directory, storage.container⟩] }
  | _, _ => storage

/-- Carry out the jobs that wait. -/
def drain (storage : Storage) (workspace : Workspace) (codec : Codec) :
    Storage × Workspace :=
  ({ storage with queue := [] }, workspace.runJobs codec storage.queue)

def importTexture (storage : Storage) (workspace : Workspace) (handle : Handle)
    (texture : Texture) : Workspace × ImportOutcome :=
  workspace.importTexture storage.directories.search handle texture

/-- A watch ends when its directory is removed, and does not return with it. -/
def refreshWatch (storage : Storage) (files : FileSystem) : Storage :=
  { storage with watch := storage.watch.filter fun watch => (files.node? watch.location).isSome }

/-- What the watch makes of a change to the file that a path leads to. -/
def notice (storage : Storage) (workspace : Workspace) (changed : Path) : Option ReloadOutcome := do
  let policy ← storage.policy
  let watch ← storage.watch
  let path ← watch.noticed? workspace.files changed
  some (policy.handleChange workspace.files workspace.registry path)

end Storage
end TextureCache
