import TextureCache.Failure
import TextureCache.Registry

/-! What exports, imports and reloads work on: the files, the registry and the log. -/
namespace TextureCache

/-- The files with their registry and the log so far. -/
structure Workspace where
  files : FileSystem
  registry : Registry
  log : List LogLine
  /-- How often a pixel decoder was asked. -/
  decodings : Nat

namespace Workspace

/-- Files that no texture has come from yet. -/
def ofFiles (files : FileSystem) : Workspace := ⟨files, ∅, [], 0⟩

def report (workspace : Workspace) (lines : List LogLine) : Workspace :=
  { workspace with log := workspace.log ++ lines }

def updateRegistry (workspace : Workspace) (update : Registry → Registry) : Workspace :=
  { workspace with registry := update workspace.registry }

end Workspace
end TextureCache
