import TextureCache.Dds.File
import TextureCache.Import.Slices
import TextureCache.Texel.Packed
import TextureCache.Workspace

/-! Looking for the replacement of a texture in a list of directories: a DDS file first, then one
PNG file per slice. Of every name only the first directory that holds a file counts, even if that
file turns out to be of no use. -/
namespace TextureCache

/-- What a search finds: the names of the files that it looked into, in order, what the log gets,
and how it ends. -/
structure ImportReport where
  examined : List String
  lines : List LogLine
  outcome : ImportOutcome
  deriving DecidableEq, Repr

namespace ImportReport

/-- A search that came upon no file. -/
def nothing : ImportReport := ⟨[], [], .nothing⟩

def failed (name : String) (failure : Failure) : ImportReport :=
  ⟨[name], failure.logLines, .nothing⟩

/-- Texels of a DDS file in the channel order of their imported format. -/
def ddsTexels (info : ImageInfo) (payload : Bytes) : Bytes :=
  if info.format = .bgra8 then swapRedBlue payload else payload

def ofDds (space : ColorSpace) (file : Bytes) : Except LoadError ImportedTexture := do
  let info ← Dds.loadHeader file
  let payload ← Dds.loadData file (Bytes.zeros info.payloadSize)
  .ok {
    width := info.width
    height := info.height
    depthOrLayers := info.depthOrLayers
    levels := info.levels
    format := FormatInfo.ofStored info.format space
    data := ddsTexels info payload }

end ImportReport

namespace FileView

variable (view : FileView) (directories : List Path) (texture : Texture)

def dds : ImportReport :=
  let name := (texture.fileName .dds).render
  match view.firstMatch? directories name with
  | none => .nothing
  | some path =>
    match view.read path with
    | .error fault => .failed name (.read path fault.message)
    | .ok file =>
      match ImportReport.ofDds texture.format.colorSpace file with
      | .error error => .failed name (.load path error)
      | .ok imported => ⟨[name], [], .replaced imported⟩

def png : ImportReport :=
  let (scan, turn) := view.addLevels directories texture texture.shape.levels.toNat 0 .start
  ⟨scan.examined, scan.lines, scan.outcome turn texture.format.colorSpace⟩

/-- Look for a replacement. Textures in unsupported formats are not replaced. -/
def search : ImportReport :=
  if texture.format.isSupported = false ∨ directories = [] then .nothing
  else
    let dds := view.dds directories texture
    if dds.outcome = .nothing then
      let png := view.png directories texture
      ⟨dds.examined ++ png.examined, dds.lines ++ png.lines, png.outcome⟩
    else dds

end FileView

namespace Workspace

/-- Look for a replacement and link every file that was looked into to the texture, so that a
broken replacement is noticed when it is mended. -/
def importFrom (workspace : Workspace) (view : FileView) (directories : List Path)
    (handle : Handle) (texture : Texture) : Workspace × ImportOutcome :=
  let found := view.search directories texture
  let linked := workspace.updateRegistry fun registry =>
    found.examined.foldl (fun registry name => registry.associate name handle) registry
  (linked.report found.lines, found.outcome)

def importTexture (workspace : Workspace) (directories : List Path) (handle : Handle)
    (texture : Texture) : Workspace × ImportOutcome :=
  workspace.importFrom (.ofFiles workspace.files) directories handle texture

end Workspace
end TextureCache
