import TextureCache.Dds.File
import TextureCache.Failure
import TextureCache.FileName
import TextureCache.Png.File

/-! What an export is going to write. Everything but the files themselves is settled before the
first write: the names, the contents and how the export ends. -/
namespace TextureCache

/-- What a pixel decoder makes of a texture; it may also break off without an answer. -/
inductive Decoding where
  | pixels (data : Bytes)
  | refused (error : DecodeError)
  | broken
  deriving DecidableEq, Repr

/-- What an export does not do itself: turn textures into RGBA8, and encode RGBA8 images. -/
structure Codec where
  decode : Texture → Decoding
  encode : Png.Encoder

/-- The codec for every supported format. -/
def Codec.standard (encoder : Png.Encoder) : Codec where
  decode texture :=
    match texture.toRgba8 with
    | .ok data => .pixels data
    | .error error => .refused error
  encode := encoder

/-- One texture that is to be written to a directory. -/
structure ExportJob where
  handle : Handle
  texture : Texture
  directory : Path
  container : Container
  deriving DecidableEq, Repr

/-- A file that an export writes: its name, and its contents or why there are none. -/
structure Draft where
  name : String
  contents : Except SaveError Bytes

/-- How an export ends once its files are written. -/
inductive ExportEnd where
  | complete
  /-- Nothing can be written, and the log is told why. -/
  | refused (lines : List LogLine)
  /-- The export breaks off. -/
  | broken
  deriving DecidableEq, Repr

/-- The files that an export writes, in order, and how it ends. -/
structure ExportPlan where
  /-- The decoder was asked for pixels. -/
  asked : Bool
  drafts : List Draft
  ending : ExportEnd

def ExportPlan.ended (ending : ExportEnd) : ExportPlan := ⟨false, [], ending⟩

/-- Ask the decoder, and go on with its pixels. -/
def ExportPlan.ofDecoded (codec : Codec) (texture : Texture) (next : Bytes → ExportPlan) :
    ExportPlan :=
  let plan := match codec.decode texture with
    | .pixels data => next data
    | .refused error => .ended (.refused (Failure.decode error).logLines)
    | .broken => .ended .broken
  { plan with asked := true }

namespace ExportJob

/-- The format in which a DDS file holds the texture's own texels. -/
def nativeFormat? (texture : Texture) (dimensions : Dimensions) : Option StoredFormat :=
  (StoredFormat.ofNative? texture.format).filter (Dds.canStore · dimensions)

def ddsInfo (texture : Texture) (format : StoredFormat) (dimensions : Dimensions) : ImageInfo where
  width := texture.shape.width
  height := texture.shape.height
  depthOrLayers := texture.shape.depthOrLayers
  levels := texture.shape.levels
  format
  dimensions

def shortLine (given required : Nat) : LogLine where
  severity := .error
  message := "[ExportEncoder::export_dds] Texture data is " ++ toString given ++ " bytes, " ++
    toString required ++ " required"

/-- The single file of a DDS export with the given texels. -/
def ddsDraft (texture : Texture) (info : ImageInfo) (texels : Bytes) : ExportPlan :=
  if texels.length < info.payloadSize then
    .ended (.refused [shortLine texels.length info.payloadSize])
  else ⟨false, [⟨(texture.fileName .dds).render, Dds.save info texels⟩], .complete⟩

/-- Plan a DDS export: the texture's own texels where a file can hold them, else RGBA8. -/
def planDds (codec : Codec) (texture : Texture) : ExportPlan :=
  match texture.target.dimensions? with
  | none => .ended .complete
  | some dimensions =>
    match nativeFormat? texture dimensions with
    | some format => ddsDraft texture (ddsInfo texture format dimensions) texture.data
    | none => .ofDecoded codec texture (ddsDraft texture (ddsInfo texture .rgba8 dimensions))

def pngDraft (codec : Codec) (texture : Texture) (pixels : Bytes) (region : Region) : Draft where
  name := (texture.sliceName region.slice.level region.slice.index).render
  contents := Png.save codec.encode (UInt32.ofNat region.slice.width)
    (UInt32.ofNat region.slice.height) (pixels.slice region.offset region.size)

/-- The files of consecutive slices; the export breaks off at the first one past the pixels. -/
def pngDrafts (codec : Codec) (texture : Texture) (pixels : Bytes) : List Region → ExportPlan
  | [] => .ended .complete
  | region :: regions =>
    if pixels.length < region.offset + region.size then .ended .broken
    else
      let rest := pngDrafts codec texture pixels regions
      { rest with drafts := pngDraft codec texture pixels region :: rest.drafts }

def planPng (codec : Codec) (texture : Texture) : ExportPlan :=
  .ofDecoded codec texture (pngDrafts codec texture · texture.shape.rgba8Regions)

/-- What a job is going to write. Nothing is written of a texture in an unsupported format. -/
def plan (codec : Codec) (job : ExportJob) : ExportPlan :=
  if job.texture.format.isSupported then
    match job.container with
    | .dds => planDds codec job.texture
    | .png => planPng codec job.texture
  else .ended .complete

end ExportJob
end TextureCache
