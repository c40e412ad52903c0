import TextureCache.Proofs.Dds.Canonical
import TextureCache.Proofs.Export

/-! What a search makes of a DDS file. A header is accepted only with the whole of its payload
behind it, so reading the payload never fails after reading the header. -/
namespace TextureCache

variable {files : FileSystem} {directories : List Path} {texture : Texture} {path : Path}
  {file : Bytes} {imported : ImportedTexture}

theorem FileSystem.isFile_of_read (held : files.read path = .ok file) :
    files.isFile path = true := by
  unfold read at held
  unfold isFile
  cases found : files.lookUp path with
  | error fault =>
    rw [found] at held
    cases held
  | ok node =>
    rw [found] at held
    cases node with
    | file contents modified => rfl
    | directory modified => cases held
    | link target => cases held

/-- The first file of a name in a list of directories is there and holds some bytes. -/
def FileView.Provides (view : FileView) (directories : List Path) (name : String) (file : Bytes) :
    Prop :=
  ∃ path, view.firstMatch? directories name = some path ∧ view.read path = .ok file

theorem FileSystem.provides_of_read {directory : Path} {name : String}
    (held : files.read (directory.join name) = .ok file) :
    (FileView.ofFiles files).Provides [directory] name file :=
  ⟨_, firstMatch?_of_isFirst ⟨[], [], rfl, fun _ member => nomatch member⟩ (isFile_of_read held),
    held⟩

/-- The replacement that an accepted file holds. -/
def ImportedTexture.ofContents (space : ColorSpace) (file : Bytes) (contents : Dds.Contents) :
    ImportedTexture where
  width := contents.info.width
  height := contents.info.height
  depthOrLayers := contents.info.depthOrLayers
  levels := contents.info.levels
  format := FormatInfo.ofStored contents.info.format space
  data := ImportReport.ddsTexels contents.info (Dds.texelsOf file contents)

/-- An accepted payload has the size that is computed for its buffer. -/
theorem Dds.payloadSize_of_parse {contents : Contents} (parsed : parse file = .ok contents) :
    contents.info.payloadSize = contents.size := by
  have accepted := accepted_of_parse parsed
  exact (ImageInfo.payloadSize_eq accepted.exactSize_lt).trans accepted.size.symm

namespace ImportReport

/-- The header decides: what is accepted by its header is a replacement, with all of its texels. -/
theorem ofDds_eq (space : ColorSpace) (file : Bytes) :
    ofDds space file = (Dds.parse file).map (.ofContents space file) := by
  unfold ofDds Dds.loadHeader
  cases parsed : Dds.parse file with
  | error error => rfl
  | ok contents =>
    have size := Dds.payloadSize_of_parse parsed
    have room : contents.size ≤ (Bytes.zeros contents.size).length :=
      Nat.le_of_eq (Bytes.length_zeros _).symm
    have full : (Bytes.zeros contents.size).drop contents.size = [] :=
      List.drop_eq_nil_of_le (Nat.le_of_eq (Bytes.length_zeros _))
    have data := Dds.loadData_eq parsed room
    rw [full, List.append_nil, ← size] at data
    simp only [Except.map, bind, Except.bind, data]
    rfl

end ImportReport

namespace FileView

variable {view : FileView}

/-- The first file of a texture's name decides whether there is a DDS file to replace it. -/
theorem dds_outcome_iff
    (provided : view.Provides directories (texture.fileName .dds).render file) :
    (view.dds directories texture).outcome = .replaced imported ↔
      ImportReport.ofDds texture.format.colorSpace file = .ok imported := by
  obtain ⟨path, found, held⟩ := provided
  unfold dds
  simp only [found, held]
  cases ImportReport.ofDds texture.format.colorSpace file with
  | error error => simp [ImportReport.failed]
  | ok own => simp

end FileView
end TextureCache
