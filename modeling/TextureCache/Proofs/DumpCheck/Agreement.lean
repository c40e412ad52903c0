import TextureCache.Proofs.DumpCheck
import TextureCache.Proofs.Import.Stored

/-! The check and the search agree on DDS files. The check reads no more than a header, while the
search goes on to the payload; but a header is accepted only with its payload, and a name tells the
extents that the texture has. -/
namespace TextureCache

variable {files : FileSystem} {directory : Path} {texture : Texture} {file : Bytes}

def ImportedTexture.FitsExtents (imported : ImportedTexture) (texture : Texture) : Prop :=
  imported.width = texture.shape.width ∧ imported.height = texture.shape.height ∧
    imported.depthOrLayers = texture.shape.depthOrLayers

namespace Texture

theorem promise_fileName (texture : Texture) (container : Container) :
    (texture.fileName container).promise =
      (texture.shape.width.toNat, texture.shape.height.toNat, texture.shape.depthOrLayers) := rfl

/-- A DDS file passes under the name of a texture if what it holds has the texture's extents. -/
theorem check_fileName_dds (texture : Texture) (space : ColorSpace) (file : Bytes) :
    (texture.fileName .dds).check (.ok file) = none ↔
      ∃ imported, ImportReport.ofDds space file = .ok imported ∧ imported.FitsExtents texture := by
  have header : (texture.fileName .dds).loadHeader file = (Dds.parse file).map Dds.Contents.info :=
    rfl
  rw [FileName.check_eq_none_iff, header, promise_fileName, ImportReport.ofDds_eq]
  cases Dds.parse file with
  | error error => simp [Except.map]
  | ok contents =>
    simp only [Except.map, Except.ok.injEq, exists_eq_left', Prod.mk.injEq, UInt32.toNat_inj,
      ImportedTexture.FitsExtents, ImportedTexture.ofContents,
      eq_comm (a := contents.info.width), eq_comm (a := contents.info.height),
      eq_comm (a := contents.info.depthOrLayers)]

end Texture

namespace DumpCheck

/-- A file that can be read is among the regular files of its directory. -/
private theorem file?_of_read {name : String}
    (held : files.read (directory.join name) = .ok file) :
    (DirectoryView.ofFiles files).file? directory (.unicode name) =
      some ⟨(directory.join name).text, .unicode name, .ok file⟩ := by
  rw [file?_ofFiles, if_pos (FileSystem.isFile_of_read held), held]
  rfl

/-- Whatever bytes stand under the name of a texture, the check takes the file for a dump of that
texture, and it is valid if and only if the search in its directory comes back with a replacement of
the extents and the slice count that the texture has. -/
theorem valid_iff_imported
    (stored : files.read (directory.join (texture.fileName .dds).render) = .ok file) :
    FileName.parse? (texture.fileName .dds).render = some (texture.fileName .dds) ∧
      ∃ entry, (DirectoryView.ofFiles files).file? directory
          (.unicode (texture.fileName .dds).render) = some entry ∧
        (entry.verdict = .valid ↔ (texture.fileName .dds).check (.ok file) = none) ∧
        (entry.verdict = .valid ↔ ∃ imported,
          ((FileView.ofFiles files).dds [directory] texture).outcome = .replaced imported ∧
            imported.width = texture.shape.width ∧ imported.height = texture.shape.height ∧
            imported.depthOrLayers = texture.shape.depthOrLayers) := by
  have named := (texture.fileName .dds).parse?_render
  have verdict : (⟨(directory.join (texture.fileName .dds).render).text,
      .unicode (texture.fileName .dds).render, .ok file⟩ : Entry).verdict = .valid ↔
        (texture.fileName .dds).check (.ok file) = none :=
    Entry.verdict_eq_valid_iff ((fileName?_unicode _).trans named)
  refine ⟨named, _, file?_of_read stored, verdict, ?_⟩
  rw [verdict, texture.check_fileName_dds texture.format.colorSpace file]
  exact exists_congr fun imported =>
    and_congr_left' (FileView.dds_outcome_iff (FileSystem.provides_of_read stored)).symm

/-- A file of two layers, alone in a tree under their name, is valid, so that it is found as two
layers of the same extents. -/
theorem valid_iff_imported_layers :
    let root := Path.ofNames []
    let texture : Texture :=
      ⟨⟨2, 1, 1, 2, 1⟩, .rgba8 .srgb, .texture2DArray, (List.range 16).map UInt8.ofNat⟩
    let path := root.join (texture.fileName .dds).render
    ∃ file files, Dds.save ⟨2, 1, 2, 1, .rgba8, .flatArray⟩ texture.data = .ok file ∧
      (FileSystem.initial ⟨0⟩).writeAll [(path, file)] = .ok files ∧
      files.read path = .ok file ∧
      ∃ imported, ((FileView.ofFiles files).dds [root] texture).outcome = .replaced imported ∧
        imported.width = 2 ∧ imported.height = 1 ∧ imported.depthOrLayers = 2 := by
  intro root texture path
  obtain ⟨file, saved⟩ : ∃ file,
      Dds.save ⟨2, 1, 2, 1, .rgba8, .flatArray⟩ texture.data = .ok file := ⟨_, rfl⟩
  have success : ((FileSystem.initial ⟨0⟩).writeAll [(path, file)]).toOption.isSome = true := by
    cases saved
    decide +kernel
  cases written : (FileSystem.initial ⟨0⟩).writeAll [(path, file)] with
  | error fault => simp [written, Except.toOption] at success
  | ok files =>
    obtain ⟨_, stored⟩ :=
      FileSystem.read_writeAll written (List.pairwise_singleton _ _) List.mem_cons_self
    have passes : (texture.fileName .dds).check (.ok file) = none := by
      cases saved
      decide +kernel
    obtain ⟨_, entry, _, checked, agreed⟩ :=
      @valid_iff_imported files root texture file stored
    obtain ⟨imported, found, width, height, slices⟩ := agreed.mp (checked.mpr passes)
    exact ⟨file, files, saved, written, stored, imported, found, width, height, slices⟩

end DumpCheck
end TextureCache
