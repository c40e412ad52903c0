import TextureCache.Proofs.Png.Search

/-! What a search for slices makes of any directories. With a usable first slice the replacement
holds the complete levels of the longest run of usable slices, or else the run itself, and all
pixels come from one buffer in which no access leaves its bounds. Two things keep a search from
ending: a buffer larger than any can be, and a file whose reader breaks off. -/
namespace TextureCache

namespace FileView

variable {view : FileView} {directories : List Path} {texture : Texture}

theorem outcome_png_ne_range (view : FileView) (directories : List Path) (texture : Texture) :
    (view.png directories texture).outcome ≠ .broken .range := by
  cases slices : texture.shape.slices with
  | nil =>
    rw [png_of_empty slices]
    nofun
  | cons first rest =>
    cases extents : view.extents? directories texture first with
    | none =>
      rw [(png_of_headless slices extents).1]
      nofun
    | some told =>
      obtain ⟨width, height⟩ := told
      rcases Nat.lt_or_ge bufferLimit (texture.shape.resized width height).rgba8Size with
        large | fits
      · rw [png_of_large slices extents large]
        nofun
      · obtain ⟨_, ⟨_, broken⟩ | ⟨_, imported, replaced, _⟩⟩ := png_of_fits slices extents fits
        · rw [broken]
          nofun
        · rw [replaced]
          nofun

end FileView

namespace Workspace

/-- Whatever an import sees, its search for slices stays within its buffer. Without a DDS file it
imports exactly what the longest run of usable slices makes up, unless the buffer would be too large
or the reader of the slice behind that run breaks off. -/
theorem import_longest_run (workspace : Workspace) (view : FileView) (directories : List Path)
    (handle : Handle) (texture : Texture) :
    let outcome := (workspace.importFrom view directories handle texture).2
    (view.png directories texture).outcome ≠ .broken .range ∧
    (texture.format.isSupported = true → (view.dds directories texture).outcome = .nothing →
      ∀ first width height, texture.shape.slices.head? = some first →
        view.extents? directories texture first = some (width, height) →
        (view.usable? directories texture width height first).isSome →
        let slices := texture.shape.slices
        let found := view.usablePrefix directories texture width height slices
        let size := (texture.shape.resized width height).rgba8Size
        let breaks := view.BreaksBehind directories texture width height slices
        (size ≤ bufferLimit → ¬ breaks → ∃ imported, outcome = .replaced imported ∧
          FileView.MadeOf texture width height found imported) ∧
        (size ≤ bufferLimit → breaks → outcome = .broken .reader) ∧
        (bufferLimit < size → outcome = .broken .capacity)) := by
  intro outcome
  refine ⟨FileView.outcome_png_ne_range view directories texture, ?_⟩
  intro supported unstored first width height top extents _
  obtain ⟨rest, slices⟩ := List.head?_eq_some_iff.mp top
  have result : outcome = (view.png directories texture).outcome :=
    FileView.outcome_search_of_unstored supported (FileView.ne_nil_of_extents extents) unstored
  intro all found size breaks
  rw [result]
  refine ⟨fun fits ends => ?_, fun fits broken => ?_, fun large => ?_⟩
  · obtain ⟨_, ⟨broken, _⟩ | ⟨_, made⟩⟩ := FileView.png_of_fits slices extents fits
    · exact absurd broken ends
    · exact made
  · obtain ⟨_, ⟨_, outcome⟩ | ⟨whole, _⟩⟩ := FileView.png_of_fits slices extents fits
    · exact outcome
    · exact absurd broken whole
  · rw [FileView.png_of_large slices extents large]

/-- Two layers of a texture of one texel; the second one is not there. -/
theorem import_longest_run_layer :
    let texture : Texture :=
      ⟨⟨1, 1, 1, 2, 1⟩, .rgba8 .linear, .texture2DArray, [1, 2, 3, 4, 5, 6, 7, 8]⟩
    let files := (FileSystem.initial ⟨0⟩).setNode [(texture.sliceName 0 0).render]
      (.file ((Png.save Png.stored 1 1 [9, 8, 7, 6]).toOption.getD []) ⟨0⟩)
    ∃ imported, ((ofFiles files).importTexture [.ofNames []] ⟨7⟩ texture).2 = .replaced imported ∧
      imported.depthOrLayers.toNat = 1 ∧ imported.data = [9, 8, 7, 6] := by
  intro texture files
  let view := FileView.ofFiles files
  have run : view.usablePrefix [.ofNames []] texture 1 1 texture.shape.slices =
      [(⟨0, 0, 1, 1⟩, [9, 8, 7, 6])] := by
    decide +kernel
  have ends : ¬ view.BreaksBehind [.ofNames []] texture 1 1 texture.shape.slices := by
    rintro ⟨slice, next, file, there, _⟩
    rw [run] at next
    cases next
    have missing : view.sliceFile? [.ofNames []] texture ⟨0, 1, 1, 1⟩ = none := by
      decide +kernel
    cases missing.symm.trans there
  obtain ⟨imported, outcome, made⟩ :=
    ((import_longest_run (ofFiles files) view [.ofNames []] ⟨7⟩ texture).2 rfl (by decide +kernel)
      ⟨0, 0, 1, 1⟩ 1 1 (by decide) (by decide +kernel) (by decide +kernel)).1 (by decide) ends
  rw [run] at made
  obtain ⟨_, _, slices, data⟩ := made.started (by decide)
  exact ⟨imported, outcome, slices, data⟩

/-- The first layer of a texture is usable. The file of the second one is an indexed image with a
palette of four bytes, on which the reader breaks off, and the first layer is lost with it. -/
theorem import_longest_run_palette :
    let texture : Texture :=
      ⟨⟨1, 1, 1, 2, 1⟩, .rgba8 .linear, .texture2DArray, [1, 2, 3, 4, 5, 6, 7, 8]⟩
    let indexed := Png.signature ++
      Png.chunk Png.Kind.header (Bytes.bigEndian 4 1 ++ Bytes.bigEndian 4 1 ++ [8, 3, 0, 0, 0]) ++
      Png.chunk Png.Kind.palette [1, 2, 3, 4] ++
      Png.chunk Png.Kind.imageData (Deflate.store [0, 0]) ++ Png.chunk Png.Kind.fileEnd []
    let files := ((FileSystem.initial ⟨0⟩).setNode [(texture.sliceName 0 0).render]
        (.file ((Png.save Png.stored 1 1 [9, 8, 7, 6]).toOption.getD []) ⟨0⟩)).setNode
      [(texture.sliceName 0 1).render] (.file indexed ⟨0⟩)
    let view := FileView.ofFiles files
    let directories := [Path.ofNames []]
    texture.format.isSupported = true ∧
      (view.dds directories texture).outcome = .nothing ∧
      view.extents? directories texture ⟨0, 0, 1, 1⟩ = some (1, 1) ∧
      view.usablePrefix directories texture 1 1 texture.shape.slices =
        [(⟨0, 0, 1, 1⟩, [9, 8, 7, 6])] ∧
      ((ofFiles files).importTexture directories ⟨7⟩ texture).2 = .broken .reader := by
  decide +kernel

end Workspace
end TextureCache
