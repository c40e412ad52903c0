import TextureCache.Proofs.Export
import TextureCache.Proofs.FileName
import TextureCache.Proofs.FileSystem.Separate
import TextureCache.Proofs.Png.RoundTrip
import TextureCache.Proofs.Png.Search

/-! Exporting a texture as PNG files and finding it again. What the export plans is one file per
slice, which holds the slice's cut of the decoded texels; the search predicts the extents of all
slices from the first one, and puts the cuts together again in the order in which they were made. -/
namespace TextureCache

variable {texture : Texture} {pixels : Bytes} {codec : Codec} {encoder : Png.Encoder}

/-- The slices of a texture with their cuts of a buffer. -/
def Texture.cuts (texture : Texture) (pixels : Bytes) : List (Slice × Bytes) :=
  texture.shape.rgba8Regions.map fun region =>
    (region.slice, pixels.slice region.offset region.size)

private theorem Texture.map_fst_cuts (texture : Texture) (pixels : Bytes) :
    (texture.cuts pixels).map Prod.fst = texture.shape.slices := by
  rw [cuts, List.map_map]
  exact map_slice_layOut 0 texture.shape.slices

private theorem Texture.cuts_eq_cons (pixels : Bytes) (mipped : 1 ≤ texture.shape.levels)
    (filled : 1 < texture.shape.depth ∨ 1 ≤ texture.shape.layers) :
    ∃ first rest, texture.cuts pixels = first :: rest ∧ first.1 =
      ⟨0, 0, mipExtent texture.shape.width.toNat 0, mipExtent texture.shape.height.toNat 0⟩ := by
  obtain ⟨others, slices⟩ := Shape.slices_eq_cons mipped filled
  rw [← texture.map_fst_cuts pixels] at slices
  obtain ⟨first, rest, listed, top, _⟩ := List.map_eq_cons_iff.mp slices
  exact ⟨first, rest, listed, top⟩

private theorem Texture.flatten_cuts (whole : pixels.length = texture.shape.rgba8Size) :
    ((texture.cuts pixels).map Prod.snd).flatten = pixels := by
  rw [cuts, List.map_map, ← List.flatMap_def]
  refine (flatMap_slice_layOut 0 texture.shape.slices pixels).trans ?_
  rw [← Shape.rgba8Size_eq_sum, ← whole]
  exact List.take_length

namespace Shape

/-- The top level of a volume has its depth in slices, that of another texture its layers. -/
theorem ofNat_slicesAt_zero (shape : Shape) :
    UInt32.ofNat (shape.slicesAt 0) = if 1 < shape.depth then shape.depth else shape.layers := by
  unfold slicesAt isVolume
  by_cases volume : 1 < shape.depth
  · have deep : 1 ≤ shape.depth.toNat := Nat.le_of_lt (UInt32.lt_iff_toNat_lt.mp volume)
    rw [if_pos volume, if_pos (decide_eq_true volume), mipExtent_zero, Nat.max_eq_right deep,
      UInt32.ofNat_toNat]
  · rw [if_neg volume, if_neg (by simpa using volume), UInt32.ofNat_toNat]

private theorem extents_of_mem_slices {shape : Shape} {slice : Slice}
    (member : slice ∈ shape.slices) :
    (UInt32.ofNat slice.width).toNat = slice.width ∧
      (UInt32.ofNat slice.height).toNat = slice.height ∧
      UInt32.ofNat slice.width ≠ 0 ∧ UInt32.ofNat slice.height ≠ 0 := by
  obtain ⟨_, _, wide, high⟩ := mem_slices_iff.mp member
  have kept (extent : UInt32) (level : Nat) :
      (UInt32.ofNat (mipExtent extent.toNat level)).toNat = mipExtent extent.toNat level :=
    toNat_ofNat_mipExtent _ _
  have some (extent : UInt32) (level : Nat) :
      UInt32.ofNat (mipExtent extent.toNat level) ≠ 0 := by
    rw [Ne, ← UInt32.toNat_inj, kept]
    exact Nat.ne_of_gt (mipExtent_pos _ _)
  rw [wide, high]
  exact ⟨kept _ _, kept _ _, some _ _, some _ _⟩

end Shape

namespace ExportJob

theorem pngDrafts_of_enough {regions : List Region}
    (enough : ∀ region ∈ regions, region.offset + region.size ≤ pixels.length) :
    pngDrafts codec texture pixels regions =
      ⟨false, regions.map (pngDraft codec texture pixels), .complete⟩ := by
  induction regions with
  | nil => rfl
  | cons region rest ih =>
    have inside := enough region List.mem_cons_self
    rw [pngDrafts, if_neg (Nat.not_lt.mpr inside),
      ih fun other member => enough other (List.mem_cons_of_mem _ member)]
    rfl

/-- What is written of a slice is as much as its extents ask for. -/
theorem length_slice_of_mem {region : Region} (member : region ∈ texture.shape.rgba8Regions)
    (whole : pixels.length = texture.shape.rgba8Size) :
    (pixels.slice region.offset region.size).length =
      region.slice.width * region.slice.height * 4 := by
  obtain ⟨_, size, _, stop⟩ := bounds_of_mem_layOut member
  rw [← Shape.rgba8Size_eq_sum, Nat.zero_add, ← whole] at stop
  rw [Bytes.length_slice_of_le stop, size]
  rfl

theorem pngDraft_of_mem (faithful : encoder.Faithful) {region : Region}
    (member : region ∈ texture.shape.rgba8Regions)
    (whole : pixels.length = texture.shape.rgba8Size)
    (fits : texture.shape.rgba8Size ≤ bufferLimit) :
    ∃ file width height,
      (pngDraft (.standard encoder) texture pixels region).contents = .ok file ∧
      Png.loadHeader file = .ok (.rgba8 width height) ∧
      width.toNat = region.slice.width ∧ height.toNat = region.slice.height ∧
      Png.loadPixels file = .ok (pixels.slice region.offset region.size) := by
  obtain ⟨inside, size, _, stop⟩ := bounds_of_mem_layOut member
  obtain ⟨width, height, someWidth, someHeight⟩ := Shape.extents_of_mem_slices inside
  have cut := length_slice_of_mem member whole
  have small : region.slice.width * region.slice.height * 4 ≤ bufferLimit := by
    have size : region.size = region.slice.width * region.slice.height * 4 := size
    rw [← Shape.rgba8Size_eq_sum, Nat.zero_add] at stop
    omega
  rw [← cut] at small
  have exact := cut
  rw [← width, ← height] at exact
  obtain ⟨file, saved, header, content⟩ := faithful _ _ _ someWidth someHeight exact
    (Nat.lt_of_le_of_lt small (by decide))
  exact ⟨file, _, _, (Png.save_of_exact encoder exact).trans saved, header, width, height,
    content small⟩

/-- Whatever the size of a slice, its file can be written and tells its extents. -/
theorem loadHeader_pngDraft (tells : encoder.TellsSize) {region : Region}
    (member : region ∈ texture.shape.rgba8Regions)
    (whole : pixels.length = texture.shape.rgba8Size) (fits : texture.shape.rgba8Size < wordLimit) :
    ∃ file width height,
      (pngDraft (.standard encoder) texture pixels region).contents = .ok file ∧
      Png.loadHeader file = .ok (.rgba8 width height) ∧
      width.toNat = region.slice.width ∧ height.toNat = region.slice.height := by
  obtain ⟨inside, size, _, stop⟩ := bounds_of_mem_layOut member
  obtain ⟨width, height, someWidth, someHeight⟩ := Shape.extents_of_mem_slices inside
  have cut := length_slice_of_mem member whole
  have within : region.slice.width * region.slice.height * 4 < wordLimit := by
    have size : region.size = region.slice.width * region.slice.height * 4 := size
    rw [← Shape.rgba8Size_eq_sum, Nat.zero_add] at stop
    omega
  rw [← cut] at within
  have exact := cut
  rw [← width, ← height] at exact
  obtain ⟨file, saved, header⟩ := tells _ _ _ someWidth someHeight exact within
  exact ⟨file, _, _, (Png.save_of_exact encoder exact).trans saved, header, width, height⟩

theorem writes_of_png {job : ExportJob} (container : job.container = .png)
    (supported : job.texture.format.isSupported = true)
    (decoded : job.texture.toRgba8 = .ok pixels) :
    job.writes (.standard encoder) = job.texture.shape.rgba8Regions.map fun region =>
      (job.directory.join (job.texture.sliceName region.slice.level region.slice.index).render,
        (pngDraft (.standard encoder) job.texture pixels region).contents.toOption.getD []) := by
  have whole := Texture.length_toRgba8 decoded
  have complete : pngDrafts (.standard encoder) job.texture pixels job.texture.shape.rgba8Regions =
      ⟨false, job.texture.shape.rgba8Regions.map (pngDraft (.standard encoder) job.texture pixels),
        .complete⟩ := by
    apply pngDrafts_of_enough
    intro region member
    obtain ⟨_, _, _, stop⟩ := bounds_of_mem_layOut member
    rwa [← Shape.rgba8Size_eq_sum, Nat.zero_add, ← whole] at stop
  unfold writes plan planPng ExportPlan.ofDecoded
  simp only [supported, container, if_true, Codec.standard, decoded] at complete ⊢
  rw [complete]
  dsimp only
  rw [List.map_map]
  rfl

private theorem map_fst_writes_of_png {job : ExportJob} (container : job.container = .png)
    (supported : job.texture.format.isSupported = true)
    (decoded : job.texture.toRgba8 = .ok pixels) :
    (job.writes (.standard encoder)).map Prod.fst =
      job.texture.sliceNames.map job.directory.join := by
  rw [writes_of_png container supported decoded, List.map_map, Texture.sliceNames, List.map_map,
    ← @map_slice_layOut rgba8SliceSize 0 job.texture.shape.slices, List.map_map]
  rfl

theorem separates_sliceNames {job : ExportJob} {before after : FileSystem}
    (container : job.container = .png) (supported : job.texture.format.isSupported = true)
    (decoded : job.texture.toRgba8 = .ok pixels) (unlinked : before.Unlinked)
    (written : before.writeAll (job.writes (.standard encoder)) = .ok after) :
    after.Separates job.directory job.texture.sliceNames := by
  apply FileSystem.separates_of_unlinked unlinked written
    (map_fst_writes_of_png container supported decoded)
  intro name member
  obtain ⟨slice, _, rfl⟩ := List.mem_map.mp member
  exact FileName.ofSegment_render _

end ExportJob

/-- A search comes upon the file of a slice, and it holds the slice's pixels. -/
def FileView.Finds (view : FileView) (directories : List Path) (texture : Texture) (slice : Slice)
    (pixels : Bytes) : Prop :=
  ∃ file width height, view.sliceFile? directories texture slice = some file ∧
    Png.loadHeader file = .ok (.rgba8 width height) ∧ width.toNat = slice.width ∧
    height.toNat = slice.height ∧ Png.loadPixels file = .ok pixels

namespace ExportJob

/-- The search comes upon every slice whose file is held as it was planned. -/
theorem finds_of_held {job : ExportJob} {files : FileSystem} {directories : List Path}
    (faithful : encoder.Faithful) (container : job.container = .png)
    (supported : job.texture.format.isSupported = true) (decoded : job.texture.toRgba8 = .ok pixels)
    (fits : job.texture.shape.rgba8Size ≤ bufferLimit)
    (held : ∀ path file, (path, file) ∈ job.writes (.standard encoder) →
      files.isFile path = true ∧ files.read path = .ok file)
    (first : ∀ name ∈ job.texture.sliceNames, files.IsFirst directories job.directory name)
    {pair : Slice × Bytes} (member : pair ∈ job.texture.cuts pixels) :
    (FileView.ofFiles files).Finds directories job.texture pair.1 pair.2 := by
  obtain ⟨region, inside, rfl⟩ := List.mem_map.mp member
  obtain ⟨file, width, height, saved, header, wide, high, content⟩ :=
    pngDraft_of_mem faithful inside (Texture.length_toRgba8 decoded) fits
  have kept : (job.directory.join
      (job.texture.sliceName region.slice.level region.slice.index).render, file) ∈
      job.writes (.standard encoder) := by
    rw [writes_of_png container supported decoded]
    exact List.mem_map.mpr ⟨region, inside, by rw [saved]; rfl⟩
  obtain ⟨isFile, own⟩ := held _ _ kept
  have named : (job.texture.sliceName region.slice.level region.slice.index).render ∈
      job.texture.sliceNames :=
    List.mem_map.mpr ⟨region.slice, (bounds_of_mem_layOut inside).1, rfl⟩
  have found := FileSystem.firstMatch?_of_isFirst (first _ named) isFile
  exact ⟨file, width, height,
    Option.bind_eq_some_iff.mpr ⟨_, found, toOption_eq_some_iff.mpr own⟩, header, wide, high,
    content⟩

private theorem finds_of_writeAll {job : ExportJob} {before after : FileSystem}
    {directories : List Path} (faithful : encoder.Faithful) (container : job.container = .png)
    (supported : job.texture.format.isSupported = true) (decoded : job.texture.toRgba8 = .ok pixels)
    (fits : job.texture.shape.rgba8Size ≤ bufferLimit)
    (written : before.writeAll (job.writes (.standard encoder)) = .ok after)
    (separate : after.Separates job.directory job.texture.sliceNames)
    (first : ∀ name ∈ job.texture.sliceNames, after.IsFirst directories job.directory name)
    {pair : Slice × Bytes} (member : pair ∈ job.texture.cuts pixels) :
    (FileView.ofFiles after).Finds directories job.texture pair.1 pair.2 := by
  have paths : (job.writes (.standard encoder)).map Prod.fst =
      job.texture.sliceNames.map job.directory.join :=
    map_fst_writes_of_png container supported decoded
  have apart := FileSystem.apart_of_separates separate (Texture.nodup_sliceNames _) paths
  exact finds_of_held faithful container supported decoded fits
    (fun _ _ kept => FileSystem.read_writeAll written apart kept) first member

end ExportJob

namespace Shape

/-- The extents of the top level, which are those of the shape unless they are zero. -/
def topWidth (shape : Shape) : UInt32 := UInt32.ofNat (mipExtent shape.width.toNat 0)

def topHeight (shape : Shape) : UInt32 := UInt32.ofNat (mipExtent shape.height.toNat 0)

theorem toNat_topWidth (shape : Shape) : shape.topWidth.toNat = max 1 shape.width.toNat := by
  rw [topWidth, toNat_ofNat_mipExtent, mipExtent_zero]

theorem toNat_topHeight (shape : Shape) : shape.topHeight.toNat = max 1 shape.height.toNat := by
  rw [topHeight, toNat_ofNat_mipExtent, mipExtent_zero]

private theorem mipExtent_top (shape : Shape) (level : Nat) :
    mipExtent shape.topWidth.toNat level = mipExtent shape.width.toNat level ∧
      mipExtent shape.topHeight.toNat level = mipExtent shape.height.toNat level := by
  rw [toNat_topWidth, toNat_topHeight, mipExtent_max_one, mipExtent_max_one]
  exact ⟨rfl, rfl⟩

private theorem rgba8Size_top (shape : Shape) :
    (shape.resized shape.topWidth shape.topHeight).rgba8Size = shape.rgba8Size := by
  have level (index : Nat) :
      (shape.resized shape.topWidth shape.topHeight).level index = shape.level index := by
    obtain ⟨width, height⟩ := shape.mipExtent_top index
    unfold Shape.level
    exact congrArg₂ (Level.mk index · · (shape.slicesAt index)) width height
  unfold rgba8Size mipChain
  rw [List.map_congr_left fun index _ => level index]
  rfl

end Shape

namespace FileView

variable {view : FileView} {directories : List Path} {slice : Slice}

private theorem usable?_of_finds (member : slice ∈ texture.shape.slices)
    (finds : view.Finds directories texture slice pixels) :
    view.usable? directories texture texture.shape.topWidth texture.shape.topHeight slice =
      some pixels := by
  obtain ⟨file, width, height, held, header, wide, high, content⟩ := finds
  obtain ⟨_, _, across, down⟩ := Shape.mem_slices_iff.mp member
  obtain ⟨topWidth, topHeight⟩ := texture.shape.mipExtent_top slice.level
  refine (usable?_of_file held).mpr ⟨⟨_, header, ?_⟩, content⟩
  rw [topWidth, topHeight, ← across, ← down]
  exact ⟨wide, high⟩

private theorem usablePrefix_of_all {width height : UInt32} {found : List (Slice × Bytes)}
    (usable : ∀ pair ∈ found,
      view.usable? directories texture width height pair.1 = some pair.2) :
    view.usablePrefix directories texture width height (found.map Prod.fst) = found := by
  induction found with
  | nil => rfl
  | cons pair rest ih =>
    obtain ⟨own, others⟩ := List.forall_mem_cons.mp usable
    rw [List.map_cons, usablePrefix_cons_of_usable _ own, ih others]

/-- A search that comes upon all slices finds the buffer of which they are the cuts. -/
theorem png_of_cuts (mipped : 1 ≤ texture.shape.levels)
    (filled : 1 < texture.shape.depth ∨ 1 ≤ texture.shape.layers)
    (whole : pixels.length = texture.shape.rgba8Size)
    (fits : texture.shape.rgba8Size ≤ bufferLimit)
    (finds : ∀ pair ∈ texture.cuts pixels, view.Finds directories texture pair.1 pair.2) :
    directories ≠ [] ∧ (view.png directories texture).outcome = .replaced {
      width := texture.shape.topWidth
      height := texture.shape.topHeight
      depthOrLayers := UInt32.ofNat (texture.shape.slicesAt 0)
      levels := texture.shape.levels
      format := FormatInfo.rgba8 texture.format.colorSpace
      data := pixels } := by
  have cuts := texture.map_fst_cuts pixels
  obtain ⟨first, rest, listed, top⟩ := Texture.cuts_eq_cons pixels mipped filled
  have slices : texture.shape.slices = first.1 :: rest.map Prod.fst := by rw [← cuts, listed]; rfl
  have extents : view.extents? directories texture first.1 =
      some (texture.shape.topWidth, texture.shape.topHeight) := by
    obtain ⟨file, width, height, held, header, wide, high, _⟩ :=
      finds first (listed ▸ List.mem_cons_self)
    rw [top] at wide high
    refine extents?_eq_some_iff.mpr ⟨file, _, held, header, Prod.ext ?_ ?_⟩
    · exact UInt32.toNat_inj.mp (wide.trans (toNat_ofNat_mipExtent _ _).symm)
    · exact UInt32.toNat_inj.mp (high.trans (toNat_ofNat_mipExtent _ _).symm)
  have run : view.usablePrefix directories texture texture.shape.topWidth texture.shape.topHeight
      texture.shape.slices = texture.cuts pixels := by
    rw [← cuts]
    exact usablePrefix_of_all fun pair member =>
      usable?_of_finds (cuts ▸ List.mem_map_of_mem member) (finds pair member)
  refine ⟨ne_nil_of_extents extents, ?_⟩
  obtain ⟨_, ⟨broken, _⟩ | ⟨_, imported, replaced, made⟩⟩ :=
    png_of_fits slices extents (texture.shape.rgba8Size_top.trans_le fits)
  · obtain ⟨slice, behind, _⟩ := broken
    rw [run, ← cuts, List.drop_eq_nil_of_le (by rw [List.length_map])] at behind
    cases behind
  · have complete := texture.shape.length_levelsWithin_slices
    have some : 0 < texture.shape.levels.toNat := UInt32.le_iff_toNat_le.mp mipped
    rw [run] at made
    rw [← cuts] at complete
    obtain ⟨levels, count, _, data⟩ := made.complete _ complete some
    rw [List.filter_eq_self.mpr, List.flatMap_def, Texture.flatten_cuts whole] at data
    · have slices : imported.depthOrLayers = UInt32.ofNat (texture.shape.slicesAt 0) := by
        rw [← count, UInt32.ofNat_toNat]
      obtain ⟨width, height, format, _, _⟩ := made
      refine replaced.trans (congrArg _ ?_)
      rw [← width, ← height, ← format, ← data, ← slices, ← UInt32.toNat_inj.mp levels]
    · intro pair member
      have inside : pair.1 ∈ texture.shape.slices := cuts ▸ List.mem_map_of_mem member
      exact decide_eq_true (Shape.mem_slices_iff.mp inside).1

theorem search_of_cuts (supported : texture.format.isSupported = true)
    (mipped : 1 ≤ texture.shape.levels)
    (filled : 1 < texture.shape.depth ∨ 1 ≤ texture.shape.layers)
    (whole : pixels.length = texture.shape.rgba8Size)
    (fits : texture.shape.rgba8Size ≤ bufferLimit)
    (missing : ∀ directory ∈ directories,
      view.isFile (directory.join (texture.fileName .dds).render) = false)
    (finds : ∀ pair ∈ texture.cuts pixels, view.Finds directories texture pair.1 pair.2) :
    (view.search directories texture).outcome = .replaced {
      width := texture.shape.topWidth
      height := texture.shape.topHeight
      depthOrLayers := UInt32.ofNat (texture.shape.slicesAt 0)
      levels := texture.shape.levels
      format := FormatInfo.rgba8 texture.format.colorSpace
      data := pixels } := by
  obtain ⟨some, png⟩ := png_of_cuts mipped filled whole fits finds
  have none : view.firstMatch? directories (texture.fileName .dds).render = none := by
    simpa [firstMatch?] using missing
  have unstored : (view.dds directories texture).outcome = .nothing := by
    unfold dds
    simp only [none]
    rfl
  exact (outcome_search_of_unstored supported some unstored).trans png

end FileView

namespace Workspace

/-- A texture that is exported slice by slice is found again as what it is decoded to, as long as
no two slices end up in one file. -/
theorem import_export_png (encoder : Png.Encoder) (faithful : encoder.Faithful)
    (workspace : Workspace) (job : ExportJob) (directories : List Path) (handle : Handle)
    (files : FileSystem) (container : job.container = .png)
    (supported : job.texture.format.isSupported = true) (mipped : 1 ≤ job.texture.shape.levels)
    (filled : 1 < job.texture.shape.depth ∨ 1 ≤ job.texture.shape.layers)
    (enough : job.texture.nativeSize ≤ job.texture.data.length)
    (fits : job.texture.shape.rgba8Size ≤ bufferLimit)
    (written : workspace.files.writeAll (job.writes (.standard encoder)) = .ok files)
    (separate : files.Separates job.directory job.texture.sliceNames)
    (missing : ∀ directory ∈ directories,
      files.isFile (directory.join (job.texture.fileName .dds).render) = false)
    (first : ∀ name ∈ job.texture.sliceNames, files.IsFirst directories job.directory name) :
    ∃ imported, ((workspace.exportTexture (.standard encoder) job).1.importTexture directories
        handle job.texture).2 = .replaced imported ∧
      imported.width.toNat = max 1 job.texture.shape.width.toNat ∧
      imported.height.toNat = max 1 job.texture.shape.height.toNat ∧
      imported.depthOrLayers = (if 1 < job.texture.shape.depth then job.texture.shape.depth
        else job.texture.shape.layers) ∧
      imported.levels = job.texture.shape.levels ∧
      imported.format = FormatInfo.rgba8 job.texture.format.colorSpace ∧
      job.texture.toRgba8 = .ok imported.data := by
  obtain ⟨pixels, decoded⟩ := Texture.exists_toRgba8 supported enough
  have left := files_exportTexture written
  have found := FileView.search_of_cuts supported mipped filled (Texture.length_toRgba8 decoded)
    fits missing fun _ member => ExportJob.finds_of_writeAll faithful container supported decoded
      fits written separate first member
  rw [← left, ← importTexture_outcome _ directories handle] at found
  exact ⟨_, found, job.texture.shape.toNat_topWidth, job.texture.shape.toNat_topHeight,
    job.texture.shape.ofNat_slicesAt_zero, rfl, rfl, decoded⟩

/-- Two levels of a volume, exported to the root of an empty tree and found there. -/
theorem import_export_png_volume :
    let texels := (List.range 20).map UInt8.ofNat
    let texture : Texture := ⟨⟨2, 1, 2, 0, 2⟩, .rgba8 .srgb, .texture3D, texels⟩
    let job : ExportJob := ⟨⟨7⟩, texture, .ofNames [], .png⟩
    let workspace := ofFiles (.initial ⟨0⟩)
    ∃ imported, ((workspace.exportTexture (.standard Png.stored) job).1.importTexture
        [.ofNames []] ⟨7⟩ texture).2 = .replaced imported ∧
      imported.depthOrLayers = 2 ∧ imported.data = texels := by
  intro texels texture job workspace
  have missing : (workspace.files.writeAll (job.writes (.standard Png.stored))).toOption.map
      (·.isFile ((Path.ofNames []).join (texture.fileName .dds).render)) = some false := by
    decide +kernel
  cases written : workspace.files.writeAll (job.writes (.standard Png.stored)) with
  | error fault =>
    rw [written] at missing
    cases missing
  | ok files =>
    rw [written] at missing
    have decoded : texture.toRgba8 = .ok texels := by decide
    obtain ⟨imported, found, _, _, slices, _, _, content⟩ :=
      import_export_png Png.stored Png.faithful_stored workspace job [.ofNames []] ⟨7⟩ files rfl rfl
        (by decide) (by decide) (by decide) (by decide) written
        (ExportJob.separates_sliceNames rfl rfl decoded (FileSystem.unlinked_initial ⟨0⟩) written)
        (by
          intro directory member
          cases List.mem_singleton.mp member
          exact Option.some.inj missing)
        (fun name _ => ⟨[], [], rfl, fun _ member => nomatch member⟩)
    exact ⟨imported, found, slices, Except.ok.inj (content.symm.trans decoded)⟩

/-- Where the name of one slice is a link to that of another, all writes succeed and all names are
found, but both slices are found with the pixels that were written last. -/
theorem import_export_png_linked :
    let texture : Texture :=
      ⟨⟨1, 1, 1, 2, 1⟩, .rgba8 .linear, .texture2DArray, [1, 2, 3, 4, 5, 6, 7, 8]⟩
    let directory := Path.ofNames ["d"]
    let job : ExportJob := ⟨⟨7⟩, texture, directory, .png⟩
    let linked := ((FileSystem.initial ⟨0⟩).setNode ["d"] (.directory ⟨0⟩)).setNode
      ["d", (texture.sliceName 0 1).render] (.link (directory.join (texture.sliceName 0 0).render))
    texture.format.isSupported = true ∧ 1 ≤ texture.shape.levels ∧ 1 ≤ texture.shape.layers ∧
      texture.nativeSize ≤ texture.data.length ∧ texture.shape.rgba8Size ≤ bufferLimit ∧
      ∃ files imported, linked.writeAll (job.writes (.standard Png.stored)) = .ok files ∧
        files.isFile (directory.join (texture.fileName .dds).render) = false ∧
        (∀ name ∈ texture.sliceNames, files.isFile (directory.join name) = true ∧
          files.IsFirst [directory] directory name) ∧
        (((ofFiles linked).exportTexture (.standard Png.stored) job).1.importTexture [directory] ⟨7⟩
          texture).2 = .replaced imported ∧
        imported.data = [5, 6, 7, 8, 5, 6, 7, 8] ∧ texture.toRgba8 ≠ .ok imported.data := by
  intro texture directory job linked
  have tested : (linked.writeAll (job.writes (.standard Png.stored))).toOption.map (fun files =>
      (files.isFile (directory.join (texture.fileName .dds).render),
        texture.sliceNames.all fun name => files.isFile (directory.join name))) =
      some (false, true) := by
    decide +kernel
  have outcome : (((ofFiles linked).exportTexture (.standard Png.stored) job).1.importTexture
      [directory] ⟨7⟩ texture).2 = .replaced
        ⟨1, 1, 2, 1, FormatInfo.rgba8 .linear, [5, 6, 7, 8, 5, 6, 7, 8]⟩ := by
    decide +kernel
  cases written : linked.writeAll (job.writes (.standard Png.stored)) with
  | error fault =>
    rw [written] at tested
    cases tested
  | ok files =>
    rw [written] at tested
    obtain ⟨missing, present⟩ := Prod.mk.inj (Option.some.inj tested)
    refine ⟨rfl, by decide, by decide, by decide, by decide, files, _,
      rfl, missing, ?_, outcome, rfl, by decide⟩
    intro name member
    exact ⟨List.all_eq_true.mp present name member, [], [], rfl, fun _ inside => nomatch inside⟩

end Workspace
end TextureCache
