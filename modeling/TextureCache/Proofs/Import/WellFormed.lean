import TextureCache.Proofs.Import.Stored
import TextureCache.Proofs.Png.Longest

/-! Every replacement that a search finds is well formed: none of its counts is zero, and its texels
fill exactly the layout that it describes. What a DDS file holds is checked against its header; what
slices make up is measured by the extents of the first one. A first slice of which only the header
can be read is the exception: the search has its extents, and takes no texels for a replacement. -/
namespace TextureCache

/-- The bytes of a slice in blocks of a format; a texel is a block of its own where there are
none. -/
def FormatInfo.sliceSize (format : FormatInfo) (width height : Nat) : Nat :=
  divCeil width format.blockWidth * divCeil height format.blockHeight * format.bytesPerPixel

private theorem FormatInfo.sliceSize_ofStored (stored : StoredFormat) (space : ColorSpace)
    (width height : Nat) :
    (FormatInfo.ofStored stored space).sliceSize width height = stored.sliceSize width height := by
  have single (count : Nat) : divCeil count 1 = count := by rw [divCeil, Nat.div_one]; rfl
  cases stored <;>
    simp [FormatInfo.sliceSize, FormatInfo.ofStored, FormatInfo.rgba8, StoredFormat.sliceSize,
      StoredFormat.storage, StorageClass.sliceSize, single]

namespace ImportedTexture

/-- Nothing about a replacement is empty. -/
structure Filled (imported : ImportedTexture) : Prop where
  width : 1 ≤ imported.width.toNat
  height : 1 ≤ imported.height.toNat
  slices : 1 ≤ imported.depthOrLayers.toNat
  levels : 1 ≤ imported.levels.toNat
  data : imported.data ≠ []

/-- A replacement has the outer form of a header and as many bytes as the header's payload, which is
what the renderer computes from the blocks of the replacement's format. -/
structure Stores (imported : ImportedTexture) (info : ImageInfo) : Prop where
  width : imported.width = info.width
  height : imported.height = info.height
  slices : imported.depthOrLayers = info.depthOrLayers
  levels : imported.levels = info.levels
  size : imported.data.length = info.payloadSize
  blocks : info.payloadSize = (info.mipChain.map fun level =>
    imported.format.sliceSize level.width level.height * level.slices).sum

/-- A replacement from slices is a part of the top level of a texture, or complete levels of it. -/
inductive Covers (imported : ImportedTexture) (texture : Texture) : Prop where
  | part (few : imported.depthOrLayers.toNat < texture.shape.slicesAt 0)
      (single : imported.levels = 1)
      (size : imported.data.length =
        imported.width.toNat * imported.height.toNat * 4 * imported.depthOrLayers.toNat)
  | whole (all : imported.depthOrLayers.toNat = texture.shape.slicesAt 0)
      (size : imported.data.length = Shape.rgba8Size { texture.shape with
        width := imported.width, height := imported.height, levels := imported.levels })

end ImportedTexture

/-! ## What a DDS file holds -/

private theorem StoredFormat.sliceSize_pos (format : StoredFormat) {width height : Nat}
    (wide : 0 < width) (high : 0 < height) : 0 < format.sliceSize width height := by
  have blocks {count size : Nat} (some : 0 < count) (positive : 0 < size) :
      0 < divCeil count size := Nat.div_pos (by omega) positive
  unfold StoredFormat.sliceSize
  cases format <;> simp only [storage, StorageClass.sliceSize] <;>
    first
      | exact Nat.mul_pos (Nat.mul_pos wide high) (by decide)
      | exact Nat.mul_pos (Nat.mul_pos (blocks wide (by decide)) (blocks high (by decide)))
          (by decide)

theorem ImageInfo.exactSize_pos {info : ImageInfo} (mipped : 1 ≤ info.levels.toNat) :
    0 < info.exactSize := by
  have member : info.level 0 ∈ info.mipChain :=
    List.mem_map_of_mem (List.mem_range.mpr mipped)
  have slice : 0 < info.sliceSize (info.level 0) :=
    info.format.sliceSize_pos (mipExtent_pos _ _) (mipExtent_pos _ _)
  have level : 0 < info.levelSize (info.level 0) := Nat.mul_pos slice (info.slicesAt_pos 0)
  exact Nat.lt_of_lt_of_le level (Dds.levelSize_le info member)

theorem ImportReport.stores_of_ofDds {space : ColorSpace} {file : Bytes}
    {imported : ImportedTexture} (loaded : ofDds space file = .ok imported) :
    ∃ info, Dds.loadHeader file = .ok info ∧ imported.Filled ∧ imported.Stores info := by
  rw [ofDds_eq] at loaded
  obtain ⟨contents, parsed, rfl⟩ := map_eq_ok_iff.mp loaded
  have header : Dds.loadHeader file = .ok contents.info :=
    map_eq_ok_iff.mpr ⟨contents, parsed, rfl⟩
  have accepted := Dds.accepted_of_parse parsed
  have length : (ddsTexels contents.info (Dds.texelsOf file contents)).length =
      contents.info.payloadSize := by
    unfold ddsTexels
    rw [Dds.payloadSize_of_parse parsed, ← Dds.length_texelsOf accepted]
    split
    · exact length_swapRedBlue _
    · rfl
  have exact := ImageInfo.payloadSize_eq accepted.exactSize_lt
  refine ⟨contents.info, header, ⟨accepted.width, accepted.height, accepted.slices,
    accepted.levels.1, ?_⟩, rfl, rfl, rfl, rfl, length, ?_⟩
  · apply List.ne_nil_of_length_pos
    have texels := ImageInfo.exactSize_pos accepted.levels.1
    rwa [← exact, ← length] at texels
  · simp only [FormatInfo.sliceSize_ofStored, exact, ImportedTexture.ofContents]
    rfl

/-! ## What slices make up -/

namespace FileView

open PngScan

variable {view : FileView} {directories : List Path} {texture : Texture} {first : Slice}
  {rest : List Slice} {width height : UInt32} {found : List (Slice × Bytes)}
  {imported : ImportedTexture}

/-- The first slice has a file of which the header can be read, but not the pixels. -/
def HeaderOnly (view : FileView) (directories : List Path) (texture : Texture) : Prop :=
  ∃ first file info, texture.shape.slices.head? = some first ∧
    view.sliceFile? directories texture first = some file ∧ Png.loadHeader file = .ok info ∧
    ∀ pixels, Png.loadPixels file ≠ .ok pixels

private theorem length_flatMap_of_usable
    (usable : ∀ pair ∈ found,
      view.usable? directories texture width height pair.1 = some pair.2) :
    (found.flatMap Prod.snd).length = room width height (found.map Prod.fst) := by
  have each : ∀ pair ∈ found, pair.2.length = rgba8SliceSize (mipExtent width.toNat pair.1.level)
      (mipExtent height.toNat pair.1.level) := by
    intro pair member
    obtain ⟨file, _, ⟨info, header, wide, high⟩, loaded⟩ :=
      usable?_eq_some_iff.mp (usable pair member)
    rw [Png.length_loadPixels header loaded, wide, high]
  rw [List.length_flatMap, room, List.map_map]
  exact congrArg List.sum (List.map_congr_left each)

private theorem room_of_top {slices : List Slice} (wide : width ≠ 0) (high : height ≠ 0)
    (top : ∀ slice ∈ slices, slice.level = 0) :
    room width height slices =
      width.toNat * height.toNat * 4 * slices.length := by
  have extent {size : UInt32} (some : size ≠ 0) : mipExtent size.toNat 0 = size.toNat := by
    rw [mipExtent_zero]
    exact Nat.max_eq_right (Dds.one_le_of_ne_zero some)
  have each : ∀ slice ∈ slices, rgba8SliceSize (mipExtent width.toNat slice.level)
      (mipExtent height.toNat slice.level) = width.toNat * height.toNat * 4 := by
    intro slice member
    rw [top slice member, extent wide, extent high]
    rfl
  rw [room, List.map_congr_left each, List.map_const', List.sum_replicate_nat,
    Nat.mul_comm]

private theorem room_pos (width height : UInt32) {slices : List Slice} (nonempty : slices ≠ []) :
    0 < room width height slices := by
  obtain ⟨slice, rest, rfl⟩ := List.exists_cons_of_ne_nil nonempty
  have size : 0 < rgba8SliceSize (mipExtent width.toNat slice.level)
      (mipExtent height.toNat slice.level) :=
    Nat.mul_pos (Nat.mul_pos (mipExtent_pos _ _) (mipExtent_pos _ _)) (by decide)
  rw [room_cons]
  omega

/-- The slices of the first levels fill the buffer of a texture that has no others. -/
theorem room_of_levels {levels : UInt32} (few : levels.toNat ≤ texture.shape.levels.toNat) :
    room width height (texture.shape.slices.filter (·.level < levels.toNat)) =
      Shape.rgba8Size { texture.shape with width, height, levels } := by
  have same : texture.shape.slices.filter (·.level < levels.toNat) =
      Shape.slices { texture.shape with levels } := by
    rw [Shape.filter_slices few, Shape.slices_eq_slicesFrom]
    rfl
  rw [same, room_slices]
  rfl

private theorem flatMap_ne_nil_of_usable (nonempty : found ≠ [])
    (usable : ∀ pair ∈ found,
      view.usable? directories texture width height pair.1 = some pair.2) :
    found.flatMap Prod.snd ≠ [] := by
  apply List.ne_nil_of_length_pos
  rw [length_flatMap_of_usable usable]
  exact room_pos width height (by simpa using nonempty)

private theorem MadeOf.wellFormed_started (made : MadeOf texture width height found imported)
    (wide : width ≠ 0) (high : height ≠ 0)
    (run : found.map Prod.fst = texture.shape.slices.take found.length) (nonempty : found ≠ [])
    (usable : ∀ pair ∈ found,
      view.usable? directories texture width height pair.1 = some pair.2)
    (none : (texture.shape.levelsWithin (found.map Prod.fst)).length = 0) :
    imported.Filled ∧ imported.Covers texture := by
  obtain ⟨few, single, count, data⟩ := made.started none
  have top : ∀ slice ∈ found.map Prod.fst, slice.level = 0 := by
    rw [run]
    exact fun slice member => Shape.level_of_mem_take (Nat.le_of_lt few) member
  refine ⟨⟨made.width ▸ Dds.one_le_of_ne_zero wide, made.height ▸ Dds.one_le_of_ne_zero high,
    count ▸ List.length_pos_iff.mpr nonempty, by rw [single]; decide,
    data ▸ flatMap_ne_nil_of_usable nonempty usable⟩, .part (count ▸ few) single ?_⟩
  rw [data, length_flatMap_of_usable usable, room_of_top wide high top, List.length_map, count,
    made.width, made.height]

private theorem MadeOf.wellFormed_complete (made : MadeOf texture width height found imported)
    (wide : width ≠ 0) (high : height ≠ 0) (slices : texture.shape.slices = first :: rest)
    (usable : ∀ pair ∈ found,
      view.usable? directories texture width height pair.1 = some pair.2)
    (complete : 0 < (texture.shape.levelsWithin (found.map Prod.fst)).length) :
    imported.Filled ∧ imported.Covers texture := by
  have filled := Shape.filled_of_mem (slices ▸ List.mem_cons_self) 0
  obtain ⟨levels, count, whole, data⟩ := made.complete _ rfl complete
  have few : imported.levels.toNat ≤ texture.shape.levels.toNat :=
    levels ▸ Shape.length_levelsWithin_le _ _
  rw [← levels] at data whole
  have kept : ∀ pair ∈ found.filter (·.1.level < imported.levels.toNat),
      view.usable? directories texture width height pair.1 = some pair.2 :=
    fun pair member => usable pair (List.mem_of_mem_filter member)
  -- The first slice is among those of the complete levels, so these are not nothing.
  have inside : first ∈ texture.shape.slices.filter (·.level < imported.levels.toNat) := by
    rw [List.mem_filter, slices, Shape.level_of_head slices, decide_eq_true_eq, levels]
    exact ⟨List.mem_cons_self, complete⟩
  have nonempty : found.filter (·.1.level < imported.levels.toNat) ≠ [] := by
    rw [← whole] at inside
    exact fun none => List.ne_nil_of_mem inside (congrArg (List.map Prod.fst) none)
  refine ⟨⟨made.width ▸ Dds.one_le_of_ne_zero wide, made.height ▸ Dds.one_le_of_ne_zero high,
    count ▸ filled, levels ▸ complete, data ▸ flatMap_ne_nil_of_usable nonempty kept⟩,
    .whole count ?_⟩
  rw [data, length_flatMap_of_usable kept, whole, room_of_levels few, made.width, made.height]

/-- What at least one usable slice makes up is well formed. -/
theorem MadeOf.wellFormed (made : MadeOf texture width height found imported)
    (wide : width ≠ 0) (high : height ≠ 0) (slices : texture.shape.slices = first :: rest)
    (run : found.map Prod.fst = texture.shape.slices.take found.length) (nonempty : found ≠ [])
    (usable : ∀ pair ∈ found,
      view.usable? directories texture width height pair.1 = some pair.2) :
    imported.Filled ∧ imported.Covers texture := by
  rcases Nat.eq_zero_or_pos (texture.shape.levelsWithin (found.map Prod.fst)).length with
    none | complete
  · exact made.wellFormed_started wide high run nonempty usable none
  · exact made.wellFormed_complete wide high slices usable complete

/-- A first slice with extents is usable, unless only its header can be read. -/
theorem usable_first (loads : ¬ view.HeaderOnly directories texture)
    (slices : texture.shape.slices = first :: rest)
    (extents : view.extents? directories texture first = some (width, height)) :
    width ≠ 0 ∧ height ≠ 0 ∧
      ∃ pixels, view.usable? directories texture width height first = some pixels := by
  obtain ⟨file, info, found, header, same⟩ := extents?_eq_some_iff.mp extents
  cases same
  obtain ⟨wide, high⟩ := Png.ne_zero_of_loadHeader header
  refine ⟨wide, high, ?_⟩
  have top := Shape.level_of_head slices
  have fits : HasExtents info.width info.height first.level file := by
    refine ⟨info, header, ?_⟩
    rw [top, mipExtent_zero, mipExtent_zero, Nat.max_eq_right (Dds.one_le_of_ne_zero wide),
      Nat.max_eq_right (Dds.one_le_of_ne_zero high)]
    exact ⟨rfl, rfl⟩
  by_contra unusable
  refine loads ⟨first, file, info, by rw [slices]; rfl, found, header, fun pixels loaded => ?_⟩
  exact unusable ⟨pixels, usable?_eq_some_iff.mpr ⟨file, found, fits, loaded⟩⟩

/-- Without extents of a first slice, a search for slices finds nothing; else it takes at least one
slice, and what the usable slices make up is well formed, unless their buffer would be too large. -/
theorem png_cases (loads : ¬ view.HeaderOnly directories texture) :
    let scan := (view.addLevels directories texture texture.shape.levels.toNat 0 .start).1
    let outcome := (view.png directories texture).outcome
    scan.written = 0 ∧ (outcome = .nothing ∨
        view.Exceeds directories texture ∧ outcome = .broken .capacity) ∨
      scan.written ≠ 0 ∧ ∀ imported, outcome = .replaced imported →
        imported.Filled ∧ imported.Covers texture := by
  cases slices : texture.shape.slices with
  | nil =>
    rw [addLevels_eq_slices, slices, png_of_empty slices]
    exact .inl ⟨rfl, .inl rfl⟩
  | cons first rest =>
    cases extents : view.extents? directories texture first with
    | none =>
      obtain ⟨last, run, _, written, _⟩ := addLevels_start_of_headless slices extents
      rw [run]
      exact .inl ⟨written, .inl (png_of_headless slices extents).1⟩
    | some told =>
      obtain ⟨width, height⟩ := told
      rcases Nat.lt_or_ge bufferLimit (texture.shape.resized width height).rgba8Size with
        large | fits
      · rw [addLevels_start_of_large slices extents large, png_of_large slices extents large]
        refine .inl ⟨rfl, .inr ⟨⟨first, width, height, ?_, extents, large⟩, rfl⟩⟩
        rw [slices, List.head?_cons]
      · obtain ⟨wide, high, pixels, usable⟩ := usable_first loads slices extents
        have nonempty : view.usablePrefix directories texture width height texture.shape.slices ≠
            [] := by
          rw [slices, usablePrefix_cons_of_usable rest usable]
          exact List.cons_ne_nil _ _
        have run : (view.usablePrefix directories texture width height
            texture.shape.slices).map Prod.fst = _ := map_fst_usablePrefix _
        have taken := (addLevels_start_of_fits slices extents fits).2.filled.written
        refine .inr ⟨?_, fun imported found => ?_⟩
        · rw [taken, List.nil_append,
            length_flatMap_of_usable fun pair member => usable_of_mem_usablePrefix member]
          exact Nat.ne_of_gt (room_pos width height (by simpa using nonempty))
        · obtain ⟨_, ⟨_, broken⟩ | ⟨_, made, outcome, madeOf⟩⟩ := png_of_fits slices extents fits
          · cases broken.symm.trans found
          · cases outcome.symm.trans found
            exact madeOf.wellFormed wide high slices run nonempty fun pair member =>
              usable_of_mem_usablePrefix member

theorem stores_of_dds (found : (view.dds directories texture).outcome = .replaced imported) :
    imported.Filled ∧ ∃ path file info,
      view.firstMatch? directories (texture.fileName .dds).render = some path ∧
      view.read path = .ok file ∧ Dds.loadHeader file = .ok info ∧ imported.Stores info := by
  unfold dds at found
  dsimp only at found
  split at found
  · cases found
  · rename_i path first
    split at found
    · cases found
    · rename_i file held
      split at found
      · cases found
      · rename_i loaded
        cases found
        obtain ⟨info, header, filled, stores⟩ := ImportReport.stores_of_ofDds loaded
        exact ⟨filled, path, file, info, first, held, header, stores⟩

/-- The search for a DDS file decides, unless it finds nothing. -/
theorem search_cases (found : (view.search directories texture).outcome = .replaced imported) :
    (view.dds directories texture).outcome = .replaced imported ∨
      (view.dds directories texture).outcome = .nothing ∧
        (view.png directories texture).outcome = .replaced imported := by
  unfold search at found
  split at found
  · cases found
  · dsimp only at found
    split at found
    · exact .inr ⟨‹_›, found⟩
    · exact .inl found

end FileView

namespace Workspace

/-- Every replacement is well formed: nothing about it is empty, and its texels fill exactly the
layout that it describes, be it that of a DDS file or that of complete levels or a part of the top
level. A search for slices without any pixels finds nothing, or breaks off where no buffer would be
large enough. The first slice has to be readable beyond its header. -/
theorem import_wellFormed (workspace : Workspace) (view : FileView) (directories : List Path)
    (handle : Handle) (texture : Texture)
    (loads : (view.dds directories texture).outcome = .nothing →
      ¬ view.HeaderOnly directories texture) :
    let outcome := (workspace.importFrom view directories handle texture).2
    let stored := (view.dds directories texture).outcome
    let levels := texture.shape.levels.toNat
    (∀ imported, outcome = .replaced imported → imported.Filled ∧
      ((∃ path file info,
          view.firstMatch? directories (texture.fileName .dds).render = some path ∧
          view.read path = .ok file ∧ Dds.loadHeader file = .ok info ∧ imported.Stores info) ∨
        stored = .nothing ∧ imported.Covers texture)) ∧
    (stored = .nothing →
      (view.addLevels directories texture levels 0 .start).1.written = 0 →
        outcome = .nothing ∨
          view.Exceeds directories texture ∧ outcome = .broken .capacity) := by
  intro outcome stored levels
  constructor
  · intro imported found
    rcases FileView.search_cases found with dds | ⟨unstored, png⟩
    · obtain ⟨filled, file⟩ := FileView.stores_of_dds dds
      exact ⟨filled, .inl file⟩
    · rcases FileView.png_cases (loads unstored) with
        ⟨_, nothing | ⟨_, broken⟩⟩ | ⟨_, wellFormed⟩
      · cases nothing.symm.trans png
      · cases broken.symm.trans png
      · obtain ⟨filled, covers⟩ := wellFormed imported png
        exact ⟨filled, .inr ⟨unstored, covers⟩⟩
  · intro unstored blank
    rcases FileView.png_cases (loads unstored) with ⟨_, ended⟩ | ⟨some, _⟩
    · change (view.search directories texture).outcome = .nothing ∨
        _ ∧ (view.search directories texture).outcome = _
      unfold FileView.search
      split
      · exact .inl rfl
      · dsimp only
        rw [if_pos unstored]
        exact ended
    · exact absurd blank some

/-- A fragment of a volume: one of two slices is there, and it is the whole replacement. -/
theorem import_wellFormed_volume :
    let texture : Texture := ⟨⟨1, 1, 2, 1, 2⟩, .rgba8 .srgb, .texture3D, [1, 2, 3, 4]⟩
    let files := (FileSystem.initial ⟨0⟩).setNode [(texture.sliceName 0 0).render]
      (.file ((Png.save Png.stored 1 1 [9, 8, 7, 6]).toOption.getD []) ⟨0⟩)
    ∃ imported, ((ofFiles files).importTexture [.ofNames []] ⟨7⟩ texture).2 = .replaced imported ∧
      imported.Filled ∧ imported.Covers texture := by
  intro texture files
  let view := FileView.ofFiles files
  have loads : ¬ view.HeaderOnly [.ofNames []] texture := by
    rintro ⟨first, file, info, top, found, _, blank⟩
    cases top
    have loaded : (view.sliceFile? [.ofNames []] texture ⟨0, 0, 1, 1⟩).map Png.loadPixels =
        some (.ok [9, 8, 7, 6]) := by
      decide +kernel
    rw [show view.sliceFile? [.ofNames []] texture ⟨0, 0, 1, 1⟩ = some file from found] at loaded
    exact blank _ (Option.some.inj loaded)
  have outcome : ((ofFiles files).importTexture [.ofNames []] ⟨7⟩ texture).2 =
      .replaced ⟨1, 1, 1, 1, FormatInfo.rgba8 .srgb, [9, 8, 7, 6]⟩ := by
    decide +kernel
  have unstored : view.firstMatch? [.ofNames []] (texture.fileName .dds).render = none := by
    decide +kernel
  obtain ⟨filled, ⟨path, _, _, stored, _⟩ | ⟨_, covers⟩⟩ :=
    (import_wellFormed (ofFiles files) view [.ofNames []] ⟨7⟩ texture fun _ => loads).1 _ outcome
  · cases unstored.symm.trans stored
  · exact ⟨_, outcome, filled, covers⟩

/-- Where only the header of the first slice can be read, the search does not end with nothing: it
has the extents of a replacement, which is without slices and without texels. -/
theorem import_of_headerOnly (workspace : Workspace) {view : FileView} {directories : List Path}
    (handle : Handle) {texture : Texture} (supported : texture.format.isSupported = true)
    (unstored : (view.dds directories texture).outcome = .nothing)
    (only : view.HeaderOnly directories texture) :
    let outcome := (workspace.importFrom view directories handle texture).2
    (view.Exceeds directories texture → outcome = .broken .capacity) ∧
    (¬ view.Exceeds directories texture → outcome = .broken .reader ∨ ∃ width height, outcome =
      .replaced ⟨width, height, 0, 1, FormatInfo.rgba8 texture.format.colorSpace, []⟩) := by
  obtain ⟨first, file, info, top, found, header, blank⟩ := only
  obtain ⟨rest, slices⟩ := List.head?_eq_some_iff.mp top
  have extents := FileView.extents?_eq_some_iff.mpr ⟨file, info, found, header, rfl⟩
  have result : (workspace.importFrom view directories handle texture).2 = _ :=
    FileView.outcome_search_of_unstored supported (FileView.ne_nil_of_extents extents) unstored
  intro outcome
  constructor
  · rintro ⟨other, width, height, again, told, large⟩
    cases top.symm.trans again
    exact result.trans (congrArg ImportReport.outcome (FileView.png_of_large slices told large))
  · intro small
    have fits : (texture.shape.resized info.width info.height).rgba8Size ≤ bufferLimit :=
      Nat.le_of_not_lt fun large => small ⟨first, _, _, top, extents, large⟩
    have unusable : view.usable? directories texture info.width info.height first = none := by
      apply Option.eq_none_iff_forall_ne_some.mpr
      intro loaded usable
      exact blank _ ((FileView.usable?_of_file found).mp usable).2
    have none : view.usablePrefix directories texture info.width info.height
        texture.shape.slices = [] := by
      rw [slices, FileView.usablePrefix_cons_of_unusable rest unusable]
    obtain ⟨_, ⟨_, broken⟩ | ⟨_, imported, replaced, made⟩⟩ :=
      FileView.png_of_fits slices extents fits
    · exact .inl (result.trans broken)
    · have member : first ∈ texture.shape.slices := slices ▸ List.mem_cons_self
      rw [none] at made
      obtain ⟨_, levels, count, data⟩ := made.started (Shape.length_levelsWithin_nil member)
      refine .inr ⟨info.width, info.height, result.trans (replaced.trans (congrArg _ ?_))⟩
      obtain ⟨width, height, format, _, _⟩ := made
      cases imported
      cases UInt32.toNat_inj.mp (count.trans (UInt32.toNat_ofNat (n := 0)).symm)
      subst width height format levels data
      rfl

/-- The data of the first slice are damaged behind a sound header. -/
theorem import_wellFormed_damaged :
    let texture : Texture := ⟨⟨1, 1, 1, 1, 1⟩, .rgba8 .linear, .texture2D, [1, 2, 3, 4]⟩
    let damaged := Png.signature ++ Png.chunk Png.Kind.header (Png.headerBody 1 1) ++
      Png.chunk Png.Kind.imageData [0, 0, 0, 0] ++ Png.chunk Png.Kind.fileEnd []
    let files := (FileSystem.initial ⟨0⟩).setNode [(texture.sliceName 0 0).render]
      (.file damaged ⟨0⟩)
    ∃ imported, ((ofFiles files).importTexture [.ofNames []] ⟨7⟩ texture).2 = .replaced imported ∧
      imported.depthOrLayers = 0 ∧ imported.data = [] ∧ ¬ imported.Filled := by
  intro texture damaged files
  have outcome : ((ofFiles files).importTexture [.ofNames []] ⟨7⟩ texture).2 =
      .replaced ⟨1, 1, 0, 1, FormatInfo.rgba8 .linear, []⟩ := by
    decide +kernel
  exact ⟨_, outcome, rfl, rfl, fun filled => filled.data rfl⟩

end Workspace
end TextureCache
