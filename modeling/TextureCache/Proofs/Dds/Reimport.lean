import TextureCache.Proofs.Dds.RoundTrip
import TextureCache.Proofs.Dds.Texture
import TextureCache.Proofs.Export

/-! Exporting a texture as a DDS file and finding it again. What the export plans is one file, whose
image has the extents and the size of the texture; what the search finds is that image, with the
texels in memory order. -/
namespace TextureCache

variable {texture : Texture} {dimensions : Dimensions} {stored : StoredFormat} {texels : Bytes}

/-- The format and the texels with which a file stores a texture: its own where a file can hold
them, else decoded ones. -/
def Texture.StoredAs (texture : Texture) (dimensions : Dimensions) (stored : StoredFormat)
    (texels : Bytes) : Prop :=
  match ExportJob.nativeFormat? texture dimensions with
  | some format => stored = format ∧ texels = texture.data
  | none => stored = .rgba8 ∧ texture.toRgba8 = .ok texels

namespace ExportJob

theorem nativeFormat?_eq_some_iff :
    nativeFormat? texture dimensions = some stored ↔
      StoredFormat.ofNative? texture.format = some stored ∧
        Dds.canStore stored dimensions = true := by
  unfold nativeFormat?
  rw [Option.filter_eq_some_iff]

theorem exists_storedAs (supported : texture.format.isSupported = true)
    (enough : texture.nativeSize ≤ texture.data.length) (dimensions : Dimensions) :
    ∃ stored texels, texture.StoredAs dimensions stored texels := by
  unfold Texture.StoredAs
  cases nativeFormat? texture dimensions with
  | some format => exact ⟨format, texture.data, rfl, rfl⟩
  | none =>
    obtain ⟨pixels, decoded⟩ := Texture.exists_toRgba8 supported enough
    exact ⟨.rgba8, pixels, rfl, decoded⟩

/-- A file can hold what is stored, which takes there what it takes in memory. -/
theorem exactSize_of_storedAs (suits : dimensions.Suits texture.shape)
    (storedAs : texture.StoredAs dimensions stored texels) :
    Dds.canStore stored dimensions = true ∧
      ((ddsInfo texture stored dimensions).exactSize = texture.nativeSize ∧ texels = texture.data ∨
        (ddsInfo texture stored dimensions).exactSize = texture.shape.rgba8Size ∧
          texels.length = texture.shape.rgba8Size) := by
  unfold Texture.StoredAs at storedAs
  cases native : nativeFormat? texture dimensions with
  | some format =>
    rw [native] at storedAs
    obtain ⟨rfl, rfl⟩ := storedAs
    obtain ⟨named, format⟩ := nativeFormat?_eq_some_iff.mp native
    exact ⟨format, .inl ⟨exactSize_ddsInfo_native suits named, rfl⟩⟩
  | none =>
    rw [native] at storedAs
    obtain ⟨rfl, decoded⟩ := storedAs
    exact ⟨canStore_rgba8 dimensions,
      .inr ⟨exactSize_ddsInfo_rgba8 suits, Texture.length_toRgba8 decoded⟩⟩

theorem exactSize_le_of_storedAs (suits : dimensions.Suits texture.shape)
    (storedAs : texture.StoredAs dimensions stored texels) :
    (ddsInfo texture stored dimensions).exactSize ≤
      max texture.nativeSize texture.shape.rgba8Size := by
  rcases (exactSize_of_storedAs suits storedAs).2 with ⟨size, _⟩ | ⟨size, _⟩
  · exact size ▸ Nat.le_max_left _ _
  · exact size ▸ Nat.le_max_right _ _

theorem fills_of_storedAs (suits : dimensions.Suits texture.shape)
    (enough : texture.nativeSize ≤ texture.data.length)
    (storedAs : texture.StoredAs dimensions stored texels) :
    Dds.canStore stored dimensions = true ∧
      (ddsInfo texture stored dimensions).exactSize ≤ texels.length ∧
      (ddsInfo texture stored dimensions).exactSize ≤
        max texture.nativeSize texture.shape.rgba8Size := by
  obtain ⟨format, sizes⟩ := exactSize_of_storedAs suits storedAs
  refine ⟨format, ?_, exactSize_le_of_storedAs suits storedAs⟩
  rcases sizes with ⟨size, rfl⟩ | ⟨size, length⟩
  · rwa [size]
  · rw [size, length]

/-- With enough texels a DDS export is the one file of the texture. -/
theorem planDds_of_storedAs (encoder : Png.Encoder)
    (arranged : texture.target.dimensions? = some dimensions)
    (storedAs : texture.StoredAs dimensions stored texels)
    (enough : (ddsInfo texture stored dimensions).payloadSize ≤ texels.length) :
    planDds (.standard encoder) texture = ⟨(nativeFormat? texture dimensions).isNone,
      [⟨(texture.fileName .dds).render, Dds.save (ddsInfo texture stored dimensions) texels⟩],
      .complete⟩ := by
  have draft : ddsDraft texture (ddsInfo texture stored dimensions) texels = _ :=
    if_neg (Nat.not_lt.mpr enough)
  unfold planDds
  rw [arranged]
  unfold Texture.StoredAs at storedAs
  cases native : nativeFormat? texture dimensions with
  | some format =>
    rw [native] at storedAs
    obtain ⟨rfl, rfl⟩ := storedAs
    simp only [native]
    exact draft
  | none =>
    rw [native] at storedAs
    obtain ⟨rfl, decoded⟩ := storedAs
    simp only [native, ExportPlan.ofDecoded, Codec.standard, decoded, draft]
    rfl

end ExportJob

namespace ImportReport

theorem ddsTexels_of_ne {info : ImageInfo} (rightOrder : info.format ≠ .bgra8) (payload : Bytes) :
    ddsTexels info payload = payload := if_neg rightOrder

/-- A saved image is found as it is, up to the arrangement and with texels in memory order. -/
theorem ofDds_headerBytes {info : ImageInfo} (space : ColorSpace) (storable : Dds.Storable info)
    (fits : Dds.extendedHeaderSize + info.exactSize < wordLimit)
    (enough : info.exactSize ≤ texels.length) :
    ofDds space (Dds.headerBytes info ++ Dds.payload info texels) = .ok {
      width := info.width
      height := info.height
      depthOrLayers := info.depthOrLayers
      levels := info.levels
      format := FormatInfo.ofStored info.format space
      data := ddsTexels info (texels.take info.exactSize) } := by
  have within : info.exactSize < wordLimit := Nat.lt_of_le_of_lt (Nat.le_add_left _ _) fits
  have size : (Dds.restored info).payloadSize = info.exactSize := by
    rw [ImageInfo.payloadSize_eq (by rw [Dds.exactSize_restored]; exact within),
      Dds.exactSize_restored]
  have zeros : (Bytes.zeros info.exactSize).drop info.exactSize = [] :=
    List.drop_eq_nil_of_le (by rw [Bytes.length_zeros])
  have header := Dds.loadHeader_headerBytes storable fits enough
  have data := Dds.loadData_headerBytes storable fits enough
    (Nat.le_of_eq (Bytes.length_zeros info.exactSize).symm)
  rw [zeros, List.append_nil] at data
  unfold ofDds
  simp only [header, bind, Except.bind, size, data]
  rfl

end ImportReport

/-- A DDS file in the first directory that holds one decides the search. -/
theorem FileView.search_of_dds {view : FileView} {directories : List Path} {texture : Texture}
    {path : Path} {file : Bytes} {imported : ImportedTexture}
    (supported : texture.format.isSupported = true)
    (found : view.firstMatch? directories (texture.fileName .dds).render = some path)
    (held : view.read path = .ok file)
    (loaded : ImportReport.ofDds texture.format.colorSpace file = .ok imported) :
    (view.search directories texture).outcome = .replaced imported := by
  have some : directories ≠ [] := by
    rintro rfl
    cases found
  have report : view.dds directories texture =
      ⟨[(texture.fileName .dds).render], [], .replaced imported⟩ := by
    unfold dds
    simp only [found, held, loaded]
  unfold search
  rw [if_neg (by simp [supported, some]), report]
  rfl

/-- A format that files can hold is found again as the format of the texture. -/
theorem StoredFormat.native_of_ofNative? {format : PixelFormat}
    (named : ofNative? format = some stored) :
    stored ≠ .bgra8 ∧ (FormatInfo.ofStored stored format.colorSpace).format = format := by
  cases format <;> simp only [ofNative?, Option.some.injEq, reduceCtorEq] at named <;>
    subst named <;> exact ⟨by decide, rfl⟩

namespace ExportJob

/-- What the DDS file of a texture is found as. -/
def ddsFound (texture : Texture) (stored : StoredFormat) (dimensions : Dimensions)
    (texels : Bytes) : ImportedTexture :=
  let info := ddsInfo texture stored dimensions
  { width := info.width
    height := info.height
    depthOrLayers := info.depthOrLayers
    levels := info.levels
    format := FormatInfo.ofStored info.format texture.format.colorSpace
    data := ImportReport.ddsTexels info (texels.take info.exactSize) }

/-- What is found of a texture are its own texels where a file can hold them, and else what they are
decoded to. -/
theorem ddsFound_of_storedAs (suits : dimensions.Suits texture.shape)
    (storedAs : texture.StoredAs dimensions stored texels) :
    let found := ddsFound texture stored dimensions texels
    match nativeFormat? texture dimensions with
    | some format =>
      stored = format ∧ (ddsInfo texture stored dimensions).exactSize = texture.nativeSize ∧
        found.format.format = texture.format ∧
        found.data = texture.data.take texture.nativeSize
    | none =>
      found.format = FormatInfo.rgba8 texture.format.colorSpace ∧
        texture.toRgba8 = .ok found.data := by
  unfold Texture.StoredAs at storedAs
  cases native : nativeFormat? texture dimensions with
  | some format =>
    rw [native] at storedAs
    obtain ⟨rfl, rfl⟩ := storedAs
    obtain ⟨named, _⟩ := nativeFormat?_eq_some_iff.mp native
    obtain ⟨rightOrder, kept⟩ := StoredFormat.native_of_ofNative? named
    have size := exactSize_ddsInfo_native suits named
    exact ⟨rfl, size, kept, (ImportReport.ddsTexels_of_ne rightOrder _).trans (by rw [size])⟩
  | none =>
    rw [native] at storedAs
    obtain ⟨rfl, decoded⟩ := storedAs
    have all := Texture.length_toRgba8 decoded
    rw [← exactSize_ddsInfo_rgba8 suits] at all
    have whole := List.take_of_length_le (Nat.le_of_eq all)
    have rightOrder : (ddsInfo texture .rgba8 dimensions).format ≠ .bgra8 := by
      simp [ddsInfo]
    have kept := (ImportReport.ddsTexels_of_ne rightOrder _).trans whole
    exact ⟨rfl, decoded.trans (congrArg Except.ok kept.symm)⟩

/-- A job of enough texels within machine words writes one DDS file, and that is read as what is
stored of the texture. -/
theorem writes_of_dds (encoder : Png.Encoder) {job : ExportJob}
    (container : job.container = .dds) (supported : job.texture.format.isSupported = true)
    (consistent : job.texture.Consistent)
    (enough : job.texture.nativeSize ≤ job.texture.data.length)
    (nativeFits : Dds.extendedHeaderSize + job.texture.nativeSize < wordLimit)
    (rgba8Fits : Dds.extendedHeaderSize + job.texture.shape.rgba8Size < wordLimit) :
    ∃ dimensions stored texels file,
      job.texture.target.dimensions? = some dimensions ∧ dimensions.Suits job.texture.shape ∧
      job.texture.StoredAs dimensions stored texels ∧
      job.writes (.standard encoder) =
        [(job.directory.join (job.texture.fileName .dds).render, file)] ∧
      (ddsInfo job.texture stored dimensions).payloadSize =
        (ddsInfo job.texture stored dimensions).exactSize ∧
      ImportReport.ofDds job.texture.format.colorSpace file =
        .ok (ddsFound job.texture stored dimensions texels) := by
  obtain ⟨dimensions, arranged, suits⟩ := consistent.exists_dimensions
  obtain ⟨stored, texels, storedAs⟩ := exists_storedAs supported enough dimensions
  obtain ⟨format, filled, size⟩ := fills_of_storedAs suits enough storedAs
  have storable := consistent.storable arranged format
  have fits : Dds.extendedHeaderSize + (ddsInfo job.texture stored dimensions).exactSize <
      wordLimit := by omega
  have payload := ImageInfo.payloadSize_eq (Nat.lt_of_le_of_lt (Nat.le_add_left _ _) fits)
  have saved := Dds.save_eq storable (payload.symm ▸ filled)
  have plan := planDds_of_storedAs encoder arranged storedAs (payload.symm ▸ filled)
  refine ⟨dimensions, stored, texels, _, arranged, suits, storedAs, ?_, payload,
    ImportReport.ofDds_headerBytes _ storable fits filled⟩
  unfold writes ExportJob.plan
  simp only [supported, container, if_true, plan, saved]
  rfl

end ExportJob

namespace Workspace

/-- A texture whose shape suits its target is found again after its export: with its own extents,
and with its own texels wherever a file can hold them, else with what they are decoded to. -/
theorem import_export_dds (encoder : Png.Encoder) (workspace : Workspace) (job : ExportJob)
    (directories : List Path) (handle : Handle) (files : FileSystem)
    (container : job.container = .dds)
    (supported : job.texture.format.isSupported = true) (consistent : job.texture.Consistent)
    (enough : job.texture.nativeSize ≤ job.texture.data.length)
    (nativeFits : Dds.extendedHeaderSize + job.texture.nativeSize < wordLimit)
    (rgba8Fits : Dds.extendedHeaderSize + job.texture.shape.rgba8Size < wordLimit)
    (written : workspace.files.writeAll (job.writes (.standard encoder)) = .ok files)
    (first : files.IsFirst directories job.directory (job.texture.fileName .dds).render) :
    ∃ imported, ((workspace.exportTexture (.standard encoder) job).1.importTexture directories
        handle job.texture).2 = .replaced imported ∧
      imported.width = job.texture.shape.width ∧ imported.height = job.texture.shape.height ∧
      imported.depthOrLayers.toNat =
        job.texture.shape.depth.toNat * job.texture.shape.layers.toNat ∧
      imported.levels = job.texture.shape.levels ∧
      ∀ dimensions, job.texture.target.dimensions? = some dimensions →
        match ExportJob.nativeFormat? job.texture dimensions with
        | some stored => imported.format.format = job.texture.format ∧
            imported.format = FormatInfo.ofStored stored job.texture.format.colorSpace ∧
            imported.data = job.texture.data.take
              (ExportJob.ddsInfo job.texture stored dimensions).payloadSize
        | none => imported.format = FormatInfo.rgba8 job.texture.format.colorSpace ∧
            job.texture.toRgba8 = .ok imported.data := by
  obtain ⟨dimensions, stored, texels, file, arranged, suits, storedAs, writes, payload, loaded⟩ :=
    ExportJob.writes_of_dds encoder container supported consistent enough nativeFits rgba8Fits
  have left := files_exportTexture written
  rw [writes] at written
  obtain ⟨isFile, held⟩ := FileSystem.read_writeAll written (List.pairwise_singleton _ _)
    List.mem_cons_self
  have found := FileView.search_of_dds supported
    (FileSystem.firstMatch?_of_isFirst first isFile) held loaded
  rw [← left, ← importTexture_outcome _ directories handle] at found
  refine ⟨_, found, rfl, rfl, consistent.toNat_depthOrLayers, rfl, ?_⟩
  -- The arrangement is a function of the target, so there is only the one that was exported with.
  intro other same
  cases arranged.symm.trans same
  have kept := ExportJob.ddsFound_of_storedAs suits storedAs
  cases native : ExportJob.nativeFormat? job.texture dimensions with
  | some format =>
    rw [native] at kept
    obtain ⟨rfl, size, same, data⟩ := kept
    exact ⟨same, rfl, data.trans (by rw [payload, size])⟩
  | none =>
    rw [native] at kept
    exact kept

/-- Two layers of two levels, exported to the root of an empty tree and found there. -/
theorem import_export_dds_layers :
    let texels := (List.range 56).map UInt8.ofNat
    let texture : Texture :=
      ⟨⟨3, 2, 1, 2, 2⟩, .rgba8 .srgb, .texture2DArray, texels⟩
    let job : ExportJob := ⟨⟨7⟩, texture, .ofNames [], .dds⟩
    let workspace := ofFiles (.initial ⟨0⟩)
    ∃ imported, ((workspace.exportTexture (.standard Png.stored) job).1.importTexture
        [.ofNames []] ⟨7⟩ texture).2 = .replaced imported ∧
      imported.depthOrLayers.toNat = 2 ∧ imported.data = texels := by
  intro texels texture job workspace
  have success :
      (workspace.files.writeAll (job.writes (.standard Png.stored))).toOption.isSome = true := by
    decide +kernel
  cases written : workspace.files.writeAll (job.writes (.standard Png.stored)) with
  | error fault => simp [written, Except.toOption] at success
  | ok files =>
    obtain ⟨imported, found, _, _, count, _, content⟩ :=
      import_export_dds Png.stored workspace job [.ofNames []] ⟨7⟩ files rfl rfl
        ⟨by decide, by decide, by decide, by decide, by decide⟩ (by decide) (by decide) (by decide)
        written ⟨[], [], rfl, fun _ member => nomatch member⟩
    have whole : texels.take (ExportJob.ddsInfo texture .rgba8 .flatArray).payloadSize = texels :=
      by decide
    exact ⟨imported, found, count, (content .flatArray rfl).2.2.trans whole⟩

end Workspace
end TextureCache
