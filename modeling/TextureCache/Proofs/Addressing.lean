import TextureCache.Proofs.Decode
import TextureCache.Proofs.Dds.Reimport
import TextureCache.Proofs.Export.Bookkeeping
import TextureCache.Proofs.Export.Plan

/-! Names as addresses of contents. A name tells the texels by their digest and the outer form of a
texture in part: neither its format nor its levels, and of depth and layers only the product. Jobs
that have a name in common write the same contents under it if they agree on what the name leaves
open; then, however many of them are carried out in one directory, each of their textures is found
again as it was. -/
namespace TextureCache

/-- The arrangement of the image that a name of a kind stands for. -/
def NameKind.dimensions? : NameKind → Option Dimensions
  | flat => some .flat
  | flatArray => some .flatArray
  | volume => some .volume
  | cube => some .cube
  | cubeArray => some .cubeArray
  | other => none

private theorem Target.dimensions?_eq (target : Target) :
    target.dimensions? = (NameKind.ofTarget target).dimensions? := by
  cases target <;> rfl

namespace ExportJob

variable {encoder : Png.Encoder} {job first second : ExportJob} {draft draft' : Draft}

/-- The format in which a DDS file holds the texels of a job unchanged. -/
def stored? (job : ExportJob) : Option StoredFormat :=
  job.texture.target.dimensions?.bind (nativeFormat? job.texture)

/-- Two jobs agree on all that decides the contents of their files and is not told by the names. -/
structure Alike (first second : ExportJob) : Prop where
  read : first.texture.format.readAs = second.texture.format.readAs
  stored : first.container = .dds → first.stored? = second.stored?
  levels : first.container = .dds → first.texture.shape.levels = second.texture.shape.levels
  /-- Texels are decoded slice by slice. -/
  decoded : first.container = .dds → ∀ codec, (first.plan codec).asked = true →
    ∀ level < first.texture.shape.levels.toNat,
      first.texture.shape.slicesAt level = second.texture.shape.slicesAt level
  /-- The texels of a slice lie behind those of all levels above it. -/
  above : first.container = .png → ∀ level, level + 1 < first.texture.shape.levels.toNat →
    level + 1 < second.texture.shape.levels.toNat →
      first.texture.shape.slicesAt level = second.texture.shape.slicesAt level

theorem Alike.refl (job : ExportJob) : job.Alike job :=
  ⟨rfl, fun _ => rfl, fun _ => rfl, fun _ _ _ _ _ => rfl, fun _ _ _ _ => rfl⟩

private theorem of_mem_planPng {texture : Texture}
    (member : draft ∈ (planPng (.standard encoder) texture).drafts) :
    ∃ level index, level < texture.shape.levels.toNat ∧ index < texture.shape.slicesAt level ∧
      let slice := texture.shape.sliceAt level index
      draft = ⟨(texture.sliceName level index).render,
        Png.save encoder (UInt32.ofNat slice.width) (UInt32.ofNat slice.height)
          (texture.decodedRegion (texture.nativeRegionAt level index))⟩ := by
  obtain ⟨pixels, decoded, region, inside, rfl⟩ := exists_region_of_mem_planPng member
  obtain ⟨inChain, inLevel, own⟩ := Shape.eq_rgba8RegionAt_of_mem inside
  refine ⟨_, _, inChain, inLevel, ?_⟩
  have slice : region.slice = _ := congrArg Region.slice own
  rw [← Texture.slice_toRgba8 decoded inChain inLevel, ← own]
  unfold pngDraft
  dsimp only [Shape.rgba8RegionAt, Codec.standard] at slice ⊢
  rw [← slice]

/-! ## Files that two jobs have in common -/

/-- A DDS export asks the decoder if no DDS file can hold the texture's own texels. -/
theorem asked_of_dds (codec : Codec) (container : job.container = .dds)
    (supported : job.texture.format.isSupported = true) {dimensions : Dimensions}
    (arranged : job.texture.target.dimensions? = some dimensions) :
    (job.plan codec).asked = (nativeFormat? job.texture dimensions).isNone := by
  unfold plan planDds
  simp only [supported, container, arranged, if_true]
  cases nativeFormat? job.texture dimensions with
  | none => rfl
  | some format =>
    dsimp only
    unfold ddsDraft
    split <;> rfl

private theorem asked_of_png (codec : Codec) (container : job.container = .png)
    (supported : job.texture.format.isSupported = true) : (job.plan codec).asked = true := by
  unfold plan
  simp only [supported, container, if_true]
  rfl

/-- Textures of the same texels are stored alike, if they are decoded to the same. -/
theorem storedAs_eq {first second : Texture} {dimensions : Dimensions}
    {stored stored' : StoredFormat} {texels texels' : Bytes}
    (storedAs : first.StoredAs dimensions stored texels)
    (storedAs' : second.StoredAs dimensions stored' texels')
    (native : nativeFormat? first dimensions = nativeFormat? second dimensions)
    (data : first.data = second.data)
    (decoded : nativeFormat? first dimensions = none → ∀ {pixels pixels' : Bytes},
      first.toRgba8 = .ok pixels → second.toRgba8 = .ok pixels' → pixels = pixels') :
    stored = stored' ∧ texels = texels' := by
  unfold Texture.StoredAs at storedAs storedAs'
  rw [← native] at storedAs'
  cases found : nativeFormat? first dimensions with
  | some format =>
    rw [found] at storedAs storedAs'
    obtain ⟨rfl, rfl⟩ := storedAs
    obtain ⟨rfl, rfl⟩ := storedAs'
    exact ⟨rfl, data⟩
  | none =>
    rw [found] at storedAs storedAs'
    obtain ⟨rfl, pixels⟩ := storedAs
    obtain ⟨rfl, pixels'⟩ := storedAs'
    exact ⟨rfl, decoded found pixels pixels'⟩

private theorem contents_eq_of_dds (alike : first.Alike second) (container : first.container = .dds)
    (supported : first.texture.format.isSupported = true)
    (stem : first.texture.fileStem = second.texture.fileStem)
    (data : first.texture.data = second.texture.data)
    (member : draft ∈ (planDds (.standard encoder) first.texture).drafts)
    (member' : draft' ∈ (planDds (.standard encoder) second.texture).drafts) :
    draft.contents = draft'.contents := by
  obtain ⟨dimensions, stored, texels, arranged, storedAs, _, rfl⟩ := of_mem_planDds member
  obtain ⟨dimensions', stored', texels', arranged', storedAs', _, rfl⟩ := of_mem_planDds member'
  have width : first.texture.shape.width = second.texture.shape.width :=
    congrArg FileStem.width stem
  have height : first.texture.shape.height = second.texture.shape.height :=
    congrArg FileStem.height stem
  have count : first.texture.shape.depthOrLayers = second.texture.shape.depthOrLayers :=
    congrArg FileStem.depthOrLayers stem
  have levels := alike.levels container
  obtain rfl : dimensions = dimensions' := by
    have kinds := congrArg (fun stem => stem.kind.dimensions?) stem
    dsimp only [Texture.fileStem] at kinds
    rw [← Target.dimensions?_eq, ← Target.dimensions?_eq, arranged, arranged'] at kinds
    exact Option.some.inj kinds
  have native : nativeFormat? first.texture dimensions =
      nativeFormat? second.texture dimensions := by
    have same := alike.stored container
    unfold stored? at same
    rwa [arranged, arranged'] at same
  have asked (decodes : nativeFormat? first.texture dimensions = none) :
      (first.plan (.standard encoder)).asked = true := by
    rw [asked_of_dds _ container supported arranged, decodes]
    rfl
  obtain ⟨rfl, rfl⟩ := storedAs_eq storedAs storedAs' native data fun decodes =>
    Texture.toRgba8_eq_of_slices alike.read data width height levels
      (alike.decoded container _ (asked decodes))
  dsimp only [ddsInfo]
  rw [width, height, count, levels]

private theorem contents_eq_of_png (alike : first.Alike second) (container : first.container = .png)
    (data : ContentHash.ofBytes first.texture.data = ContentHash.ofBytes second.texture.data →
      first.texture.data = second.texture.data)
    (member : draft ∈ (planPng (.standard encoder) first.texture).drafts)
    (member' : draft' ∈ (planPng (.standard encoder) second.texture).drafts)
    (same : draft.name = draft'.name) : draft.contents = draft'.contents := by
  obtain ⟨level, index, inChain, inLevel, rfl⟩ := of_mem_planPng member
  obtain ⟨level', index', inChain', inLevel', rfl⟩ := of_mem_planPng member'
  obtain ⟨stem, rfl, rfl⟩ := Texture.sliceName_inj
    (Nat.lt_trans inChain (UInt32.toNat_lt _)) (Nat.lt_trans inChain' (UInt32.toNat_lt _))
    (Nat.lt_trans inLevel (Shape.slicesAt_lt _ _)) (Nat.lt_trans inLevel' (Shape.slicesAt_lt _ _))
    same
  have width : first.texture.shape.width = second.texture.shape.width :=
    congrArg FileStem.width stem
  have height : first.texture.shape.height = second.texture.shape.height :=
    congrArg FileStem.height stem
  have above : ∀ other < level,
      first.texture.shape.slicesAt other = second.texture.shape.slicesAt other :=
    fun other higher => alike.above container other (Nat.lt_of_le_of_lt higher inChain)
      (Nat.lt_of_le_of_lt higher inChain')
  dsimp only
  rw [Texture.decodedRegion_eq alike.read (data (congrArg FileStem.hash stem)),
    Texture.nativeRegionAt_eq alike.read width height above]
  dsimp only [Shape.sliceAt]
  rw [width, height]

private theorem mem_ownNames_of_mem_plan {codec : Codec}
    (member : draft ∈ (job.plan codec).drafts) : draft.name ∈ job.ownNames :=
  (names_plan codec job).subset (List.mem_map_of_mem member)

theorem container_eq_of_mem_ownNames {name : String} (own : name ∈ first.ownNames)
    (own' : name ∈ second.ownNames) : first.container = second.container := by
  obtain ⟨fileName, container, rfl⟩ := exists_render_of_mem_ownNames own
  obtain ⟨fileName', container', same⟩ := exists_render_of_mem_ownNames own'
  rw [← container, ← container', FileName.render_inj same]

/-- Jobs that agree on what their names leave open write the same contents under a name. -/
theorem contents_eq (alike : first.Alike second)
    (data : ContentHash.ofBytes first.texture.data = ContentHash.ofBytes second.texture.data →
      first.texture.data = second.texture.data)
    (member : draft ∈ (first.plan (.standard encoder)).drafts)
    (member' : draft' ∈ (second.plan (.standard encoder)).drafts)
    (same : draft.name = draft'.name) : draft.contents = draft'.contents := by
  have containers : first.container = second.container :=
    container_eq_of_mem_ownNames (mem_ownNames_of_mem_plan member)
      (same ▸ mem_ownNames_of_mem_plan member')
  unfold plan at member member'
  split at member
  · rename_i supported
    split at member'
    · rw [← containers] at member'
      cases container : first.container with
      | dds =>
        rw [container] at member member'
        have stem : first.texture.fileStem = second.texture.fileStem := by
          obtain ⟨_, _, _, _, _, _, rfl⟩ := of_mem_planDds member
          obtain ⟨_, _, _, _, _, _, rfl⟩ := of_mem_planDds member'
          exact congrArg FileName.stem (FileName.render_inj same)
        exact contents_eq_of_dds alike container supported stem
          (data (congrArg FileStem.hash stem)) member member'
      | png =>
        rw [container] at member member'
        exact contents_eq_of_png alike container data member member' same
    · cases member'
  · cases member

/-! ## Exports to one directory -/

/-- Jobs of one directory whose digests do not collide, and which agree where they have a name in
common on what the name leaves open. -/
structure Compatible (directory : Path) (jobs : List ExportJob) : Prop where
  together : ∀ job ∈ jobs, job.directory = directory
  digests : ∀ first ∈ jobs, ∀ second ∈ jobs,
    ContentHash.ofBytes first.texture.data = ContentHash.ofBytes second.texture.data →
      first.texture.data = second.texture.data
  alike : ∀ first ∈ jobs, ∀ second ∈ jobs, ∀ name ∈ first.ownNames, name ∈ second.ownNames →
    first.Alike second

end ExportJob

theorem Path.join_render_inj {directory : Path} {first second : FileName}
    (same : directory.join first.render = directory.join second.render) : first = second := by
  have components := congrArg Path.components same
  rw [components_join directory first.componentOf_render,
    components_join directory second.componentOf_render] at components
  exact FileName.render_inj
    (Component.name.inj (List.singleton_inj.mp (List.append_cancel_left components)))

namespace ExportJob

variable {encoder : Png.Encoder} {directory : Path} {jobs : List ExportJob}
variable {job first second : ExportJob}

private theorem Compatible.file_eq (compatible : Compatible directory jobs) (listed : first ∈ jobs)
    (listed' : second ∈ jobs) {path : Path} {file file' : Bytes}
    (written : (path, file) ∈ first.writes (.standard encoder))
    (written' : (path, file') ∈ second.writes (.standard encoder)) : file = file' := by
  obtain ⟨draft, member, rest⟩ := List.mem_map.mp written
  obtain ⟨draft', member', rest'⟩ := List.mem_map.mp written'
  obtain ⟨paths, rfl⟩ := Prod.mk.inj rest
  obtain ⟨paths', rfl⟩ := Prod.mk.inj rest'
  have own := mem_ownNames_of_mem_plan member
  have own' := mem_ownNames_of_mem_plan member'
  obtain ⟨fileName, _, named⟩ := exists_render_of_mem_ownNames own
  obtain ⟨fileName', _, named'⟩ := exists_render_of_mem_ownNames own'
  rw [compatible.together first listed, named] at paths
  rw [compatible.together second listed', named'] at paths'
  have same : draft.name = draft'.name := by
    rw [named, named', Path.join_render_inj (paths.trans paths'.symm)]
  have alike := compatible.alike first listed second listed' _ own (same ▸ own')
  rw [contents_eq alike (compatible.digests first listed second listed') member member' same]

private theorem Compatible.map_fst_writes (compatible : Compatible directory jobs) :
    (jobs.flatMap (writes (.standard encoder))).map Prod.fst =
      (jobs.flatMap (writtenNames (.standard encoder))).map directory.join := by
  rw [flatMap_writes_eq compatible.together, ← map_fst_namedFiles, List.map_map, List.map_map]
  rfl

theorem Compatible.separates {before after : FileSystem} (compatible : Compatible directory jobs)
    (unlinked : before.Unlinked)
    (written : before.writeAll (jobs.flatMap (writes (.standard encoder))) = .ok after) :
    after.Separates directory (jobs.flatMap (writtenNames (.standard encoder))) := by
  apply FileSystem.separates_of_unlinked unlinked written compatible.map_fst_writes
  intro name member
  obtain ⟨job, _, named⟩ := List.mem_flatMap.mp member
  obtain ⟨draft, inside, rfl⟩ := List.mem_map.mp named
  obtain ⟨fileName, _, same⟩ := exists_render_of_mem_ownNames (mem_ownNames_of_mem_plan inside)
  rw [same]
  exact fileName.ofSegment_render

/-- Where different names lead to different files, writes to one file have the same contents. -/
theorem Compatible.agreeing {files : FileSystem} (compatible : Compatible directory jobs)
    (separate : files.Separates directory (jobs.flatMap (writtenNames (.standard encoder)))) :
    files.Agreeing (jobs.flatMap (writes (.standard encoder))) := by
  have exists_name {entry : Path × Bytes}
      (member : entry ∈ jobs.flatMap (writes (.standard encoder))) :
      ∃ name ∈ jobs.flatMap (writtenNames (.standard encoder)), directory.join name = entry.1 :=
    List.mem_map.mp (compatible.map_fst_writes ▸ List.mem_map_of_mem member)
  intro entry member entry' member' same
  obtain ⟨first, listed, written⟩ := List.mem_flatMap.mp member
  obtain ⟨second, listed', written'⟩ := List.mem_flatMap.mp member'
  obtain ⟨name, named, path⟩ := exists_name member
  obtain ⟨name', named', path'⟩ := exists_name member'
  by_cases equal : name = name'
  · have paths : entry.1 = entry'.1 := by rw [← path, ← path', equal]
    exact compatible.file_eq listed listed' written (paths ▸ written')
  · rw [← path, ← path'] at same
    exact absurd same (separate name named name' named' equal)

/-! ## Finding a texture again -/

/-- Files can hold the texture of a job, and a search of some directories comes upon the job's own
files before any others of their names. -/
structure Restorable (files : FileSystem) (directories : List Path) (job : ExportJob) : Prop where
  supported : job.texture.format.isSupported = true
  enough : job.texture.nativeSize ≤ job.texture.data.length
  first : ∀ name ∈ job.ownNames, files.IsFirst directories job.directory name
  container : match job.container with
    | .dds => job.texture.Consistent ∧
        Dds.extendedHeaderSize + job.texture.nativeSize < wordLimit ∧
        Dds.extendedHeaderSize + job.texture.shape.rgba8Size < wordLimit
    | .png => 1 ≤ job.texture.shape.levels ∧
        (1 < job.texture.shape.depth ∨ 1 ≤ job.texture.shape.layers) ∧
        job.texture.shape.rgba8Size ≤ bufferLimit ∧
        ∀ directory ∈ directories,
          files.isFile (directory.join (job.texture.fileName .dds).render) = false

end ExportJob

/-- A replacement has the extents of a texture and its texels, in the texture's own format or, where
the job had to decode them, as RGBA8. -/
structure ImportedTexture.Restores (codec : Codec) (imported : ImportedTexture)
    (job : ExportJob) : Prop where
  width : imported.width.toNat = max 1 job.texture.shape.width.toNat
  height : imported.height.toNat = max 1 job.texture.shape.height.toNat
  slices : imported.depthOrLayers.toNat = job.texture.shape.slicesAt 0
  levels : imported.levels = job.texture.shape.levels
  texels : if (job.plan codec).asked then
      imported.format = FormatInfo.rgba8 job.texture.format.colorSpace ∧
        job.texture.toRgba8 = .ok imported.data
    else
      imported.format.format = job.texture.format ∧
        imported.data = job.texture.data.take job.texture.nativeSize

namespace ExportJob

variable {encoder : Png.Encoder} {files : FileSystem} {directories : List Path} {job : ExportJob}

/-- The files of a job lead back to its texture, if they are held as they were planned. -/
theorem Restorable.restores_dds (restorable : job.Restorable files directories)
    (container : job.container = .dds)
    (held : ∀ path file, (path, file) ∈ job.writes (.standard encoder) →
      files.isFile path = true ∧ files.read path = .ok file) :
    ∃ imported, ((FileView.ofFiles files).search directories job.texture).outcome =
        .replaced imported ∧
      imported.Restores (.standard encoder) job := by
  have limits := restorable.container
  rw [container] at limits
  obtain ⟨consistent, nativeFits, rgba8Fits⟩ := limits
  have first := restorable.first
  unfold ownNames at first
  rw [container] at first
  obtain ⟨dimensions, stored, texels, file, arranged, suits, storedAs, writes, _, loaded⟩ :=
    writes_of_dds encoder container restorable.supported consistent restorable.enough nativeFits
      rgba8Fits
  obtain ⟨isFile, own⟩ := held _ _ (writes ▸ List.mem_cons_self)
  have found := FileView.search_of_dds restorable.supported
    (FileSystem.firstMatch?_of_isFirst (first _ List.mem_cons_self) isFile) own loaded
  refine ⟨_, found, (Nat.max_eq_right consistent.width).symm,
    (Nat.max_eq_right consistent.height).symm, consistent.toNat_depthOrLayers_eq_slicesAt, rfl, ?_⟩
  rw [asked_of_dds _ container restorable.supported arranged]
  have kept := ddsFound_of_storedAs suits storedAs
  cases native : nativeFormat? job.texture dimensions with
  | some format =>
    rw [native] at kept
    exact kept.2.2
  | none =>
    rw [native] at kept
    exact kept

private theorem Restorable.restores_png (faithful : encoder.Faithful)
    (restorable : job.Restorable files directories)
    (container : job.container = .png)
    (held : ∀ path file, (path, file) ∈ job.writes (.standard encoder) →
      files.isFile path = true ∧ files.read path = .ok file) :
    ∃ imported, ((FileView.ofFiles files).search directories job.texture).outcome =
        .replaced imported ∧
      imported.Restores (.standard encoder) job := by
  have limits := restorable.container
  rw [container] at limits
  obtain ⟨mipped, filled, fits, missing⟩ := limits
  have first := restorable.first
  unfold ownNames at first
  rw [container] at first
  obtain ⟨pixels, decoded⟩ := Texture.exists_toRgba8 restorable.supported restorable.enough
  have found := FileView.search_of_cuts restorable.supported mipped filled
    (Texture.length_toRgba8 decoded) fits missing fun _ member =>
      finds_of_held faithful container restorable.supported decoded fits held first member
  refine ⟨_, found, job.texture.shape.toNat_topWidth, job.texture.shape.toNat_topHeight,
    UInt32.toNat_ofNat_of_lt (job.texture.shape.slicesAt_lt 0), rfl, ?_⟩
  rw [asked_of_png _ container restorable.supported]
  exact ⟨rfl, decoded⟩

end ExportJob

namespace Workspace

/-- Jobs of one directory that agree on what their names leave open never put different contents
under one name; so after all of them each texture that files can hold is found again as it was. -/
theorem import_runJobs (encoder : Png.Encoder) (faithful : encoder.Faithful) (directory : Path)
    (jobs : List ExportJob) (compatible : ExportJob.Compatible directory jobs) :
    (∀ first ∈ jobs, ∀ second ∈ jobs, ∀ path file file',
      (path, file) ∈ first.writes (.standard encoder) →
        (path, file') ∈ second.writes (.standard encoder) → file = file') ∧
    ∀ (workspace : Workspace) (files : FileSystem) (directories : List Path) (handle : Handle),
      workspace.files.writeAll (jobs.flatMap (·.writes (.standard encoder))) = .ok files →
      files.Separates directory (jobs.flatMap (·.writtenNames (.standard encoder))) →
      ∀ job ∈ jobs, job.Restorable files directories →
        ∃ imported, ((workspace.runJobs (.standard encoder) jobs).importTexture directories handle
            job.texture).2 = .replaced imported ∧ imported.Restores (.standard encoder) job := by
  refine ⟨fun first listed second listed' path file file' written written' =>
    compatible.file_eq listed listed' written written', ?_⟩
  intro workspace files directories handle written separate job listed restorable
  have held : ∀ path file, (path, file) ∈ job.writes (.standard encoder) →
      files.isFile path = true ∧ files.read path = .ok file := fun path file own =>
    FileSystem.read_of_agreeing written (compatible.agreeing separate)
      (List.mem_flatMap.mpr ⟨job, listed, own⟩)
  rw [importTexture_outcome, files_runJobs written]
  cases container : job.container with
  | dds => exact restorable.restores_dds container held
  | png => exact restorable.restores_png faithful container held

/-- Three exports to the root of an empty tree: two of the same texels in either colour space, of
which the second has one more level, and one of other texels. -/
theorem import_runJobs_shared :
    let codec := Codec.standard Png.stored
    let texels := (List.range 12).map UInt8.ofNat
    let slices (handle : Handle) (space : ColorSpace) (levels : UInt32) : ExportJob :=
      ⟨handle, ⟨⟨2, 1, 1, 1, levels⟩, .rgba8 space, .texture2D, texels⟩, .ofNames [], .png⟩
    let whole : ExportJob :=
      ⟨⟨9⟩, ⟨⟨1, 1, 1, 1, 1⟩, .r5g6b5, .texture2D, [1, 2]⟩, .ofNames [], .dds⟩
    let jobs := [slices ⟨7⟩ .srgb 1, slices ⟨8⟩ .linear 2, whole]
    (jobs.flatMap (·.writtenNames codec)).length = 4 ∧
      (jobs.flatMap (·.writtenNames codec)).dedup.length = 3 ∧
      ∀ job ∈ jobs, ∃ imported, (((ofFiles (.initial ⟨0⟩)).runJobs codec jobs).importTexture
        [.ofNames []] ⟨7⟩ job.texture).2 = .replaced imported ∧ imported.Restores codec job := by
  intro codec texels slices whole jobs
  have compatible : ExportJob.Compatible (.ofNames []) jobs := by
    have kind : ∀ job ∈ jobs, (∃ handle space levels, job = slices handle space levels) ∨
        job = whole := by
      intro job listed
      simp only [jobs, List.mem_cons, List.not_mem_nil, or_false] at listed
      rcases listed with rfl | rfl | rfl
      · exact .inl ⟨_, _, _, rfl⟩
      · exact .inl ⟨_, _, _, rfl⟩
      · exact .inr rfl
    refine ⟨by decide, by decide +kernel, ?_⟩
    intro first listed second listed' name own own'
    have containers := ExportJob.container_eq_of_mem_ownNames own own'
    rcases kind first listed with ⟨_, _, _, rfl⟩ | rfl
    · rcases kind second listed' with ⟨_, _, _, rfl⟩ | rfl
      · exact ⟨rfl, nofun, nofun, nofun, fun _ _ _ _ => rfl⟩
      · cases containers
    · rcases kind second listed' with ⟨_, _, _, rfl⟩ | rfl
      · cases containers
      · exact .refl _
  have present : ((ofFiles (.initial ⟨0⟩)).files.writeAll
      (jobs.flatMap (·.writes codec))).toOption.map (fun files => jobs.map fun job =>
        files.isFile ((Path.ofNames []).join (job.texture.fileName .dds).render)) =
      some [false, false, true] := by
    decide +kernel
  refine ⟨by decide +kernel, by decide +kernel, ?_⟩
  cases written : (ofFiles (.initial ⟨0⟩)).files.writeAll (jobs.flatMap (·.writes codec)) with
  | error fault =>
    rw [written] at present
    cases present
  | ok files =>
    rw [written] at present
    have missing := (List.cons.inj (Option.some.inj present)).1
    have first (name : String) : files.IsFirst [.ofNames []] (.ofNames []) name :=
      ⟨[], [], rfl, fun _ member => absurd member List.not_mem_nil⟩
    have separate := compatible.separates (FileSystem.unlinked_initial ⟨0⟩) written
    have found := (import_runJobs Png.stored Png.faithful_stored (.ofNames []) jobs compatible).2
      (ofFiles (.initial ⟨0⟩)) files [.ofNames []] ⟨7⟩ written separate
    have only : ∀ directory ∈ [Path.ofNames []],
        files.isFile (directory.join ((slices ⟨7⟩ .srgb 1).texture.fileName .dds).render) = false :=
      fun _ member => List.mem_singleton.mp member ▸ missing
    intro job listed
    refine found job listed ?_
    simp only [jobs, List.mem_cons, List.not_mem_nil, or_false] at listed
    rcases listed with rfl | rfl | rfl
    · exact ⟨rfl, by decide, fun name _ => first name, by decide, by decide, by decide, only⟩
    · exact ⟨rfl, by decide, fun name _ => first name, by decide, by decide, by decide, only⟩
    · exact ⟨rfl, by decide, fun name _ => first name,
        ⟨by decide, by decide, by decide, by decide, by decide⟩, by decide, by decide⟩

/-- Jobs that disagree on the format, on the levels or on how many of the slices are layers can have
all else in common, their texels and the paths that they write too. The later one then replaces
what the earlier one wrote, and the earlier texture is found with other contents. So is a texture
whose form is not that of its target, even if it is the only one. -/
theorem import_runJobs_replaced :
    let codec := Codec.standard Png.stored
    let job (shape : Shape) (format : PixelFormat) (target : Target) (texels : Bytes)
        (container : Container) : ExportJob :=
      ⟨⟨7⟩, ⟨shape, format, target, texels⟩, .ofNames [], container⟩
    let found (jobs : List ExportJob) (job : ExportJob) : ImportOutcome :=
      (((ofFiles (.initial ⟨0⟩)).runJobs codec jobs).importTexture [.ofNames []] ⟨7⟩
        job.texture).2
    let file? (job : ExportJob) (path : Path) : Option Bytes :=
      ((job.writes codec).find? (·.1 = path)).map Prod.snd
    let pixels? (job : ExportJob) (path : Path) : Option Bytes :=
      (file? job path).bind fun file => (Png.loadPixels file).toOption
    let info? (job : ExportJob) (path : Path) : Option ImageInfo :=
      (file? job path).bind fun file => (Dds.loadHeader file).toOption
    let rgba8 := FormatInfo.rgba8 .linear
    -- One texel in two formats.
    let single (format : PixelFormat) := job ⟨1, 1, 1, 1, 1⟩ format .texture2D [1, 2] .png
    let texel := Path.join (.ofNames []) ((single .r5g6b5).texture.sliceName 0 0).render
    -- The first one or two levels of the same texels.
    let chain (levels : UInt32) :=
      job ⟨1, 1, 1, 1, levels⟩ (.rgba8 .linear) .texture2D [1, 2, 3, 4, 5, 6, 7, 8] .dds
    let levels := Path.join (.ofNames []) ((chain 2).texture.fileName .dds).render
    -- Two slices, as a volume and as layers.
    let stack (depth layers : UInt32) := job ⟨1, 1, depth, layers, 3⟩ (.rgba8 .linear)
      .texture2DArray ((List.range 24).map UInt8.ofNat) .png
    let slice := Path.join (.ofNames []) ((stack 2 1).texture.sliceName 2 0).render
    -- Two layers of a target that has one.
    let layered := job ⟨1, 1, 1, 2, 1⟩ (.rgba8 .linear) .texture2D [1, 2, 3, 4, 5, 6, 7, 8] .dds
    (pixels? (single .r5g6b5) texel = some [8, 65, 0, 255] ∧
      pixels? (single .r4g4b4a4) texel = some [17, 0, 34, 0] ∧
      found [single .r5g6b5, single .r4g4b4a4] (single .r5g6b5) =
        .replaced ⟨1, 1, 1, 1, rgba8, [17, 0, 34, 0]⟩) ∧
    (info? (chain 2) levels = some ⟨1, 1, 1, 2, .rgba8, .flat⟩ ∧
      info? (chain 1) levels = some ⟨1, 1, 1, 1, .rgba8, .flat⟩ ∧
      found [chain 2, chain 1] (chain 2) = .replaced ⟨1, 1, 1, 1, rgba8, [1, 2, 3, 4]⟩) ∧
    (pixels? (stack 2 1) slice = some [12, 13, 14, 15] ∧
      pixels? (stack 1 2) slice = some [16, 17, 18, 19]) ∧
    layered.texture.nativeSize = 8 ∧
      found [layered] layered = .replaced ⟨1, 1, 1, 1, rgba8, [1, 2, 3, 4]⟩ := by
  decide +kernel

end Workspace
end TextureCache
