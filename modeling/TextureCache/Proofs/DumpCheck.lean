import Mathlib.Data.List.Dedup
import TextureCache.Proofs.DumpCheck.Scan
import TextureCache.Proofs.Export.Plan
import TextureCache.Proofs.FileName.Parse
import TextureCache.Proofs.FileSystem.Listing
import TextureCache.Proofs.Png.Reimport

/-! Every dump passes its check. The exporter takes a name and a header from one texture; the check
reads both back, and they tell the same. In a directory that was empty there is nothing else. -/
namespace TextureCache

namespace FileName

/-- A file passes if its header can be read and tells what the name promises. -/
theorem check_eq_none_iff {name : FileName} {file : Bytes} :
    name.check (.ok file) = none ↔ ∃ info, name.loadHeader file = .ok info ∧
      name.promise = (info.width.toNat, info.height.toNat, info.depthOrLayers) := by
  unfold check
  dsimp only
  cases name.loadHeader file with
  | error error => simp
  | ok info =>
    obtain ⟨width, height, count⟩ := name.promise
    simp only [Except.ok.injEq, Prod.mk.injEq, exists_eq_left']
    by_cases extents : info.width.toNat ≠ width ∨ info.height.toNat ≠ height
    · simp only [if_pos extents, reduceCtorEq, false_iff]
      rintro ⟨rfl, rfl, _⟩
      exact extents.elim (· rfl) (· rfl)
    · obtain ⟨rfl, rfl⟩ : info.width.toNat = width ∧ info.height.toNat = height := by
        simpa using extents
      by_cases same : info.depthOrLayers = count
      · simp [same]
      · simp [same, Ne.symm same]

end FileName

namespace ExportJob

/-- What an export can be asked for: sizes that are words, and for a DDS file a texture that has the
form of its target. -/
def Dumpable (job : ExportJob) : Prop :=
  match job.container with
  | .png => job.texture.shape.rgba8Size < wordLimit
  | .dds => job.texture.Consistent ∧
      Dds.extendedHeaderSize + max job.texture.nativeSize job.texture.shape.rgba8Size < wordLimit

end ExportJob

/-- A planned file has contents, which are what its name promises. -/
def Draft.Passes (draft : Draft) : Prop :=
  ∃ name : FileName, draft.name = name.render ∧
    ∃ file, draft.contents = .ok file ∧ name.check (.ok file) = none

namespace ExportJob

variable {encoder : Png.Encoder} {job : ExportJob} {texture : Texture} {draft : Draft}

private theorem passes_of_mem_planDds (consistent : texture.Consistent)
    (fits : Dds.extendedHeaderSize + max texture.nativeSize texture.shape.rgba8Size < wordLimit)
    (member : draft ∈ (planDds (.standard encoder) texture).drafts) : draft.Passes := by
  obtain ⟨dimensions, stored, texels, arranged, storedAs, enough, rfl⟩ := of_mem_planDds member
  obtain ⟨own, arranged', suits⟩ := consistent.exists_dimensions
  cases arranged.symm.trans arranged'
  have storable := consistent.storable arranged (exactSize_of_storedAs suits storedAs).1
  have most := exactSize_le_of_storedAs suits storedAs
  have within : Dds.extendedHeaderSize + (ddsInfo texture stored dimensions).exactSize <
      wordLimit := by omega
  have payload : (ddsInfo texture stored dimensions).payloadSize =
      (ddsInfo texture stored dimensions).exactSize :=
    ImageInfo.payloadSize_eq (Nat.lt_of_le_of_lt (Nat.le_add_left _ _) within)
  exact ⟨texture.fileName .dds, rfl, _, Dds.save_eq storable enough,
    FileName.check_eq_none_iff.mpr
      ⟨_, Dds.loadHeader_headerBytes storable within (payload ▸ enough), rfl⟩⟩

theorem promise_sliceName {slice : Slice} (member : slice ∈ texture.shape.slices) :
    (texture.sliceName slice.level slice.index).promise = (slice.width, slice.height, 1) := by
  obtain ⟨inChain, _, width, height⟩ := Shape.mem_slices_iff.mp member
  have level : (UInt32.ofNat slice.level).toNat = slice.level :=
    UInt32.toNat_ofNat_of_lt' (Nat.lt_trans inChain texture.shape.levels.toNat_lt)
  change (mipExtent texture.shape.width.toNat (UInt32.ofNat slice.level).toNat,
    mipExtent texture.shape.height.toNat (UInt32.ofNat slice.level).toNat, (1 : UInt32)) = _
  rw [level, width, height]

private theorem passes_of_mem_planPng (tells : encoder.TellsSize)
    (fits : texture.shape.rgba8Size < wordLimit)
    (member : draft ∈ (planPng (.standard encoder) texture).drafts) : draft.Passes := by
  obtain ⟨pixels, decoded, region, inside, rfl⟩ := exists_region_of_mem_planPng member
  obtain ⟨file, width, height, saved, header, wide, high⟩ :=
    loadHeader_pngDraft tells inside (Texture.length_toRgba8 decoded) fits
  have promised := promise_sliceName (bounds_of_mem_layOut inside).1
  rw [← wide, ← high] at promised
  exact ⟨texture.sliceName region.slice.level region.slice.index, rfl, file, saved,
    FileName.check_eq_none_iff.mpr ⟨_, header, promised⟩⟩

theorem Dumpable.passes (tells : encoder.TellsSize) (dumpable : job.Dumpable)
    (member : draft ∈ (job.plan (.standard encoder)).drafts) : draft.Passes := by
  unfold Dumpable at dumpable
  unfold plan at member
  split at member
  · cases container : job.container with
    | dds =>
      rw [container] at dumpable member
      exact passes_of_mem_planDds dumpable.1 dumpable.2 member
    | png =>
      rw [container] at dumpable member
      exact passes_of_mem_planPng tells dumpable member
  · cases member

private theorem exists_name_of_mem_namedFiles (tells : encoder.TellsSize) {jobs : List ExportJob}
    (dumpable : ∀ job ∈ jobs, job.Dumpable) {file : String × Bytes}
    (member : file ∈ jobs.flatMap (·.namedFiles (.standard encoder))) :
    ∃ name : FileName, file.1 = name.render ∧ name.check (.ok file.2) = none := by
  obtain ⟨job, inside, own⟩ := List.mem_flatMap.mp member
  obtain ⟨draft, planned, rfl⟩ := List.mem_map.mp own
  obtain ⟨name, named, contents, saved, accepted⟩ := (dumpable job inside).passes tells planned
  exact ⟨name, named, by rwa [saved]⟩

end ExportJob

namespace DumpCheck

/-- A file of the cache is valid if it passes under its own name. -/
theorem Entry.verdict_eq_valid_iff {entry : Entry} {name : FileName}
    (named : fileName? entry.name = some name) :
    entry.verdict = .valid ↔ name.check entry.contents = none := by
  unfold verdict
  simp only [named]
  cases name.check entry.contents <;> simp

/-- Of a directory with valid files only, nothing but their number is told. -/
private theorem report_of_valid {directory : String} {entries : List Entry}
    (valid : ∀ entry ∈ entries, entry.verdict = .valid) :
    report [⟨directory, entries, none⟩] = ⟨0, [⟨.info, toString entries.length ++
      " valid file(s), 0 other file(s) skipped"⟩]⟩ := by
  have silent : entries.flatMap Entry.lines = [] := by
    apply List.flatMap_eq_nil_iff.mpr
    intro entry member
    unfold Entry.lines
    rw [valid entry member]
  have summary : Summary.ofEntries entries = ⟨entries.length, 0, 0⟩ := by
    unfold Summary.ofEntries
    congr 1
    · exact List.countP_eq_length.mpr fun entry member => decide_eq_true (valid entry member)
    · apply List.countP_eq_zero.mpr
      intro entry member
      simp [valid entry member]
    · apply List.countP_eq_zero.mpr
      intro entry member
      simp [valid entry member]
  have text : " valid file(s), " ++ (toString 0 ++ " other file(s) skipped") =
      " valid file(s), 0 other file(s) skipped" := by decide
  have listed : ∀ listing ∈ [Listing.mk directory entries none], listing.failure = none := by
    simp
  rw [report_of_listed (List.cons_ne_nil _ _) listed]
  simp only [List.flatMap_cons, List.flatMap_nil, List.append_nil, silent, summary, if_true,
    List.nil_append, Summary.line, String.append_assoc, text]

theorem fileName?_unicode (text : String) : fileName? (.unicode text) = FileName.parse? text := rfl

theorem file?_ofFiles (files : FileSystem) (directory : Path) (name : String) :
    (DirectoryView.ofFiles files).file? directory (.unicode name) =
      if files.isFile (directory.join name) then
        some ⟨(directory.join name).text, .unicode name,
          (files.read (directory.join name)).mapError FileFault.message⟩
      else none := rfl

/-- What a tree's own directory shows to the check: its regular files, each with what it holds. -/
private theorem listing_ofFiles {files : FileSystem} {directory : Path} {names : List String}
    (listed : files.list directory = .ok names)
    (regular : ∀ name ∈ names, files.isFile (directory.join name) = true) :
    Listing.ofFiles files directory = ⟨directory.text, names.map fun name =>
      ⟨(directory.join name).text, .unicode name,
        (files.read (directory.join name)).mapError FileFault.message⟩, none⟩ := by
  have shown : (DirectoryView.ofFiles files).list directory = (names.map .unicode, none) := by
    unfold DirectoryView.ofFiles
    dsimp only
    rw [listed]
  have entry (name : String) (member : name ∈ names) :
      (DirectoryView.ofFiles files).file? directory (.unicode name) =
        some ⟨(directory.join name).text, .unicode name,
          (files.read (directory.join name)).mapError FileFault.message⟩ := by
    rw [file?_ofFiles, if_pos (regular name member)]
  unfold Listing.ofFiles DirectoryView.listing
  rw [shown, List.filterMap_map]
  congr 1
  exact (List.filterMap_congr entry).trans (congrFun List.filterMap_eq_map names)

/-- The check of a directory in which every entry is a file of the cache that passes. -/
theorem report_of_accepted {files : FileSystem} {directory : Path} {names : List String}
    (listed : files.list directory = .ok names)
    (accepted : ∀ name ∈ names, ∃ own file, FileName.parse? name = some own ∧
      files.isFile (directory.join name) = true ∧
      files.read (directory.join name) = .ok file ∧ own.check (.ok file) = none) :
    report [.ofFiles files directory] =
      ⟨0, [⟨.info, toString names.length ++ " valid file(s), 0 other file(s) skipped"⟩]⟩ := by
  have regular (name : String) (member : name ∈ names) :
      files.isFile (directory.join name) = true := by
    obtain ⟨_, _, _, isFile, _⟩ := accepted name member
    exact isFile
  rw [listing_ofFiles listed regular]
  refine (report_of_valid ?_).trans (by rw [List.length_map])
  intro entry member
  obtain ⟨name, inside, rfl⟩ := List.mem_map.mp member
  obtain ⟨own, file, recognised, _, read, passes⟩ := accepted name inside
  rw [← fileName?_unicode] at recognised
  exact (Entry.verdict_eq_valid_iff recognised).mpr (by rw [read]; exact passes)

/-- However many jobs are carried out into a directory that was empty, the check finds nothing wrong
with it and passes over nothing: it holds the files of the jobs and no others, each under a name of
the cache and with the contents that the name promises. -/
theorem report_runJobs (encoder : Png.Encoder) (tells : encoder.TellsSize)
    (workspace : Workspace) (jobs : List ExportJob) (directory : Path)
    (files : FileSystem) (proper : workspace.files.ProperLinks)
    (empty : workspace.files.list directory = .ok [])
    (placed : ∀ job ∈ jobs, job.directory = directory)
    (dumpable : ∀ job ∈ jobs, job.Dumpable)
    (written : workspace.files.writeAll (jobs.flatMap (·.writes (.standard encoder))) = .ok files) :
    ∃ names, (workspace.runJobs (.standard encoder) jobs).files.list directory = .ok names ∧
      names.Nodup ∧
      (∀ name, name ∈ names ↔ name ∈ jobs.flatMap (·.writtenNames (.standard encoder))) ∧
      (∀ name ∈ names, ∃ own file, FileName.parse? name = some own ∧
        (workspace.runJobs (.standard encoder) jobs).files.isFile (directory.join name) = true ∧
        (workspace.runJobs (.standard encoder) jobs).files.read (directory.join name) = .ok file ∧
        own.check (.ok file) = none) ∧
      report [.ofFiles (workspace.runJobs (.standard encoder) jobs).files directory] =
        ⟨0, [⟨.info, toString names.length ++ " valid file(s), 0 other file(s) skipped"⟩]⟩ := by
  rw [Workspace.files_runJobs written]
  rw [ExportJob.flatMap_writes_eq placed] at written
  have passes {file : String × Bytes}
      (member : file ∈ jobs.flatMap (·.namedFiles (.standard encoder))) :=
    ExportJob.exists_name_of_mem_namedFiles tells dumpable member
  have plain : ∀ file ∈ jobs.flatMap (·.namedFiles (.standard encoder)),
      FileSystem.LastStep.ofSegment file.1 = .name file.1 := by
    intro file member
    obtain ⟨name, named, _⟩ := passes member
    rw [named]
    exact name.ofSegment_render
  obtain ⟨names, listed, distinct, exactly, held⟩ :=
    FileSystem.list_of_writeAll proper plain empty written
  have accepted : ∀ name ∈ names, ∃ own file, FileName.parse? name = some own ∧
      files.isFile (directory.join name) = true ∧
      files.read (directory.join name) = .ok file ∧ own.check (.ok file) = none := by
    intro name member
    obtain ⟨contents, inside, isFile, read⟩ := held name member
    obtain ⟨own, named, accepted⟩ := passes inside
    dsimp only at named
    exact ⟨own, contents, named ▸ own.parse?_render, isFile, read, accepted⟩
  rw [ExportJob.map_fst_namedFiles] at exactly
  exact ⟨names, listed, distinct, exactly, accepted, report_of_accepted listed accepted⟩

/-- Five files of four jobs, two of which write the same slices. -/
theorem report_runJobs_shared :
    let codec := Codec.standard Png.stored
    let root := Path.ofNames []
    let volume : Texture :=
      ⟨⟨2, 1, 2, 1, 2⟩, .rgba8 .srgb, .texture3D, (List.range 20).map UInt8.ofNat⟩
    let cube : Texture :=
      ⟨⟨1, 1, 1, 6, 1⟩, .rgba8 .srgb, .cubemap, (List.range 24).map UInt8.ofNat⟩
    let jobs : List ExportJob := [⟨⟨7⟩, volume, root, .png⟩, ⟨⟨8⟩, cube, root, .dds⟩,
      ⟨⟨9⟩, volume, root, .png⟩, ⟨⟨9⟩, volume, root, .dds⟩]
    report [.ofFiles ((Workspace.ofFiles (.initial ⟨0⟩)).runJobs codec jobs).files root] =
      ⟨0, [⟨.info, "5 valid file(s), 0 other file(s) skipped"⟩]⟩ := by
  intro codec root volume cube jobs
  have count : (jobs.flatMap (·.writtenNames codec)).dedup.length = 5 := by decide +kernel
  have success : ((FileSystem.initial ⟨0⟩).writeAll
      (jobs.flatMap (·.writes codec))).toOption.isSome = true := by decide +kernel
  have dumpable : ∀ job ∈ jobs, job.Dumpable := by
    have volumeFits : Dds.extendedHeaderSize + max volume.nativeSize volume.shape.rgba8Size <
        wordLimit := by decide
    have cubeFits : Dds.extendedHeaderSize + max cube.nativeSize cube.shape.rgba8Size <
        wordLimit := by decide
    have volumeForm : volume.Consistent := ⟨by decide, by decide, by decide, by decide, rfl⟩
    have cubeForm : cube.Consistent := ⟨by decide, by decide, by decide, rfl, rfl⟩
    have slices : volume.shape.rgba8Size < wordLimit := by decide
    intro job member
    simp only [jobs, List.mem_cons, List.not_mem_nil, or_false] at member
    rcases member with rfl | rfl | rfl | rfl
    · exact slices
    · exact ⟨cubeForm, cubeFits⟩
    · exact slices
    · exact ⟨volumeForm, volumeFits⟩
  cases written : (FileSystem.initial ⟨0⟩).writeAll (jobs.flatMap (·.writes codec)) with
  | error fault => simp [written, Except.toOption] at success
  | ok files =>
    obtain ⟨names, _, distinct, exactly, _, told⟩ :=
      report_runJobs Png.stored Png.faithful_stored.tellsSize (.ofFiles (.initial ⟨0⟩)) jobs root
        files (FileSystem.properLinks_initial ⟨0⟩)
        (by decide +kernel) (by decide) dumpable written
    have same : names.Perm (jobs.flatMap (·.writtenNames codec)).dedup :=
      (List.perm_ext_iff_of_nodup distinct (List.nodup_dedup _)).mpr fun name =>
        (exactly name).trans List.mem_dedup.symm
    rw [told, same.length_eq, count]
    rfl

end DumpCheck
end TextureCache
