import TextureCache.Export.Run
import TextureCache.Import
import TextureCache.Proofs.FileSystem.Write

/-! The files that an export leaves and how a search comes upon them. All that an export does to the
files is to write its drafts in order; a search takes a file from the first directory of its list
that holds one. -/
namespace TextureCache

/-- The files that a job writes, in order: their paths and their contents. -/
def ExportJob.writes (codec : Codec) (job : ExportJob) : List (Path × Bytes) :=
  (job.plan codec).drafts.map fun draft =>
    (job.directory.join draft.name, draft.contents.toOption.getD [])

namespace ExportJob

def writtenNames (codec : Codec) (job : ExportJob) : List String :=
  (job.plan codec).drafts.map Draft.name

/-- The files that a job writes, in order: their names and their contents. -/
def namedFiles (codec : Codec) (job : ExportJob) : List (String × Bytes) :=
  (job.plan codec).drafts.map fun draft => (draft.name, draft.contents.toOption.getD [])

theorem map_fst_namedFiles (codec : Codec) (jobs : List ExportJob) :
    (jobs.flatMap (·.namedFiles codec)).map Prod.fst = jobs.flatMap (·.writtenNames codec) := by
  rw [List.map_flatMap]
  congr 1
  funext job
  exact List.map_map

theorem flatMap_writes_eq {codec : Codec} {jobs : List ExportJob} {directory : Path}
    (placed : ∀ job ∈ jobs, job.directory = directory) :
    jobs.flatMap (·.writes codec) =
      (jobs.flatMap (·.namedFiles codec)).map fun file => (directory.join file.1, file.2) := by
  induction jobs with
  | nil => rfl
  | cons job rest ih =>
    have own : job.writes codec =
        (job.namedFiles codec).map fun file => (directory.join file.1, file.2) := by
      rw [writes, namedFiles, placed job List.mem_cons_self, List.map_map]
      rfl
    rw [List.flatMap_cons, List.flatMap_cons, List.map_append, own,
      ih fun other member => placed other (List.mem_cons_of_mem _ member)]

end ExportJob

namespace Workspace

variable {codec : Codec} {job : ExportJob}

theorem files_exportDraft {workspace : Workspace} {draft : Draft} {files : FileSystem}
    (written : workspace.files.write (job.directory.join draft.name)
      (draft.contents.toOption.getD []) = .ok files) :
    (workspace.exportDraft job draft).files = files := by
  unfold exportDraft writeDraft
  simp only [reserve, updateRegistry, settle, written]
  cases draft.contents <;> rfl

private theorem files_foldl_exportDraft {workspace : Workspace} {drafts : List Draft}
    {files : FileSystem} (written : workspace.files.writeAll (drafts.map fun draft =>
      (job.directory.join draft.name, draft.contents.toOption.getD [])) = .ok files) :
    (drafts.foldl (·.exportDraft job ·) workspace).files = files := by
  induction drafts generalizing workspace with
  | nil =>
    cases written
    rfl
  | cons draft rest ih =>
    obtain ⟨next, first, others⟩ := FileSystem.writeAll_cons_eq_ok_iff.mp written
    rw [List.foldl_cons]
    apply ih
    rw [files_exportDraft first]
    exact others

/-- Whatever way a plan ends, the files that an export leaves are those of its drafts, written one
after the other. -/
theorem files_exportTexture_eq_foldl (workspace : Workspace) (codec : Codec)
    (job : ExportJob) :
    ∃ start : Workspace, start.files = workspace.files ∧
      (workspace.exportTexture codec job).1.files =
        ((job.plan codec).drafts.foldl (·.exportDraft job ·) start).files := by
  refine ⟨{ workspace with
    decodings := workspace.decodings + if (job.plan codec).asked then 1 else 0 }, rfl, ?_⟩
  unfold exportTexture
  dsimp only
  cases (job.plan codec).ending with
  | complete => rfl
  | refused lines => rfl
  | broken => rfl

/-- An export whose writes succeed leaves exactly what they leave. -/
theorem files_exportTexture {workspace : Workspace} {files : FileSystem}
    (written : workspace.files.writeAll (job.writes codec) = .ok files) :
    (workspace.exportTexture codec job).1.files = files := by
  obtain ⟨start, same, left⟩ := files_exportTexture_eq_foldl workspace codec job
  rw [← same] at written
  exact left.trans (files_foldl_exportDraft written)

private theorem files_runJob {workspace : Workspace} {files : FileSystem}
    (written : workspace.files.writeAll (job.writes codec) = .ok files) :
    (workspace.runJob codec job).files = files := by
  have left := files_exportTexture written
  unfold runJob
  dsimp only
  split
  · exact left
  · exact left

/-- A queue whose writes succeed leaves exactly what they leave. -/
theorem files_runJobs {workspace : Workspace} {jobs : List ExportJob} {files : FileSystem}
    (written : workspace.files.writeAll (jobs.flatMap (·.writes codec)) = .ok files) :
    (workspace.runJobs codec jobs).files = files := by
  induction jobs generalizing workspace with
  | nil =>
    cases written
    rfl
  | cons job rest ih =>
    rw [List.flatMap_cons] at written
    obtain ⟨next, own, others⟩ := FileSystem.writeAll_append_eq_ok_iff.mp written
    apply ih
    rw [files_runJob own]
    exact others

end Workspace

namespace FileSystem

/-- No directory that a list has before a given one holds a file of a name. -/
def IsFirst (files : FileSystem) (directories : List Path) (directory : Path) (name : String) :
    Prop :=
  ∃ before after, directories = before ++ directory :: after ∧
    ∀ other ∈ before, files.isFile (other.join name) = false

theorem firstMatch?_of_isFirst {files : FileSystem} {directories : List Path} {directory : Path}
    {name : String} (first : files.IsFirst directories directory name)
    (found : files.isFile (directory.join name) = true) :
    (FileView.ofFiles files).firstMatch? directories name = some (directory.join name) := by
  obtain ⟨before, after, rfl, missing⟩ := first
  have none : (before.map (·.join name)).find? files.isFile = none := by
    apply List.find?_eq_none.mpr
    intro path member
    obtain ⟨other, inside, rfl⟩ := List.mem_map.mp member
    simp [missing other inside]
  rw [FileView.firstMatch?, List.map_append, List.find?_append]
  change (List.find? files.isFile _).or (List.find? files.isFile _) = _
  rw [none, Option.none_or, List.map_cons, List.find?_cons_of_pos found]

end FileSystem

theorem Workspace.importTexture_outcome (workspace : Workspace) (directories : List Path)
    (handle : Handle) (texture : Texture) :
    (workspace.importTexture directories handle texture).2 =
      ((FileView.ofFiles workspace.files).search directories texture).outcome := rfl

end TextureCache
