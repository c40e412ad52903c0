import TextureCache.Proofs.Export

/-! Exports to disks that fail. A disk says what becomes of the files when one of them is written,
and how the write ends; an export to a disk takes the same steps as any export, and the disk that
never fails on its own makes it the export that runs. -/
namespace TextureCache

inductive WriteEnd where
  | finished
  | failed (failure : Failure)
  /-- The writer breaks off. -/
  | broken
  deriving DecidableEq, Repr

/-- What becomes of the files when a draft is written to a path, and how the write ends. -/
abbrev Disk := FileSystem → Path → Draft → FileSystem × WriteEnd

namespace Disk

/-- A write leaves the tree as it is, or it puts a file where its path leads. Nothing is said of the
contents of that file, nor of the clock. -/
def Sound (disk : Disk) : Prop :=
  ∀ files path draft,
    (∀ location, (disk files path draft).1.node? location = files.node? location) ∨
    ∃ target, files.writeTarget path = .ok target ∧ (disk files path draft).1.HoldsFile target ∧
      ∀ location, location ≠ target →
        (disk files path draft).1.node? location = files.node? location

/-- The disk on which a write fails only if its path leads nowhere or the draft has no contents. -/
def plain : Disk := fun files path draft =>
  match files.write path (draft.contents.toOption.getD []) with
  | .error fault => (files, .failed (.write path fault.message))
  | .ok files =>
    let ending := match draft.contents with
      | .ok _ => .finished
      | .error error => .failed (.write path error.message)
    (files, ending)

theorem plain_sound : plain.Sound := by
  intro files path draft
  unfold plain
  cases written : files.write path (draft.contents.toOption.getD []) with
  | error fault => exact .inl fun _ => rfl
  | ok after =>
    obtain ⟨target, reached, rfl⟩ := FileSystem.write_eq_ok_iff.mp written
    have entry (location : Location) := FileSystem.node?_setNode files target location
      (.file (draft.contents.toOption.getD []) files.clock)
    exact .inr ⟨target, reached, ⟨_, _, (entry target).trans (if_pos rfl)⟩,
      fun location elsewhere => (entry location).trans (if_neg elsewhere)⟩

variable {disk : Disk}

/-- A write makes no links and no directories, and takes none away. -/
theorem Sound.gainsFiles (sound : disk.Sound) (files : FileSystem) (path : Path) (draft : Draft) :
    files.GainsFiles (disk files path draft).1 := by
  intro location
  rcases sound files path draft with same | ⟨target, reached, file, others⟩
  · exact .inl (same location)
  · by_cases here : location = target
    · exact .inr ⟨here ▸ FileSystem.writable_of_writeTarget reached, here ▸ file⟩
    · exact .inl (others location here)

/-- What a write changes is the file to which its path leads afterwards. -/
theorem Sound.location?_of_changed (sound : disk.Sound) {files : FileSystem} {path : Path}
    {draft : Draft} {location : Location}
    (changed : (disk files path draft).1.node? location ≠ files.node? location) :
    (disk files path draft).1.writeTarget path = .ok location ∧
      (disk files path draft).1.HoldsFile location := by
  rcases sound files path draft with same | ⟨target, reached, file, others⟩
  · exact absurd (same location) changed
  · by_cases here : location = target
    · subst here
      exact ⟨(sound.gainsFiles files path draft).writeTarget reached, file⟩
    · exact absurd (others location here) changed

end Disk

/-- An attempt to write a file of an export: how it ended, and the files right after it. -/
structure Attempt where
  draft : Draft
  ending : WriteEnd
  files : FileSystem

/-- An export and the attempts that it made, in order. -/
structure ExportRun where
  workspace : Workspace
  /-- The export ran to its end. -/
  complete : Bool
  attempts : List Attempt

namespace Workspace

/-- The second step on a disk. -/
def writeOn (workspace : Workspace) (disk : Disk) (path : Path) (draft : Draft) :
    Workspace × WriteEnd :=
  let (files, ending) := disk workspace.files path draft
  ({ workspace with files }, ending)

/-- The third step, with any end of the second. -/
def settleEnd (workspace : Workspace) (path : Path) (ending : WriteEnd) : Workspace :=
  workspace.updateRegistry (·.settle workspace.files path (ending = .finished))

/-- The fourth step. A writer that broke off is not told of here. -/
def recordEnd (workspace : Workspace) (name : String) (handle : Handle) :
    (ending : WriteEnd) → Workspace
  | .finished => workspace.record name handle none
  | .failed failure => workspace.record name handle (some failure)
  | .broken => workspace

def exportDraftOn (workspace : Workspace) (disk : Disk) (job : ExportJob) (draft : Draft) :
    Workspace × Attempt :=
  let path := job.directory.join draft.name
  let (written, ending) := (workspace.reserve path).writeOn disk path draft
  ((written.settleEnd path ending).recordEnd draft.name job.handle ending,
    ⟨draft, ending, written.files⟩)

/-- Write files of an export in order, up to the first writer that breaks off. -/
def exportDraftsOn (disk : Disk) (job : ExportJob) :
    List Draft → Workspace → Workspace × List Attempt
  | [], workspace => (workspace, [])
  | draft :: rest, workspace =>
    let written := workspace.exportDraftOn disk job draft
    if written.2.ending = .broken then (written.1, [written.2])
    else
      let others := exportDraftsOn disk job rest written.1
      (others.1, written.2 :: others.2)

def exportOn (workspace : Workspace) (disk : Disk) (codec : Codec) (job : ExportJob) :
    ExportRun :=
  let plan := job.plan codec
  let asked := if plan.asked then 1 else 0
  let start := { workspace with decodings := workspace.decodings + asked }
  let (written, attempts) := exportDraftsOn disk job plan.drafts start
  if attempts.any (·.ending = .broken) then ⟨written, false, attempts⟩
  else
    match plan.ending with
    | .complete => ⟨written, true, attempts⟩
    | .refused lines => ⟨written.report lines, true, attempts⟩
    | .broken => ⟨written, false, attempts⟩

/-! ## The export that runs -/

private theorem exportDraftOn_plain (workspace : Workspace) (job : ExportJob) (draft : Draft) :
    (workspace.exportDraftOn .plain job draft).1 = workspace.exportDraft job draft ∧
      (workspace.exportDraftOn .plain job draft).2.ending ≠ .broken := by
  unfold exportDraftOn exportDraft writeOn writeDraft Disk.plain
  dsimp only
  cases (workspace.reserve (job.directory.join draft.name)).files.write
      (job.directory.join draft.name) (draft.contents.toOption.getD []) with
  | error fault => exact ⟨rfl, nofun⟩
  | ok files => cases draft.contents <;> exact ⟨rfl, nofun⟩

private theorem exportDraftsOn_plain (workspace : Workspace) (job : ExportJob)
    (drafts : List Draft) :
    (exportDraftsOn .plain job drafts workspace).1 =
        drafts.foldl (·.exportDraft job ·) workspace ∧
      (exportDraftsOn .plain job drafts workspace).2.any (·.ending = .broken) = false := by
  induction drafts generalizing workspace with
  | nil => exact ⟨rfl, rfl⟩
  | cons draft rest ih =>
    obtain ⟨step, sound⟩ := exportDraftOn_plain workspace job draft
    obtain ⟨run, others⟩ := ih (workspace.exportDraft job draft)
    rw [List.foldl_cons, exportDraftsOn]
    simp only [if_neg sound, step]
    exact ⟨run, by simp [others, sound]⟩

theorem exportOn_plain (workspace : Workspace) (codec : Codec) (job : ExportJob) :
    ((workspace.exportOn .plain codec job).workspace,
        (workspace.exportOn .plain codec job).complete) =
      workspace.exportTexture codec job := by
  unfold exportOn exportTexture
  dsimp only
  obtain ⟨run, sound⟩ := exportDraftsOn_plain
    { workspace with decodings := workspace.decodings + if (job.plan codec).asked then 1 else 0 }
    job (job.plan codec).drafts
  rw [if_neg (by simp [sound]), run]
  cases (job.plan codec).ending <;> rfl

end Workspace
end TextureCache
