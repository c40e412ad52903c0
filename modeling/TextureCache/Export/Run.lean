import TextureCache.Export.Plan
import TextureCache.Workspace

/-! Carrying out exports. Every file is written in four steps: its path is reserved, the file is
written, the reservation is settled, and the outcome is recorded. No other part of the program can
see a state within a step. -/
namespace TextureCache.Workspace

/-- The first step: mark the path as being written. -/
def reserve (workspace : Workspace) (path : Path) : Workspace :=
  workspace.updateRegistry (·.reserve path)

/-- The second step: create the file and fill it. A file without contents stays empty. -/
def writeDraft (workspace : Workspace) (path : Path) (draft : Draft) : Workspace × Option Failure :=
  match workspace.files.write path (draft.contents.toOption.getD []) with
  | .error fault => (workspace, some (.write path fault.message))
  | .ok files =>
    let failure := match draft.contents with
      | .ok _ => none
      | .error error => some (.write path error.message)
    ({ workspace with files }, failure)

/-- The third step: commit a finished write and roll back a failed one. -/
def settle (workspace : Workspace) (path : Path) (failure : Option Failure) : Workspace :=
  workspace.updateRegistry (·.settle workspace.files path failure.isNone)

/-- The fourth step: link the file to its texture, or tell the log. -/
def record (workspace : Workspace) (name : String) (handle : Handle) :
    (failure : Option Failure) → Workspace
  | none => workspace.updateRegistry (·.associate name handle)
  | some failure => workspace.report failure.logLines

def exportDraft (workspace : Workspace) (job : ExportJob) (draft : Draft) : Workspace :=
  let path := job.directory.join draft.name
  let (workspace, failure) := (workspace.reserve path).writeDraft path draft
  (workspace.settle path failure).record draft.name job.handle failure

/-- Carry out a job; the second part tells whether it ran to its end. -/
def exportTexture (workspace : Workspace) (codec : Codec) (job : ExportJob) :
    Workspace × Bool :=
  let plan := job.plan codec
  let asked := if plan.asked then 1 else 0
  let start := { workspace with decodings := workspace.decodings + asked }
  let written := plan.drafts.foldl (·.exportDraft job ·) start
  match plan.ending with
  | .complete => (written, true)
  | .refused lines => (written.report lines, true)
  | .broken => (written, false)

/-- The line for a job that broke off. -/
def brokenLine (handle : Handle) : LogLine where
  severity := .error
  message := "[ExportQueue] Export of texture TextureHandle(" ++ toString handle.number.toNat ++
    ") panicked, continuing with the next job"

/-- Carry out a job of a queue; one that breaks off does not stop those behind it. -/
def runJob (codec : Codec) (workspace : Workspace) (job : ExportJob) : Workspace :=
  let (workspace, complete) := workspace.exportTexture codec job
  if complete then workspace else workspace.report [brokenLine job.handle]

def runJobs (workspace : Workspace) (codec : Codec) (jobs : List ExportJob) : Workspace :=
  jobs.foldl (runJob codec) workspace

end TextureCache.Workspace
