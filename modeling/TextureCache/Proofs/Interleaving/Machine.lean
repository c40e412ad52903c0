import TextureCache.Proofs.Export.Disk
import TextureCache.Storage

/-! The cache in use by several parties at once: the worker that carries out jobs, callers of the
storage, and calls that handle changes. Each step of one of them is an action; an operation on the
registry is a step of its own, and between two steps of a party any other may come in. The history
keeps what happens to the registry, what the stamps tell the calls that ask, and the reloads. -/
namespace TextureCache

/-- A job that is being carried out, with the files that are still to be written. -/
structure RunningJob where
  job : ExportJob
  disk : Disk
  drafts : List Draft
  ending : ExportEnd

def RunningJob.path (running : RunningJob) (draft : Draft) : Path :=
  running.job.directory.join draft.name

inductive Worker where
  | idle
  /-- Before the next file of a job, or at its end. -/
  | between (running : RunningJob)
  | reserved (running : RunningJob) (draft : Draft)
  | written (running : RunningJob) (draft : Draft) (ending : WriteEnd)
  | settled (running : RunningJob) (draft : Draft) (ending : WriteEnd)

def Worker.job? : Worker → Option ExportJob
  | .idle => none
  | .between running | .reserved running _ | .written running _ _ | .settled running _ _ =>
    some running.job

/-- How far a call that handles a change has come. -/
inductive Progress where
  /-- The name is linked to a texture. -/
  | tracked (name : String)
  /-- The file's time was read. -/
  | timed (name : String) (modified : Int)
  /-- The change is not our own, and the file is tried a few times more. -/
  | foreign (name : String) (attempts : Nat)
  | readable (name : String)
  | ended (outcome : ReloadOutcome)
  deriving DecidableEq, Repr

structure Change where
  path : Path
  progress : Progress
  deriving DecidableEq, Repr

/-- Calls are told apart by the order in which they come. -/
abbrev Call := Nat

inductive Event where
  | reserved (path : Path)
  /-- A reservation ended, with a commit or with a rollback. -/
  | settled (path : Path) (finished : Bool)
  /-- The stamps under a directory were dropped. -/
  | forgot (directory : Path)
  | linked (name : String) (handle : Handle)
  | released (handle : Handle)
  /-- A call asked whether a change is our own. -/
  | checked (call : Call) (path : Path) (own : Bool)
  /-- A call had a texture imported again. -/
  | reloaded (call : Call) (handle : Handle)
  deriving DecidableEq, Repr

/-- The cache and all parties. -/
structure Live where
  storage : Storage
  workspace : Workspace
  worker : Worker
  changes : List Change
  /-- Newest first. -/
  history : List Event

/-- The steps of all parties. Outside edits may leave any files, and a job may meet with any codec
and any disk. -/
inductive Action where
  | push (job : ExportJob)
  | setOutput (found : Option Path)
  | addInput (directory : Path)
  /-- An import came upon a file. -/
  | link (name : String) (handle : Handle)
  | release (handle : Handle)
  | edit (files : FileSystem)
  /-- The worker takes the next job. -/
  | take (codec : Codec) (disk : Disk)
  /-- The worker makes its next step within a job. -/
  | work
  /-- A call for a change comes in. -/
  | notify (path : Path)
  /-- A call makes its next step. -/
  | attend (call : Call)

def Workspace.finishJob (workspace : Workspace) (handle : Handle) : ExportEnd → Workspace
  | .complete => workspace
  | .refused lines => workspace.report lines
  | .broken => workspace.report [brokenLine handle]

namespace Live

variable (live : Live)

def setOutput (found : Option Path) : Live :=
  let (storage, workspace) := live.storage.switchOutput live.workspace found
  { live with
    storage, workspace
    history := (live.storage.directories.output.map Event.forgot).toList ++ live.history }

def link (name : String) (handle : Handle) : Live :=
  { live with
    workspace := live.workspace.updateRegistry (·.associate name handle)
    history := .linked name handle :: live.history }

def release (handle : Handle) : Live :=
  { live with
    workspace := live.workspace.updateRegistry (·.release handle)
    history := .released handle :: live.history }

/-- Take the next job, if the worker has none. What the job is going to write is settled then. -/
def take (codec : Codec) (disk : Disk) : Option Live :=
  match live.worker, live.storage.queue with
  | .idle, job :: rest =>
    let plan := job.plan codec
    let asked := if plan.asked then 1 else 0
    some { live with
      storage := { live.storage with queue := rest }
      workspace := { live.workspace with decodings := live.workspace.decodings + asked }
      worker := .between ⟨job, disk, plan.drafts, plan.ending⟩ }
  | _, _ => none

/-- The next of the four steps for a file, or the end of the job. -/
def work : Option Live :=
  match live.worker with
  | .idle => none
  | .between running =>
    match running.drafts with
    | [] => some { live with
        workspace := live.workspace.finishJob running.job.handle running.ending
        worker := .idle }
    | draft :: rest => some { live with
        workspace := live.workspace.reserve (running.path draft)
        worker := .reserved { running with drafts := rest } draft
        history := .reserved (running.path draft) :: live.history }
  | .reserved running draft =>
    let (workspace, ending) := live.workspace.writeOn running.disk (running.path draft) draft
    some { live with workspace, worker := .written running draft ending }
  | .written running draft ending => some { live with
      workspace := live.workspace.settleEnd (running.path draft) ending
      worker := .settled running draft ending
      history := .settled (running.path draft) (ending = .finished) :: live.history }
  | .settled running draft ending =>
    let workspace := live.workspace.recordEnd draft.name running.job.handle ending
    match ending with
    | .finished => some { live with
        workspace
        worker := .between running
        history := .linked draft.name running.job.handle :: live.history }
    | .failed _ => some { live with workspace, worker := .between running }
    | .broken => some { live with
        workspace := workspace.report [Workspace.brokenLine running.job.handle]
        worker := .idle }

/-- A call comes in, and asks first whether the file belongs to a texture. -/
def notify (path : Path) : Live :=
  let progress := match path.fileName? with
    | none => .ended .untracked
    | some name =>
      if live.workspace.registry.isTracked name then .tracked name else .ended .untracked
  { live with changes := live.changes ++ [⟨path, progress⟩] }

/-- A call moves on. -/
def proceed (call : Call) (path : Path) (progress : Progress) : Live :=
  { live with changes := live.changes.set call ⟨path, progress⟩ }

/-- A call asks for the stamp of its path. -/
def check (policy : ReloadPolicy) (call : Call) (path : Path) (name : String) (modified : Int) :
    Live :=
  let own := live.workspace.registry.isSelfWrite path modified policy.guard
  { live.proceed call path (if own then .ended .selfWrite else .foreign name policy.attempts) with
    history := .checked call path own :: live.history }

/-- A call asks for the texture of its file and has it imported again. -/
def reload (call : Call) (path : Path) (name : String) : Live :=
  match live.workspace.registry.association? name with
  | none => live.proceed call path (.ended .untracked)
  | some handle =>
    { live.proceed call path (.ended (.reloaded handle)) with
      history := .reloaded call handle :: live.history }

def attend (policy : ReloadPolicy) (call : Call) : Option Live := do
  let ⟨path, progress⟩ ← live.changes[call]?
  match progress with
  | .tracked name =>
    let modified := ((live.workspace.files.modified? path).map Time.unixSeconds).getD latestTime
    some (live.proceed call path (.timed name modified))
  | .timed name modified => some (live.check policy call path name modified)
  | .foreign _ 0 => some (live.proceed call path (.ended .unreadable))
  | .foreign name (attempts + 1) =>
    some (live.proceed call path (match live.workspace.files.read path with
      | .ok _ => .readable name
      | .error _ => .foreign name attempts))
  | .readable name => some (live.reload call path name)
  | .ended _ => none

/-- One step of one party, if it can be made. -/
def act : Action → Option Live
  | .push job =>
    some { live with storage := { live.storage with queue := live.storage.queue ++ [job] } }
  | .setOutput found => some (live.setOutput found)
  | .addInput directory => some { live with
      storage := { live.storage with
        directories := live.storage.directories.addSearch directory } }
  | .link name handle => some (live.link name handle)
  | .release handle => some (live.release handle)
  | .edit files => some { live with workspace := { live.workspace with files } }
  | .take codec disk => live.take codec disk
  | .work => live.work
  | .notify path => live.storage.policy.map fun _ => live.notify path
  | .attend call => live.storage.policy.bind (live.attend · call)

def run (live : Live) (actions : List Action) : Option Live := actions.foldlM Live.act live

end Live
end TextureCache
