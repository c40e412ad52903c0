import TextureCache.Proofs.Export.Bookkeeping
import TextureCache.Proofs.Interleaving.Effect

/-! The export queue with its users. Jobs and the marks of calls that flush share one channel, first
in first out; the worker receives from it one by one, and stops when the channel is closed and
empty. Around it the cache is used as before. -/
namespace TextureCache

inductive Message where
  | request (job : ExportJob)
  /-- A call waits until all before it has run. -/
  | mark (call : Call)

namespace Message

def job? : Message → Option ExportJob
  | .request job => some job
  | .mark _ => none

def jobs (channel : List Message) : List ExportJob := channel.filterMap job?

@[simp] theorem jobs_nil : jobs [] = [] := rfl

@[simp] theorem jobs_request (job : ExportJob) (rest : List Message) :
    jobs (.request job :: rest) = job :: jobs rest := rfl

@[simp] theorem jobs_mark (call : Call) (rest : List Message) :
    jobs (.mark call :: rest) = jobs rest := rfl

@[simp] theorem jobs_append (channel more : List Message) :
    jobs (channel ++ more) = jobs channel ++ jobs more := List.filterMap_append

end Message

/-- A job that was received, with the codec and the disk that it met with. -/
structure Task where
  job : ExportJob
  codec : Codec
  disk : Disk

structure Flush where
  /-- All jobs that were sent before it. -/
  ahead : List ExportJob
  /-- The files at the moment at which the worker came upon its mark and let it return. -/
  answer : Option FileSystem

/-- The queue and the cache around it. -/
structure Service where
  live : Live
  channel : List Message
  /-- All jobs that were ever sent. -/
  sent : List ExportJob
  finished : List Task
  current : Option Task
  flushes : List Flush
  /-- The queue is being dropped: nothing more can be sent. -/
  closed : Bool
  /-- The worker has stopped, and the drop returns. -/
  stopped : Bool

/-- The steps of the users of the queue, of its worker and of calls to the rest of the cache. A job
holds the directory that was the output when it was made, which another may be when it is sent. -/
inductive Move where
  | push (job : ExportJob)
  | flush
  | close
  /-- The worker receives the next message. -/
  | receive (codec : Codec) (disk : Disk)
  /-- The worker makes its next step within a job. -/
  | work
  /-- The worker finds the channel closed and empty. -/
  | stop
  | call (action : Action)

/-- A step of a call that has nothing to do with the queue. -/
def Action.aside : Action → Bool
  | .setOutput _ | .addInput _ | .link _ _ | .release _ | .notify _ | .attend _ => true
  | .push _ | .edit _ | .take _ _ | .work => false

/-- To queue a texture is to send a job with the directory that is the output at the moment. -/
theorem Live.act_push_of_enqueue {live : Live} {directory : Path}
    (dump : live.storage.dump = true) (output : live.storage.directories.output = some directory)
    (handle : Handle) (texture : Texture) :
    live.act (.push ⟨handle, texture, directory, live.storage.container⟩) =
      some { live with storage := live.storage.enqueue handle texture } := by
  simp only [Live.act, Storage.enqueue, dump, output]

namespace Service

variable (service : Service)

def opened (storage : Storage) (workspace : Workspace) : Service where
  live := ⟨{ storage with queue := [] }, workspace, .idle, [], []⟩
  channel := []
  sent := []
  finished := []
  current := none
  flushes := []
  closed := false
  stopped := false

def received : List ExportJob :=
  service.finished.map Task.job ++ (service.current.map Task.job).toList

/-- The worker receives a message, if it is not busy: it begins a job, or it lets a call return. -/
def receive (codec : Codec) (disk : Disk) : Option Service :=
  match service.current, service.channel with
  | none, .request job :: rest => (service.live.act (.take codec disk)).map fun live =>
    { service with live, channel := rest, current := some ⟨job, codec, disk⟩ }
  | none, .mark call :: rest =>
    let files := service.live.workspace.files
    some { service with
      channel := rest
      flushes := service.flushes.modify call fun flush => { flush with answer := some files } }
  | _, _ => none

/-- The worker makes a step, which may be the last of its job. -/
def work : Option Service :=
  (service.live.act .work).map fun live =>
    if live.worker.job?.isSome then { service with live }
    else { service with
      live, finished := service.finished ++ service.current.toList, current := none }

def act : Move → Option Service
  | .push job =>
    if service.closed then none
    else (service.live.act (.push job)).map fun live =>
      { service with
        live, channel := service.channel ++ [.request job], sent := service.sent ++ [job] }
  | .flush =>
    if service.closed then none
    else some { service with
      channel := service.channel ++ [.mark service.flushes.length]
      flushes := service.flushes ++ [⟨service.sent, none⟩] }
  | .close => some { service with closed := true }
  | .receive codec disk => service.receive codec disk
  | .work => service.work
  | .stop =>
    if service.closed ∧ service.channel.isEmpty ∧ service.current.isNone then
      some { service with stopped := true }
    else none
  | .call action =>
    if action.aside then (service.live.act action).map fun live => { service with live } else none

def run (moves : List Move) : Option Service := moves.foldlM act service

end Service

/-! ## What a task writes -/

namespace Task

variable (task : Task)

def drafts : List Draft := (task.job.plan task.codec).drafts

/-- Write drafts up to the first writer that breaks off; the second part tells whether one did. -/
def writeAll : List Draft → FileSystem → FileSystem × Bool
  | [], files => (files, false)
  | draft :: rest, files =>
    let (files, ending) := task.disk files (task.job.directory.join draft.name) draft
    if ending = .broken then (files, true) else writeAll rest files

/-- Export the texture of a task. A job that breaks off leaves what it wrote until then. -/
def exportIn (workspace : Workspace) : Workspace :=
  (workspace.exportOn task.disk task.codec task.job).workspace

theorem writeAll_append (first rest : List Draft) (files : FileSystem) :
    task.writeAll (first ++ rest) files =
      if (task.writeAll first files).2 then task.writeAll first files
      else task.writeAll rest (task.writeAll first files).1 := by
  induction first generalizing files with
  | nil => rfl
  | cons draft others ih =>
    rw [List.cons_append, writeAll, writeAll]
    generalize task.disk files (task.job.directory.join draft.name) draft = written
    by_cases broken : written.2 = .broken
    · simp [broken]
    · simp only [if_neg broken, ih]

theorem writeAll_singleton (draft : Draft) (files : FileSystem) :
    task.writeAll [draft] files =
      let (files, ending) := task.disk files (task.job.directory.join draft.name) draft
      (files, decide (ending = .broken)) := by
  rw [writeAll]
  dsimp only
  split <;> simp [writeAll, *]

private theorem files_exportDraftsOn (drafts : List Draft) (workspace : Workspace) :
    (Workspace.exportDraftsOn task.disk task.job drafts workspace).1.files =
      (task.writeAll drafts workspace.files).1 := by
  induction drafts generalizing workspace with
  | nil => rfl
  | cons draft rest ih =>
    have files := workspace.files_exportDraftOn task.disk task.job draft
    have ending : (workspace.exportDraftOn task.disk task.job draft).2.ending =
      (task.disk workspace.files (task.job.directory.join draft.name) draft).2 := rfl
    rw [Workspace.exportDraftsOn, writeAll]
    dsimp only
    rw [ending, ← files]
    split
    · rfl
    · exact ih _

/-- An export writes its drafts up to the first writer that breaks off. -/
theorem files_exportIn (workspace : Workspace) :
    (task.exportIn workspace).files = (task.writeAll task.drafts workspace.files).1 := by
  have files := task.files_exportDraftsOn (task.job.plan task.codec).drafts { workspace with
    decodings := workspace.decodings + if (task.job.plan task.codec).asked then 1 else 0 }
  unfold exportIn Workspace.exportOn
  dsimp only
  generalize Workspace.exportDraftsOn task.disk task.job _ _ = written at *
  by_cases broken : written.2.any (·.ending = .broken) = true
  · rw [if_pos broken]
    exact files
  · rw [if_neg broken]
    cases (task.job.plan task.codec).ending <;> exact files

end Task

namespace Workspace

def exportAll (workspace : Workspace) (tasks : List Task) : Workspace :=
  tasks.foldl (fun workspace task => task.exportIn workspace) workspace

theorem exportAll_append (workspace : Workspace) (tasks more : List Task) :
    workspace.exportAll (tasks ++ more) = (workspace.exportAll tasks).exportAll more :=
  List.foldl_append

/-- With the plain disk and one codec they leave the files of the queue that runs. -/
theorem files_exportAll_plain (workspace other : Workspace) (same : workspace.files = other.files)
    (codec : Codec) (jobs : List ExportJob) :
    (workspace.exportAll (jobs.map (⟨·, codec, .plain⟩))).files =
      (other.runJobs codec jobs).files := by
  induction jobs generalizing workspace other with
  | nil => exact same
  | cons job rest ih =>
    let task : Task := ⟨job, codec, .plain⟩
    have run : (runJob codec other job).files = (task.exportIn other).files := by
      have plain := exportOn_plain other codec job
      unfold runJob
      rw [← plain]
      dsimp only
      split <;> rfl
    refine ih (task.exportIn workspace) (runJob codec other job) ?_
    rw [run, task.files_exportIn, task.files_exportIn, same]

end Workspace
end TextureCache
