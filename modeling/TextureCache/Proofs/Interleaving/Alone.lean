import TextureCache.Proofs.Interleaving.Machine

/-! Each party alone. When no other party makes a step in between, the steps of the worker carry out
a job as a queue does, and the steps of a call decide on a change as it is decided at once. -/
namespace TextureCache

def Workspace.runJobOn (workspace : Workspace) (disk : Disk) (codec : Codec)
    (job : ExportJob) : Workspace :=
  let run := workspace.exportOn disk codec job
  if run.complete then run.workspace else run.workspace.report [brokenLine job.handle]

theorem Workspace.runJobOn_plain (workspace : Workspace) (codec : Codec)
    (job : ExportJob) : workspace.runJobOn .plain codec job = workspace.runJob codec job := by
  have same := workspace.exportOn_plain codec job
  unfold runJobOn runJob
  rw [← same]

/-- What is made of the files that are left, and of the end of the job. -/
def RunningJob.finish (running : RunningJob) (workspace : Workspace) : Workspace :=
  let (written, attempts) :=
    Workspace.exportDraftsOn running.disk running.job running.drafts workspace
  if attempts.any (·.ending = .broken) then
    written.report [Workspace.brokenLine running.job.handle]
  else written.finishJob running.job.handle running.ending

/-- A writer that breaks off ends the job, and any other leaves the files behind its own. -/
theorem RunningJob.finish_cons (job : ExportJob) (disk : Disk) (draft : Draft)
    (rest : List Draft) (ending : ExportEnd) (workspace : Workspace) :
    RunningJob.finish ⟨job, disk, draft :: rest, ending⟩ workspace =
      let (next, attempt) := workspace.exportDraftOn disk job draft
      if attempt.ending = .broken then next.report [Workspace.brokenLine job.handle]
      else RunningJob.finish ⟨job, disk, rest, ending⟩ next := by
  unfold RunningJob.finish
  rw [Workspace.exportDraftsOn]
  dsimp only
  generalize workspace.exportDraftOn disk job draft = written
  by_cases broken : written.2.ending = .broken
  · simp [broken]
  · simp [broken]

theorem Workspace.runJobOn_eq (workspace : Workspace) (disk : Disk) (codec : Codec)
    (job : ExportJob) :
    workspace.runJobOn disk codec job =
      let plan := job.plan codec
      let asked := if plan.asked then 1 else 0
      RunningJob.finish ⟨job, disk, plan.drafts, plan.ending⟩
        { workspace with decodings := workspace.decodings + asked } := by
  unfold runJobOn exportOn RunningJob.finish
  dsimp only
  generalize exportDraftsOn disk job (job.plan codec).drafts _ = written
  by_cases broken : written.2.any (·.ending = .broken) = true
  · simp only [if_pos broken]
    rfl
  · simp only [if_neg broken]
    cases (job.plan codec).ending <;> rfl

namespace Live

variable {live next : Live}

private theorem run_cons {action : Action} (rest : List Action)
    (acted : live.act action = some next) :
    live.run (action :: rest) = next.run rest := by
  unfold run
  rw [List.foldlM_cons, acted]
  rfl

/-! ## The worker -/

/-- So many steps of the worker bring it to the end of its job, and the rest of the cache is as
before. -/
def Works (live : Live) (workspace : Workspace) : Prop :=
  ∃ count next, live.run (List.replicate count .work) = some next ∧ next.worker = .idle ∧
    next.workspace = workspace ∧ next.storage = live.storage ∧ next.changes = live.changes

theorem Works.step {workspace : Workspace} (works : next.Works workspace)
    (acted : live.act .work = some next) (storage : next.storage = live.storage)
    (changes : next.changes = live.changes) : live.Works workspace := by
  obtain ⟨count, last, run, idle, final, store, calls⟩ := works
  refine ⟨count + 1, last, ?_, idle, final, store.trans storage, calls.trans changes⟩
  rw [List.replicate_succ, run_cons _ acted, run]

/-- The worker finishes what it has begun. -/
theorem works_between {running : RunningJob} (working : live.worker = .between running) :
    live.Works (running.finish live.workspace) := by
  obtain ⟨job, disk, drafts, ending⟩ := running
  induction drafts generalizing live with
  | nil =>
    refine ⟨1, { live with
      workspace := live.workspace.finishJob job.handle ending, worker := .idle }, ?_⟩
    refine ⟨?_, rfl, rfl, rfl, rfl⟩
    rw [List.replicate_one, run_cons []]
    · rfl
    · simp only [act, work, working]
  | cons draft rest ih =>
    let path := job.directory.join draft.name
    let left : RunningJob := ⟨job, disk, rest, ending⟩
    let reserved : Live := { live with
      workspace := live.workspace.reserve path
      worker := .reserved left draft
      history := .reserved path :: live.history }
    let result := reserved.workspace.writeOn disk path draft
    let written : Live := { reserved with
      workspace := result.1, worker := .written left draft result.2 }
    let settled : Live := { written with
      workspace := written.workspace.settleEnd path result.2
      worker := .settled left draft result.2
      history := .settled path (result.2 = .finished) :: reserved.history }
    have first : live.act .work = some reserved := by
      simp only [act, work, working]
      rfl
    -- From the last step backwards: each state works because the one behind it does.
    suffices last : settled.Works
        (RunningJob.finish ⟨job, disk, draft :: rest, ending⟩ live.workspace) by
      have second : written.Works _ := last.step rfl rfl rfl
      have third : reserved.Works _ := second.step rfl rfl rfl
      exact third.step first rfl rfl
    have recorded : (live.workspace.exportDraftOn disk job draft).1 =
        settled.workspace.recordEnd draft.name job.handle result.2 := rfl
    have ended : (live.workspace.exportDraftOn disk job draft).2.ending = result.2 := rfl
    rw [RunningJob.finish_cons]
    dsimp only
    rw [recorded, ended]
    cases final : result.2 with
    | finished =>
      have others := @ih { settled with
        workspace := settled.workspace.recordEnd draft.name job.handle .finished
        worker := .between left
        history := .linked draft.name job.handle :: settled.history } rfl
      rw [if_neg nofun]
      refine others.step ?_ rfl rfl
      simp only [act, work, settled, written, final]
      rfl
    | failed failure =>
      have others := @ih { settled with
        workspace := settled.workspace.recordEnd draft.name job.handle (.failed failure)
        worker := .between left } rfl
      rw [if_neg nofun]
      refine others.step ?_ rfl rfl
      simp only [act, work, settled, written, final]
      rfl
    | broken =>
      rw [if_pos rfl]
      refine ⟨1, { settled with
        workspace := (settled.workspace.recordEnd draft.name job.handle .broken).report
          [Workspace.brokenLine job.handle]
        worker := .idle }, ?_, rfl, rfl, rfl, rfl⟩
      rw [List.replicate_one, run_cons []]
      · rfl
      · simp only [act, work, settled, written, final]
        rfl

/-- A worker that is alone carries out the next job of the queue. -/
theorem take_alone {job : ExportJob} {rest : List ExportJob} (idle : live.worker = .idle)
    (queued : live.storage.queue = job :: rest) (codec : Codec) (disk : Disk) :
    ∃ count next, live.run (.take codec disk :: List.replicate count .work) = some next ∧
      next.worker = .idle ∧ next.workspace = live.workspace.runJobOn disk codec job ∧
      next.storage = { live.storage with queue := rest } ∧ next.changes = live.changes := by
  let plan := job.plan codec
  let asked := if plan.asked then 1 else 0
  let taken : Live := { live with
    storage := { live.storage with queue := rest }
    workspace := { live.workspace with decodings := live.workspace.decodings + asked }
    worker := .between ⟨job, disk, plan.drafts, plan.ending⟩ }
  have first : live.act (.take codec disk) = some taken := by
    simp only [act, take, idle, queued]
    rfl
  obtain ⟨count, next, run, final, workspace, storage, changes⟩ := @works_between taken _ rfl
  refine ⟨count, next, ?_, final, ?_, storage, changes⟩
  · rw [run_cons _ first, run]
  · rw [workspace, Workspace.runJobOn_eq]

/-! ## A call -/

/-- So many steps of the latest call bring it to an outcome, and the rest of the cache is as
before. -/
def Decides (live : Live) (calls : List Change) (path : Path) (outcome : ReloadOutcome) : Prop :=
  ∃ count next, live.run (List.replicate count (.attend calls.length)) = some next ∧
    next.changes = calls ++ [⟨path, .ended outcome⟩] ∧ next.workspace = live.workspace ∧
    next.storage = live.storage ∧ next.worker = live.worker

variable {calls : List Change} {path : Path} {policy : ReloadPolicy}

private theorem decides_ended {outcome : ReloadOutcome}
    (stands : live.changes = calls ++ [⟨path, .ended outcome⟩]) :
    live.Decides calls path outcome := ⟨0, live, rfl, stands, rfl, rfl, rfl⟩

theorem Decides.step {outcome : ReloadOutcome} (decides : next.Decides calls path outcome)
    (acted : live.act (.attend calls.length) = some next)
    (workspace : next.workspace = live.workspace) (storage : next.storage = live.storage)
    (worker : next.worker = live.worker) : live.Decides calls path outcome := by
  obtain ⟨count, last, run, ended, files, store, work⟩ := decides
  refine ⟨count + 1, last, ?_, ended, files.trans workspace, store.trans storage,
    work.trans worker⟩
  rw [List.replicate_succ, run_cons _ acted, run]

private theorem act_attend (live : Live) {progress : Progress}
    (watched : live.storage.policy = some policy)
    (stands : live.changes = calls ++ [⟨path, progress⟩]) :
    live.changes[calls.length]? = some ⟨path, progress⟩ ∧
      live.act (.attend calls.length) = live.attend policy calls.length ∧
      ∀ further, (live.proceed calls.length path further).changes = calls ++ [⟨path, further⟩] := by
  refine ⟨by simp [stands], ?_, fun further => by simp [proceed, stands]⟩
  simp only [act, watched]
  rfl

private theorem decides_readable (live : Live) {name : String}
    (watched : live.storage.policy = some policy)
    (stands : live.changes = calls ++ [⟨path, .readable name⟩]) :
    live.Decides calls path (match live.workspace.registry.association? name with
      | some handle => .reloaded handle
      | none => .untracked) := by
  obtain ⟨there, acted, proceeds⟩ := live.act_attend watched stands
  cases linked : live.workspace.registry.association? name with
  | none =>
    refine (decides_ended (proceeds _)).step ?_ rfl rfl rfl
    simp [acted, attend, there, reload, linked]
  | some handle =>
    have ended : ({ live.proceed calls.length path (.ended (.reloaded handle)) with
        history := .reloaded calls.length handle :: live.history } : Live).changes = _ :=
      proceeds _
    refine (decides_ended ended).step ?_ rfl rfl rfl
    simp [acted, attend, there, reload, linked]

private theorem decides_foreign (live : Live) {name : String} {attempts : Nat}
    (watched : live.storage.policy = some policy)
    (stands : live.changes = calls ++ [⟨path, .foreign name attempts⟩]) :
    live.Decides calls path (if live.workspace.files.isReadable attempts path then
      match live.workspace.registry.association? name with
      | some handle => .reloaded handle
      | none => .untracked
    else .unreadable) := by
  induction attempts generalizing live with
  | zero =>
    obtain ⟨there, acted, proceeds⟩ := live.act_attend watched stands
    refine (decides_ended (proceeds _)).step ?_ rfl rfl rfl
    simp only [acted, attend, there, Option.bind_eq_bind, Option.bind_some]
    rfl
  | succ attempts ih =>
    obtain ⟨there, acted, proceeds⟩ := live.act_attend watched stands
    cases read : live.workspace.files.read path with
    | ok contents =>
      have readable : live.workspace.files.isReadable (attempts + 1) path = true := by
        simp [FileSystem.isReadable, read]
      rw [if_pos readable]
      refine (decides_readable (live.proceed calls.length path (.readable name)) watched
        (proceeds _)).step ?_ rfl rfl rfl
      simp only [acted, attend, there, read, Option.bind_eq_bind, Option.bind_some]
    | error fault =>
      have same (attempts : Nat) : live.workspace.files.isReadable attempts path = false := by
        simp [FileSystem.isReadable, read]
      let tried := live.proceed calls.length path (.foreign name attempts)
      have others := @ih tried watched (proceeds _)
      have kept : tried.workspace = live.workspace := rfl
      rw [same, if_neg nofun]
      rw [kept, same, if_neg nofun] at others
      refine others.step ?_ rfl rfl rfl
      simp only [acted, attend, there, read, Option.bind_eq_bind, Option.bind_some]
      rfl

private theorem decides_timed (live : Live) {name : String} {modified : Int}
    (watched : live.storage.policy = some policy)
    (stands : live.changes = calls ++ [⟨path, .timed name modified⟩]) :
    live.Decides calls path
      (if live.workspace.registry.isSelfWrite path modified policy.guard then .selfWrite
      else if ¬ live.workspace.files.isReadable policy.attempts path then .unreadable
      else
        match live.workspace.registry.association? name with
        | some handle => .reloaded handle
        | none => .untracked) := by
  obtain ⟨there, acted, proceeds⟩ := live.act_attend watched stands
  have checked : live.act (.attend calls.length) =
      some (live.check policy calls.length path name modified) := by
    simp only [acted, attend, there, Option.bind_eq_bind, Option.bind_some]
  cases own : live.workspace.registry.isSelfWrite path modified policy.guard with
  | true =>
    have stood : (live.check policy calls.length path name modified).changes =
        calls ++ [⟨path, .ended .selfWrite⟩] := by
      simp only [check, own, if_true]
      exact proceeds _
    exact (decides_ended stood).step checked rfl rfl rfl
  | false =>
    have stood : (live.check policy calls.length path name modified).changes =
        calls ++ [⟨path, .foreign name policy.attempts⟩] := by
      simp only [check, own, Bool.false_eq_true, if_false]
      exact proceeds _
    have others := (decides_foreign (live.check policy calls.length path name modified) watched
      stood).step checked rfl rfl rfl
    rw [if_neg nofun, ite_not]
    exact others

/-- A call that is alone decides on a change as it is decided at once. -/
theorem notify_alone (watched : live.storage.policy = some policy) (path : Path) :
    ∃ count next,
      live.run (.notify path :: List.replicate count (.attend live.changes.length)) = some next ∧
      next.changes = live.changes ++ [⟨path, .ended
        (policy.handleChange live.workspace.files live.workspace.registry path)⟩] ∧
      next.workspace = live.workspace ∧ next.storage = live.storage ∧
      next.worker = live.worker := by
  have first : live.act (.notify path) = some (live.notify path) := by
    simp only [act, watched]
    rfl
  have decides : (live.notify path).Decides live.changes path
      (policy.handleChange live.workspace.files live.workspace.registry path) := by
    unfold ReloadPolicy.handleChange
    cases named : path.fileName? with
    | none =>
      apply decides_ended
      simp only [notify, named]
    | some name =>
      dsimp only
      cases linked : live.workspace.registry.isTracked name with
      | false =>
        apply decides_ended
        simp only [notify, named, linked]
        rfl
      | true =>
        have stands : (live.notify path).changes = live.changes ++ [⟨path, .tracked name⟩] := by
          simp only [notify, named, linked, if_true]
        obtain ⟨there, acted, proceeds⟩ := (live.notify path).act_attend watched stands
        let modified :=
          ((live.workspace.files.modified? path).map Time.unixSeconds).getD latestTime
        let timed := (live.notify path).proceed live.changes.length path (.timed name modified)
        rw [if_neg (by simp)]
        refine (timed.decides_timed watched (proceeds _)).step ?_ rfl rfl rfl
        simp only [acted, attend, there, Option.bind_eq_bind, Option.bind_some]
        rfl
  obtain ⟨count, next, run, ended⟩ := decides
  exact ⟨count, next, by rw [run_cons _ first, run], ended⟩

end Live
end TextureCache
