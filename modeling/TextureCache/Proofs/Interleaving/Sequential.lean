import TextureCache.Proofs.Interleaving.Channel

/-! The queue carries out its jobs as if they were exported one after another. In every order of
steps the files are those of the finished jobs in the order in which they were sent, with a first
part of the current job; a call that flushes returns when all jobs ahead of it are finished, and a
drop when all are. Nor does the worker ever get stuck, however the jobs end. -/
namespace TextureCache

/-! ## Within a job -/

/-- The worker is at a task. Its first drafts are written to the files that were there at its begin,
and none of their writers broke off but perhaps the latest. -/
inductive Task.Carries (task : Task) (base : FileSystem) : Worker → FileSystem → Prop where
  | between {first rest : List Draft} {files : FileSystem} (ending : ExportEnd)
      (planned : task.drafts = first ++ rest) (wrote : task.writeAll first base = (files, false)) :
      Carries task base (.between ⟨task.job, task.disk, rest, ending⟩) files
  | reserved {first rest : List Draft} {draft : Draft} {files : FileSystem} (ending : ExportEnd)
      (planned : task.drafts = first ++ draft :: rest)
      (wrote : task.writeAll first base = (files, false)) :
      Carries task base (.reserved ⟨task.job, task.disk, rest, ending⟩ draft) files
  | written {first rest : List Draft} {files : FileSystem} (draft : Draft) (ending : ExportEnd)
      (last : WriteEnd) (planned : task.drafts = first ++ rest)
      (wrote : task.writeAll first base = (files, decide (last = .broken))) :
      Carries task base (.written ⟨task.job, task.disk, rest, ending⟩ draft last) files
  | settled {first rest : List Draft} {files : FileSystem} (draft : Draft) (ending : ExportEnd)
      (last : WriteEnd) (planned : task.drafts = first ++ rest)
      (wrote : task.writeAll first base = (files, decide (last = .broken))) :
      Carries task base (.settled ⟨task.job, task.disk, rest, ending⟩ draft last) files

namespace Task.Carries

variable {task : Task} {base files : FileSystem} {worker : Worker} {live next : Live}

private theorem partly (carries : task.Carries base worker files) :
    worker.job? = some task.job ∧
      ∃ first, first <+: task.drafts ∧ files = (task.writeAll first base).1 := by
  cases carries with
  | between ending planned wrote | reserved ending planned wrote
  | written draft ending last planned wrote | settled draft ending last planned wrote =>
    exact ⟨rfl, _, planned ▸ List.prefix_append _ _, (congrArg Prod.fst wrote).symm⟩

/-- A step of the worker brings the task forward or to its end. -/
theorem work (carries : task.Carries base live.worker live.workspace.files)
    (worked : live.work = some next) :
    task.Carries base next.worker next.workspace.files ∨
      next.worker = .idle ∧ next.workspace.files = (task.writeAll task.drafts base).1 := by
  unfold Live.work at worked
  generalize stands : live.worker = worker at carries worked
  generalize held : live.workspace.files = files at carries
  cases carries with
  | @between first rest _ ending planned wrote =>
    cases rest with
    | nil =>
      cases worked
      refine .inr ⟨rfl, ?_⟩
      rw [planned, List.append_nil, wrote, ← held]
      cases ending <;> rfl
    | cons draft rest =>
      cases worked
      exact .inl (held ▸ .reserved ending planned wrote)
  | @reserved first rest draft _ ending planned wrote =>
    cases worked
    refine .inl (@written _ _ (first ++ [draft]) _ _ draft ending _ ?_ ?_)
    · rw [planned, List.append_assoc, List.singleton_append]
    · rw [writeAll_append, wrote, if_neg nofun, ← held]
      exact task.writeAll_singleton draft _
  | written draft ending last planned wrote =>
    cases worked
    exact .inl (held ▸ .settled draft ending last planned wrote)
  | settled draft ending last planned wrote =>
    cases last with
    | finished =>
      cases worked
      exact .inl (held ▸ .between ending planned wrote)
    | failed failure =>
      cases worked
      exact .inl (held ▸ .between ending planned wrote)
    | broken =>
      cases worked
      refine .inr ⟨rfl, ?_⟩
      rw [planned, writeAll_append, wrote]
      exact held

end Task.Carries

/-- So many steps the worker makes at most to the end of its job. -/
def Worker.stepsLeft : Worker → Nat
  | .idle => 0
  | .between running => 4 * running.drafts.length + 1
  | .reserved running _ => 4 * running.drafts.length + 4
  | .written running _ _ => 4 * running.drafts.length + 3
  | .settled running _ _ => 4 * running.drafts.length + 2

namespace Live

variable {live next : Live}

/-- A worker that has a job can make a step, and comes closer to the end of the job by it. -/
theorem work_of_busy (busy : live.worker ≠ .idle) :
    ∃ next, live.work = some next ∧ next.worker.stepsLeft < live.worker.stepsLeft := by
  unfold work
  cases stands : live.worker with
  | idle => exact absurd stands busy
  | between running =>
    obtain ⟨job, disk, drafts, ending⟩ := running
    cases drafts with
    | nil => exact ⟨_, rfl, Nat.zero_lt_one⟩
    | cons draft rest => exact ⟨_, rfl, Nat.lt_succ_self _⟩
  | reserved running draft | written running draft ending => exact ⟨_, rfl, Nat.lt_succ_self _⟩
  | settled running draft ending =>
    cases ending with
    | finished | failed _ => exact ⟨_, rfl, Nat.lt_succ_self _⟩
    | broken => exact ⟨_, rfl, Nat.succ_pos _⟩

/-- A call to the rest of the cache touches neither the worker and its queue nor the files. -/
theorem frame_of_aside {action : Action} (aside : action.aside = true)
    (acted : live.act action = some next) :
    next.worker = live.worker ∧ next.storage.queue = live.storage.queue ∧
      next.workspace.files = live.workspace.files := by
  cases action with
  | push _ | edit _ | take _ _ | work => cases aside
  | setOutput _ | addInput _ | link _ _ | release _ =>
    cases acted
    exact ⟨rfl, rfl, rfl⟩
  | notify path =>
    obtain ⟨_, _, rfl⟩ := Option.map_eq_some_iff.mp acted
    exact ⟨rfl, rfl, rfl⟩
  | attend call =>
    obtain ⟨_, _, attended⟩ := Option.bind_eq_some_iff.mp acted
    obtain ⟨workspace, storage, worker⟩ := frame_of_attend attended
    exact ⟨worker, congrArg Storage.queue storage, congrArg Workspace.files workspace⟩

end Live

/-! ## Along the channel -/

/-- The marks in a channel, behind some jobs that were received, belong to calls that flush just
these jobs and those between. -/
def Marks (flushes : List Flush) : List ExportJob → List Message → Prop
  | _, [] => True
  | ahead, .request job :: rest => Marks flushes (ahead ++ [job]) rest
  | ahead, .mark call :: rest =>
    (∃ answer, flushes[call]? = some ⟨ahead, answer⟩) ∧ Marks flushes ahead rest

/-- The calls that flush are still there, and may have been answered. -/
def StillFlushed (before after : List Flush) : Prop :=
  ∀ (call : Call) flush, before[call]? = some flush →
    ∃ answer, after[call]? = some ⟨flush.ahead, answer⟩

theorem StillFlushed.refl (flushes : List Flush) : StillFlushed flushes flushes :=
  fun _ flush there => ⟨flush.answer, there⟩

theorem StillFlushed.trans {first middle last : List Flush} (earlier : StillFlushed first middle)
    (later : StillFlushed middle last) : StillFlushed first last := by
  intro call flush there
  obtain ⟨answer, kept⟩ := earlier call flush there
  exact later call ⟨flush.ahead, answer⟩ kept

theorem StillFlushed.append (flushes more : List Flush) : StillFlushed flushes (flushes ++ more) :=
  fun _ flush there =>
    ⟨flush.answer, (List.getElem?_append_left (List.getElem?_eq_some_iff.mp there).1).trans there⟩

theorem StillFlushed.modify (flushes : List Flush) (call : Call) (files : FileSystem) :
    StillFlushed flushes
      (flushes.modify call fun flush => { flush with answer := some files }) := by
  intro other flush there
  rw [List.getElem?_modify, there]
  by_cases same : call = other
  · exact ⟨some files, by simp [same]⟩
  · exact ⟨flush.answer, by simp [same]⟩

namespace Marks

variable {flushes more : List Flush} {ahead : List ExportJob} {channel : List Message}

private theorem mono (marks : Marks flushes ahead channel) (still : StillFlushed flushes more) :
    Marks more ahead channel := by
  induction channel generalizing ahead with
  | nil => trivial
  | cons message rest ih =>
    cases message with
    | request job => exact ih marks
    | mark call =>
      obtain ⟨⟨answer, there⟩, others⟩ := marks
      exact ⟨still call _ there, ih others⟩

theorem append {behind : List Message} (marks : Marks flushes ahead channel)
    (others : Marks flushes (ahead ++ Message.jobs channel) behind) :
    Marks flushes ahead (channel ++ behind) := by
  induction channel generalizing ahead with
  | nil => simpa using others
  | cons message rest ih =>
    cases message with
    | request job => exact ih marks (by simpa using others)
    | mark call => exact ⟨marks.1, ih marks.2 others⟩

end Marks

/-! ## The service -/

/-- Some of the finished jobs are those that were sent before a call that flushes, and the files are
as if these were exported one after another. -/
def Flushed (workspace : Workspace) (finished : List Task) (ahead : List ExportJob)
    (files : FileSystem) : Prop :=
  ∃ done later, finished = done ++ later ∧ done.map Task.job = ahead ∧
    files = (workspace.exportAll done).files

theorem Flushed.append {workspace : Workspace} {finished : List Task} {ahead : List ExportJob}
    {files : FileSystem} (flushed : Flushed workspace finished ahead files) (more : List Task) :
    Flushed workspace (finished ++ more) ahead files := by
  obtain ⟨done, later, same, jobs, answer⟩ := flushed
  exact ⟨done, later ++ more, by rw [same, List.append_assoc], jobs, answer⟩

/-- A step of the worker that meets with a codec and a disk. -/
def Move.ByWorker (codec : Codec) (disk : Disk) (move : Move) : Prop :=
  move = .receive codec disk ∨ move = .work ∨ move = .stop

namespace Service

/-- What every step keeps, with the files of a workspace at the begin. -/
structure Lawful (workspace : Workspace) (service : Service) : Prop where
  queue : service.live.storage.queue = Message.jobs service.channel
  order : service.sent = service.received ++ Message.jobs service.channel
  idle : service.current = none → service.live.worker = .idle ∧
    service.live.workspace.files = (workspace.exportAll service.finished).files
  busy : ∀ task, service.current = some task →
    task.Carries (workspace.exportAll service.finished).files service.live.worker
      service.live.workspace.files
  marks : Marks service.flushes service.received service.channel
  unanswered : ∀ (call : Call) ahead, service.flushes[call]? = some ⟨ahead, none⟩ →
    .mark call ∈ service.channel
  answered : ∀ (call : Call) ahead files, service.flushes[call]? = some ⟨ahead, some files⟩ →
    Flushed workspace service.finished ahead files
  stopped : service.stopped = true →
    service.closed = true ∧ service.channel = [] ∧ service.current = none

namespace Lawful

variable {workspace : Workspace} {service next : Service}

theorem opened (storage : Storage) (workspace : Workspace) :
    Lawful workspace (.opened storage workspace) where
  queue := rfl
  order := rfl
  idle := fun _ => ⟨rfl, rfl⟩
  busy := fun _ current => nomatch current
  marks := trivial
  unanswered := nofun
  answered := nofun
  stopped := nofun

theorem push {job : ExportJob} (lawful : Lawful workspace service)
    (acted : service.act (.push job) = some next) : Lawful workspace next := by
  simp only [act, Live.act, Option.map_some] at acted
  split at acted
  case isTrue => cases acted
  case isFalse opened =>
    cases acted
    constructor
    · simp [lawful.queue]
    · simp [lawful.order, received]
    · exact lawful.idle
    · exact lawful.busy
    · exact lawful.marks.append trivial
    · exact fun call ahead there => List.mem_append_left _ (lawful.unanswered call ahead there)
    · exact lawful.answered
    · exact fun stopped => absurd (lawful.stopped stopped).1 opened

theorem flush (lawful : Lawful workspace service) (acted : service.act .flush = some next) :
    Lawful workspace next := by
  simp only [act] at acted
  split at acted
  case isTrue => cases acted
  case isFalse opened =>
    cases acted
    constructor
    · simp [lawful.queue]
    · simp [lawful.order, received]
    · exact lawful.idle
    · exact lawful.busy
    · refine (lawful.marks.mono (.append _ _)).append ⟨⟨none, ?_⟩, trivial⟩
      rw [List.getElem?_concat_length, lawful.order]
    · intro call ahead there
      dsimp only at there
      rw [List.getElem?_append] at there
      split at there
      · exact List.mem_append_left _ (lawful.unanswered call ahead there)
      · obtain ⟨_, _⟩ := List.getElem?_eq_some_iff.mp there
        have same : call = service.flushes.length := by grind
        exact List.mem_append_right _ (same ▸ List.mem_singleton_self _)
    · intro call ahead files there
      dsimp only at there
      rw [List.getElem?_append] at there
      split at there
      · exact lawful.answered call ahead files there
      · have member := List.mem_of_getElem? there
        cases List.mem_singleton.mp member
    · exact fun stopped => absurd (lawful.stopped stopped).1 opened

theorem close (lawful : Lawful workspace service) (acted : service.act .close = some next) :
    Lawful workspace next := by
  cases acted
  exact { lawful with stopped := fun stopped => ⟨rfl, (lawful.stopped stopped).2⟩ }

theorem stop (lawful : Lawful workspace service) (acted : service.act .stop = some next) :
    Lawful workspace next := by
  simp only [act] at acted
  split at acted
  case isTrue ended =>
    cases acted
    obtain ⟨closed, empty, free⟩ := ended
    exact { lawful with
      stopped := fun _ => ⟨closed, List.isEmpty_iff.mp empty, Option.isNone_iff_eq_none.mp free⟩ }
  case isFalse => cases acted

theorem call {action : Action} (lawful : Lawful workspace service)
    (acted : service.act (.call action) = some next) : Lawful workspace next := by
  simp only [act] at acted
  split at acted
  case isTrue aside =>
    obtain ⟨live, called, rfl⟩ := Option.map_eq_some_iff.mp acted
    obtain ⟨worker, queue, files⟩ := Live.frame_of_aside aside called
    exact { lawful with
      queue := queue.trans lawful.queue
      idle := fun free => (worker ▸ files ▸ lawful.idle free :)
      busy := fun task busy => (worker ▸ files ▸ lawful.busy task busy :) }
  case isFalse => cases acted

theorem receive {codec : Codec} {disk : Disk} (lawful : Lawful workspace service)
    (acted : service.act (.receive codec disk) = some next) : Lawful workspace next := by
  have order := lawful.order
  have marks := lawful.marks
  have unanswered := lawful.unanswered
  simp only [act, Service.receive] at acted
  split at acted
  case h_1 job rest free channel =>
    obtain ⟨live, taken, rfl⟩ := Option.map_eq_some_iff.mp acted
    obtain ⟨idle, files⟩ := lawful.idle free
    have queued := lawful.queue
    rw [channel, Message.jobs_request] at queued order
    simp only [Live.act, Live.take, idle, queued] at taken
    cases taken
    rw [channel, received, free] at marks
    rw [received, free] at order
    constructor
    · rfl
    · simpa [received] using order
    · exact fun free => absurd free (Option.some_ne_none _)
    · intro task current
      cases current
      exact .between _ (List.nil_append _).symm (congrArg (·, false) files.symm)
    · simpa [received, Marks] using marks
    · intro call ahead there
      have marked := unanswered call ahead there
      rw [channel] at marked
      exact (List.mem_cons.mp marked).resolve_left fun same => Message.noConfusion same
    · exact lawful.answered
    · exact fun stopped =>
        absurd (channel.symm.trans (lawful.stopped stopped).2.1) (List.cons_ne_nil _ _)
  case h_2 call rest free channel =>
    cases acted
    obtain ⟨idle, files⟩ := lawful.idle free
    have queued := lawful.queue
    rw [channel, Message.jobs_mark] at queued order
    rw [channel] at marks
    obtain ⟨⟨answer, there⟩, others⟩ := marks
    constructor
    · exact queued
    · exact order
    · exact lawful.idle
    · exact lawful.busy
    · exact others.mono (.modify _ _ _)
    · intro other ahead found
      rw [List.getElem?_modify] at found
      obtain ⟨flush, earlier, same⟩ := Option.map_eq_some_iff.mp found
      by_cases own : call = other
      · simp [own] at same
      · rw [if_neg own] at same
        have marked := unanswered other ahead (same ▸ earlier)
        rw [channel] at marked
        exact (List.mem_cons.mp marked).resolve_left fun equal =>
          own (Message.mark.inj equal).symm
    · intro other ahead answer found
      rw [List.getElem?_modify] at found
      obtain ⟨flush, earlier, same⟩ := Option.map_eq_some_iff.mp found
      by_cases own : call = other
      · subst own
        cases there.symm.trans earlier
        rw [if_pos rfl] at same
        cases same
        exact ⟨service.finished, [], (List.append_nil _).symm, by simp [received, free], files⟩
      · rw [if_neg own] at same
        exact lawful.answered other ahead answer (same ▸ earlier)
    · exact fun stopped =>
        absurd (channel.symm.trans (lawful.stopped stopped).2.1) (List.cons_ne_nil _ _)
  case h_3 => cases acted

theorem work (lawful : Lawful workspace service) (acted : service.act .work = some next) :
    Lawful workspace next := by
  obtain ⟨live, worked, rfl⟩ := Option.map_eq_some_iff.mp acted
  rcases Option.eq_none_or_eq_some service.current with free | ⟨task, current⟩
  · unfold Live.act Live.work at worked
    rw [(lawful.idle free).1] at worked
    cases worked
  · obtain ⟨storage, _, _⟩ := Live.frame_of_work worked
    have queue := (congrArg Storage.queue storage).trans lawful.queue
    have running : service.stopped ≠ true := fun stopped =>
      nomatch current.symm.trans (lawful.stopped stopped).2.2
    rcases (lawful.busy task current).work worked with carries | ⟨idle, files⟩
    · rw [if_pos (carries.partly.1 ▸ rfl)]
      exact { lawful with
        queue
        idle := fun free => nomatch current.symm.trans free
        busy := fun other busy => Option.some.inj (current.symm.trans busy) ▸ carries }
    · have received : service.received = (service.finished ++ [task]).map Task.job := by
        simp [Service.received, current]
      have order := lawful.order
      have marks := lawful.marks
      rw [received] at order marks
      rw [idle, if_neg nofun]
      constructor
      · exact queue
      · simpa [Service.received, current] using order
      · refine fun _ => ⟨idle, ?_⟩
        rw [files, current, Option.toList_some, Workspace.exportAll_append]
        exact (task.files_exportIn _).symm
      · exact fun _ current => nomatch current
      · simpa [Service.received, current] using marks
      · exact lawful.unanswered
      · exact fun call ahead files there => (lawful.answered call ahead files there).append _
      · exact fun stopped => absurd stopped running

/-- Every step keeps what holds. -/
theorem act {move : Move} (lawful : Lawful workspace service)
    (acted : service.act move = some next) : Lawful workspace next := by
  cases move with
  | push job => exact lawful.push acted
  | flush => exact lawful.flush acted
  | close => exact lawful.close acted
  | receive codec disk => exact lawful.receive acted
  | work => exact lawful.work acted
  | stop => exact lawful.stop acted
  | call action => exact lawful.call acted

theorem run {moves : List Move} (lawful : Lawful workspace service)
    (ran : service.run moves = some next) : Lawful workspace next := by
  induction moves generalizing service with
  | nil =>
    cases ran
    exact lawful
  | cons move rest ih =>
    obtain ⟨middle, acted, further⟩ := Option.bind_eq_some_iff.mp ran
    exact ih (lawful.act acted) further

end Lawful

/-! ## The worker alone -/

/-- Nothing was sent in between, and no call that flushes was forgotten. -/
structure Keeps (before after : Service) : Prop where
  sent : after.sent = before.sent
  closed : after.closed = before.closed
  flushes : StillFlushed before.flushes after.flushes

theorem Keeps.refl (service : Service) : Keeps service service := ⟨rfl, rfl, .refl _⟩

theorem Keeps.trans {first middle last : Service} (earlier : Keeps first middle)
    (later : Keeps middle last) : Keeps first last :=
  ⟨later.sent.trans earlier.sent, later.closed.trans earlier.closed,
    earlier.flushes.trans later.flushes⟩

/-- By steps of its own, the worker can bring the service to a state with a property. -/
def Reaches (service : Service) (codec : Codec) (disk : Disk) (goal : Service → Prop) :
    Prop :=
  ∃ moves last, (∀ move ∈ moves, move.ByWorker codec disk) ∧ service.run moves = some last ∧
    Keeps service last ∧ goal last

variable {workspace : Workspace} {service next : Service} {codec : Codec} {disk : Disk}
  {goal : Service → Prop}

theorem Reaches.here (reached : goal service) : service.Reaches codec disk goal :=
  ⟨[], service, fun _ member => absurd member List.not_mem_nil, rfl, .refl service, reached⟩

theorem Reaches.step {move : Move} (own : move.ByWorker codec disk)
    (acted : service.act move = some next) (keeps : Keeps service next)
    (reaches : next.Reaches codec disk goal) : service.Reaches codec disk goal := by
  obtain ⟨moves, last, others, ran, kept, reached⟩ := reaches
  refine ⟨move :: moves, last, List.forall_mem_cons.mpr ⟨own, others⟩, ?_, keeps.trans kept,
    reached⟩
  rw [run, List.foldlM_cons, acted]
  exact ran

/-- A worker that is in a job can make a step, and comes closer to the end of the job by it. -/
theorem Lawful.can_work {task : Task} (lawful : Lawful workspace service)
    (current : service.current = some task) :
    ∃ next, service.act .work = some next ∧ Keeps service next ∧
      next.channel = service.channel ∧
      next.live.worker.stepsLeft < service.live.worker.stepsLeft := by
  have busy : service.live.worker ≠ .idle := fun idle => by
    have stands := (lawful.busy task current).partly.1
    rw [idle] at stands
    cases stands
  obtain ⟨live, worked, closer⟩ := Live.work_of_busy busy
  refine ⟨_, congrArg (Option.map _) worked, ?_⟩
  dsimp only
  split <;> exact ⟨⟨rfl, rfl, .refl _⟩, rfl, closer⟩

private theorem Lawful.can_receive {message : Message} {rest : List Message}
    (lawful : Lawful workspace service) (free : service.current = none)
    (channel : service.channel = message :: rest) (codec : Codec) (disk : Disk) :
    ∃ next, service.act (.receive codec disk) = some next ∧ Keeps service next ∧
      next.channel = rest := by
  simp only [Service.act, Service.receive, free, channel]
  cases message with
  | request job =>
    have queued := lawful.queue
    rw [channel, Message.jobs_request] at queued
    simp only [Live.act, Live.take, (lawful.idle free).1, queued]
    exact ⟨_, rfl, ⟨rfl, rfl, .refl _⟩, rfl⟩
  | mark call => exact ⟨_, rfl, ⟨rfl, rfl, .modify _ _ _⟩, rfl⟩

/-- The worker finishes its job, whatever the writers do. -/
theorem Lawful.reaches_free (lawful : Lawful workspace service)
    (further : ∀ next, Lawful workspace next → next.channel = service.channel →
      next.current = none → next.Reaches codec disk goal) :
    service.Reaches codec disk goal := by
  induction left : service.live.worker.stepsLeft using Nat.strong_induction_on
    generalizing service with
  | _ steps ih =>
    subst left
    rcases Option.eq_none_or_eq_some service.current with free | ⟨task, current⟩
    · exact further service lawful rfl free
    · obtain ⟨next, acted, keeps, channel, closer⟩ := lawful.can_work current
      exact .step (.inr (.inl rfl)) acted keeps (ih _ closer (lawful.act acted)
        (fun last others same => further last others (same.trans channel)) rfl)

/-- The worker empties the channel and answers all calls that flush, and it stops if the queue is
being dropped. -/
theorem Lawful.drains (lawful : Lawful workspace service) (codec : Codec) (disk : Disk) :
    service.Reaches codec disk fun last => Lawful workspace last ∧ last.channel = [] ∧
      last.current = none ∧ (last.closed = true → last.stopped = true) := by
  induction remaining : service.channel generalizing service with
  | nil =>
    refine lawful.reaches_free fun free lawful channel idle => ?_
    by_cases closed : free.closed = true
    · have acted : free.act .stop = some { free with stopped := true } := by
        simp [Service.act, closed, channel, remaining, idle]
      exact .step (.inr (.inr rfl)) acted ⟨rfl, rfl, .refl _⟩
        (.here ⟨lawful.stop acted, channel.trans remaining, idle, fun _ => rfl⟩)
    · exact .here ⟨lawful, channel.trans remaining, idle, fun dropped => absurd dropped closed⟩
  | cons message rest ih =>
    refine lawful.reaches_free fun free lawful channel idle => ?_
    obtain ⟨next, acted, keeps, others⟩ :=
      lawful.can_receive idle (channel.trans remaining) codec disk
    exact .step (.inl rfl) acted keeps (ih (lawful.act acted) others)

/-! ## All interleavings -/

/-- What the service did is what a sequential run does that starts with a workspace. -/
structure Sequential (workspace : Workspace) (service : Service) : Prop where
  /-- Jobs are received in the order in which they were sent, each of them once. -/
  order : service.sent = service.received ++ Message.jobs service.channel
  /-- Between two jobs the files are those that the finished ones leave, one after another. -/
  idle : service.current = none → service.live.worker = .idle ∧
    service.live.workspace.files = (workspace.exportAll service.finished).files
  /-- Within a job, the worker is at this job only, and has written a first part of it. -/
  busy : ∀ task, service.current = some task → service.live.worker.job? = some task.job ∧
    ∃ first, first <+: task.drafts ∧ service.live.workspace.files =
      (task.writeAll first (workspace.exportAll service.finished).files).1
  /-- A call that flushes is answered when all jobs ahead of it are finished. -/
  flushed : ∀ (call : Call) ahead files, service.flushes[call]? = some ⟨ahead, some files⟩ →
    Flushed workspace service.finished ahead files
  /-- The worker stops when all jobs are finished. -/
  dropped : service.stopped = true → service.finished.map Task.job = service.sent ∧
    service.live.workspace.files = (workspace.exportAll service.finished).files

private theorem Lawful.sequential (lawful : Lawful workspace service) :
    Sequential workspace service where
  order := lawful.order
  idle := lawful.idle
  busy := fun task current => (lawful.busy task current).partly
  flushed := lawful.answered
  dropped := fun stopped => by
    obtain ⟨_, empty, free⟩ := lawful.stopped stopped
    refine ⟨?_, (lawful.idle free).2⟩
    simp [lawful.order, received, empty, free]

/-- Whatever the users of the queue and of the rest of the cache do, and in whatever order with the
steps of the worker, the queue does what a sequential run does. And at every moment the worker can
bring all jobs to an end by itself, whatever becomes of them; it then has answered all calls that
flush, and it has stopped if the queue is being dropped. -/
theorem run_sequential {storage : Storage} {moves : List Move}
    (ran : (opened storage workspace).run moves = some service) :
    Sequential workspace service ∧
      ∀ codec disk, ∃ further last, (∀ move ∈ further, move.ByWorker codec disk) ∧
        service.run further = some last ∧ Sequential workspace last ∧
        last.finished.map Task.job = service.sent ∧
        last.live.workspace.files = (workspace.exportAll last.finished).files ∧
        (∀ (call : Call) flush, service.flushes[call]? = some flush →
          ∃ files, last.flushes[call]? = some ⟨flush.ahead, some files⟩) ∧
        (service.closed = true → last.stopped = true) := by
  have lawful : Lawful workspace service := (Lawful.opened storage workspace).run ran
  refine ⟨lawful.sequential, fun codec disk => ?_⟩
  obtain ⟨further, last, own, run, keeps, drained, empty, free, stopped⟩ :=
    lawful.drains codec disk
  have all : last.finished.map Task.job = service.sent := by
    rw [← keeps.sent, drained.order, received, empty, free]
    simp
  refine ⟨further, last, own, run, drained.sequential, all, (drained.idle free).2, ?_, ?_⟩
  · intro call flush there
    obtain ⟨answer, kept⟩ := keeps.flushes call flush there
    cases answer with
    | some files => exact ⟨files, kept⟩
    | none =>
      have marked := drained.unanswered call flush.ahead kept
      rw [empty] at marked
      cases marked
  · exact fun closed => stopped (keeps.closed.trans closed)

/-- The output directory is replaced while the first job is written, the decoder breaks off in the
second, and a call waits for both; then the queue is dropped. -/
theorem run_sequential_broken :
    let texture : Texture := ⟨⟨1, 1, 1, 1, 1⟩, .rgba8 .linear, .texture2D, [1, 2, 3, 4]⟩
    let directory (name : String) := Path.ofNames [name]
    let storage : Storage :=
      ⟨true, .dds, ⟨some (directory "d"), [directory "d"]⟩, [], none, none⟩
    let files := ((FileSystem.initial ⟨0⟩).setNode ["d"] (.directory ⟨0⟩)).setNode ["e"]
      (.directory ⟨0⟩)
    let first : ExportJob := ⟨⟨1⟩, texture, directory "d", .dds⟩
    let second : ExportJob := ⟨⟨2⟩, texture, directory "d", .png⟩
    let third : ExportJob := ⟨⟨3⟩, texture, directory "e", .dds⟩
    let broken : Codec := ⟨fun _ => .broken, Png.stored⟩
    let moves := [.push first, .receive (.standard Png.stored) .plain, .push second, .work,
      .call (.setOutput (some (directory "e"))), .flush, .push third, .work, .work, .work, .work,
      .receive broken .plain, .work, .receive (.standard Png.stored) .plain, .call (.release ⟨1⟩),
      .receive (.standard Png.stored) .plain, .work, .work, .work, .work, .close, .work, .stop]
    ∃ service, (opened storage (.ofFiles files)).run moves = some service ∧
      service.finished.map Task.job = [first, second, third] ∧
      service.live.workspace.files =
        ((Workspace.ofFiles files).exportAll service.finished).files ∧
      ∃ answer, Flushed (.ofFiles files) service.finished [first, second] answer := by
  intro texture directory storage files first second third broken moves
  have stopped : ((opened storage (.ofFiles files)).run moves).map (fun service =>
      (service.stopped, service.sent, service.flushes.map fun flush =>
        (flush.ahead, flush.answer.isSome))) =
      some (true, [first, second, third], [([first, second], true)]) := by
    decide +kernel
  obtain ⟨service, ran, same⟩ := Option.map_eq_some_iff.mp stopped
  simp only [Prod.mk.injEq] at same
  obtain ⟨stopped, sent, flushes⟩ := same
  obtain ⟨sequential, _⟩ := run_sequential ran
  obtain ⟨all, left⟩ := sequential.dropped stopped
  refine ⟨service, ran, all.trans sent, left, ?_⟩
  obtain ⟨⟨ahead, answer⟩, only, pair⟩ := List.map_eq_singleton_iff.mp flushes
  obtain ⟨rfl, answered⟩ := Prod.mk.inj pair
  obtain ⟨files, rfl⟩ := Option.isSome_iff_exists.mp answered
  exact ⟨files, sequential.flushed 0 _ files (by rw [only]; rfl)⟩

end Service
end TextureCache
