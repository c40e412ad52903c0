import TextureCache.Proofs.Interleaving.Reservation

/-! A texture that is released. From then on no name is linked to it and no change has it imported
again, unless something gives the registry a new reason to link it: a call that names the texture,
or a job of it that was open already. The second is what a release does not look at. -/
namespace TextureCache

/-- A step is part of a call that is about a texture. -/
def Action.names (handle : Handle) : Action → Bool
  | .push job => job.handle = handle
  | .link _ linked => linked = handle
  | _ => false

namespace Live

variable {live next : Live} {action : Action} {handle : Handle}

def openJobs (live : Live) : List ExportJob := live.worker.job?.toList ++ live.storage.queue

theorem openJobs_of_act (acted : live.act action = some next) {job : ExportJob}
    (member : job ∈ next.openJobs) : job ∈ live.openJobs ∨ action = .push job := by
  cases action with
  | push pushed =>
    cases acted
    rw [openJobs, ← List.append_assoc, List.mem_append, List.mem_singleton] at member
    exact member.imp_right fun same => congrArg Action.push same.symm
  | setOutput found | addInput directory | link name handle | release handle | edit files =>
    cases acted
    exact .inl member
  | take codec disk =>
    simp only [act, take] at acted
    split at acted
    case h_1 taken rest idle queued =>
      cases acted
      rw [openJobs, idle, queued]
      exact .inl member
    case h_2 => cases acted
  | work =>
    obtain ⟨storage, _, stands⟩ := frame_of_work acted
    rw [openJobs, storage] at member
    rcases stands with idle | same
    · rw [idle] at member
      exact .inl (List.mem_append_right _ member)
    · rw [same] at member
      exact .inl member
  | notify path =>
    obtain ⟨_, _, rfl⟩ := Option.map_eq_some_iff.mp acted
    exact .inl member
  | attend call =>
    obtain ⟨_, _, attended⟩ := Option.bind_eq_some_iff.mp acted
    obtain ⟨_, storage, worker⟩ := frame_of_attend attended
    rw [openJobs, storage, worker] at member
    exact .inl member

private theorem linked_of_work (worked : live.work = some next) {name : String}
    (linked : next.workspace.registry.association? name = some handle) :
    live.workspace.registry.association? name = some handle ∨
      ∃ job ∈ live.openJobs, job.handle = handle := by
  unfold work at worked
  split at worked
  case h_1 => cases worked
  case h_2 running stands =>
    split at worked <;> cases worked
    · cases ended : running.ending <;> rw [ended] at linked <;> exact .inl linked
    · exact .inl linked
  case h_3 running draft stands =>
    cases worked
    exact .inl linked
  case h_4 running draft ending stands =>
    cases worked
    exact .inl ((Registry.association?_settle _ _ _ _ name).symm.trans linked)
  case h_5 running draft ending stands =>
    have opened : running.job ∈ live.openJobs := by simp [openJobs, stands, Worker.job?]
    cases ending <;> cases worked
    case finished =>
      replace linked := (Registry.association?_associate _ _ _ name).symm.trans linked
      split at linked
      · exact .inr ⟨running.job, opened, Option.some.inj linked⟩
      · exact .inl linked
    all_goals exact .inl linked

/-- A name is linked to a texture by a call about the texture or by an open job of it. -/
theorem linked_of_act (acted : live.act action = some next) {name : String}
    (linked : next.workspace.registry.association? name = some handle) :
    live.workspace.registry.association? name = some handle ∨ action.names handle ∨
      ∃ job ∈ live.openJobs, job.handle = handle := by
  cases action with
  | push job | addInput directory | edit files =>
    cases acted
    exact .inl linked
  | setOutput found =>
    cases acted
    unfold setOutput Storage.switchOutput at linked
    cases output : live.storage.directories.output <;> rw [output] at linked <;> exact .inl linked
  | link other given =>
    cases acted
    replace linked := (Registry.association?_associate _ _ _ name).symm.trans linked
    split at linked
    · exact .inr (.inl (decide_eq_true (Option.some.inj linked)))
    · exact .inl linked
  | release given =>
    cases acted
    replace linked := (Registry.association?_release _ _ name).symm.trans linked
    exact .inl (Option.filter_eq_some_iff.mp linked).1
  | take codec disk =>
    simp only [act, take] at acted
    split at acted <;> cases acted
    exact .inl linked
  | work => exact (linked_of_work acted linked).imp_right .inr
  | notify path =>
    obtain ⟨_, _, rfl⟩ := Option.map_eq_some_iff.mp acted
    exact .inl linked
  | attend call =>
    obtain ⟨_, _, attended⟩ := Option.bind_eq_some_iff.mp acted
    obtain ⟨workspace, _, _⟩ := frame_of_attend attended
    exact .inl (workspace ▸ linked)

end Live

private theorem Effect.linked_of_reloaded {live next : Live} (effect : Effect live next)
    {call : Call} {handle : Handle} (reloaded : .reloaded call handle ∈ next.history) :
    .reloaded call handle ∈ live.history ∨
      ∃ name, live.workspace.registry.association? name = some handle := by
  cases effect with
  | silent registry changes history | arrival _ _ registry changes history
  | move _ _ _ _ _ _ registry changes history =>
    exact .inl (history ▸ reloaded)
  | operation event alters changes history =>
    rw [history] at reloaded
    rcases List.mem_cons.mp reloaded with rfl | earlier
    · exact alters.elim
    · exact .inl earlier
  | check _ _ _ _ _ _ _ _ _ registry changes history =>
    rw [history] at reloaded
    exact .inl ((List.mem_cons.mp reloaded).resolve_left nofun)
  | reload _ _ name _ _ linked registry changes history =>
    rw [history] at reloaded
    rcases List.mem_cons.mp reloaded with same | earlier
    · cases same
      exact .inr ⟨name, linked⟩
    · exact .inl earlier

/-- Nothing is left of a texture, and none of the calls from a certain one on had it imported
again. -/
structure Forgotten (handle : Handle) (first : Call) (live : Live) : Prop where
  unlinked : ∀ name, live.workspace.registry.association? name ≠ some handle
  closed : ∀ job ∈ live.openJobs, job.handle ≠ handle
  unloaded : ∀ call, first ≤ call → .reloaded call handle ∉ live.history

namespace Forgotten

variable {live next : Live} {action : Action} {handle : Handle} {first : Call}

/-- What is forgotten stays so as long as no call is about the texture. -/
theorem act (forgotten : Forgotten handle first live) (acted : live.act action = some next)
    (unnamed : action.names handle = false) : Forgotten handle first next where
  unlinked := by
    intro name linked
    rcases Live.linked_of_act acted linked with earlier | named | ⟨job, opened, same⟩
    · exact forgotten.unlinked name earlier
    · exact Bool.noConfusion (unnamed.symm.trans named)
    · exact forgotten.closed job opened same
  closed := by
    intro job opened same
    rcases Live.openJobs_of_act acted opened with earlier | rfl
    · exact forgotten.closed job earlier same
    · exact of_decide_eq_false unnamed same
  unloaded := by
    intro call later reloaded
    rcases (Live.effect_of_act acted).linked_of_reloaded reloaded with earlier | ⟨name, linked⟩
    · exact forgotten.unloaded call later earlier
    · exact forgotten.unlinked name linked

theorem run {actions : List Action} (forgotten : Forgotten handle first live)
    (ran : live.run actions = some next)
    (unnamed : ∀ action ∈ actions, action.names handle = false) :
    Forgotten handle first next := by
  induction actions generalizing live with
  | nil =>
    cases ran
    exact forgotten
  | cons action rest ih =>
    obtain ⟨middle, acted, further⟩ := Option.bind_eq_some_iff.mp ran
    rw [List.forall_mem_cons] at unnamed
    exact ih (forgotten.act acted unnamed.1) further unnamed.2

end Forgotten

namespace Live

variable {start released live : Live} {before after : List Action} {handle : Handle}

/-- A texture of which no job was open when it was released is not imported again by a call that
comes in afterwards, whatever the parties do and in whatever order, as long as no call names it. -/
theorem no_reload_after_release (fresh : start.history = [])
    (ran : start.run before = some released)
    (closed : ∀ job ∈ released.openJobs, job.handle ≠ handle)
    (continued : released.run (.release handle :: after) = some live)
    (unnamed : ∀ action ∈ after, action.names handle = false) {call : Call}
    (later : released.changes.length ≤ call) : .reloaded call handle ∉ live.history := by
  have guarded : Guarded released := .of_run fresh ran
  have forgotten : Forgotten handle released.changes.length (released.release handle) := by
    refine ⟨fun name linked => ?_, closed, fun call later reloaded => ?_⟩
    · replace linked := (Registry.association?_release _ handle name).symm.trans linked
      obtain ⟨_, other⟩ := Option.filter_eq_some_iff.mp linked
      exact bne_iff_ne.mp other rfl
    · obtain ⟨path, there⟩ :=
        guarded.reloaded call handle ((List.mem_cons.mp reloaded).resolve_left nofun)
      exact Nat.not_lt.mpr later (List.getElem?_eq_some_iff.mp there).1
  exact (forgotten.run continued unnamed).unloaded call later

/-- Two textures of the same contents. The file of the first is released while the job of the second
waits, and from then on its changes belong to the second. -/
theorem no_reload_after_release_twin :
    let texture : Texture := ⟨⟨1, 1, 1, 1, 1⟩, .rgba8 .linear, .texture2D, [1, 2, 3, 4]⟩
    let directory := Path.ofNames ["d"]
    let name := (texture.fileName .dds).render
    let path := directory.join name
    let job (handle : Handle) : ExportJob := ⟨handle, texture, directory, .dds⟩
    let storage : Storage := ⟨true, .dds, ⟨some directory, [directory]⟩, [], some ⟨2, 1⟩, none⟩
    let files := (FileSystem.initial ⟨0⟩).setNode ["d"] (.directory ⟨0⟩)
    let edited := files.setNode ["d", name] (.file [9] (.ofSeconds 10 0))
    let start : Live := ⟨storage, .ofFiles files, .idle, [], []⟩
    let turn := .take (.standard Png.stored) .plain :: List.replicate 5 .work
    let before := .push (job ⟨7⟩) :: turn ++ [.push (job ⟨8⟩)]
    let after := turn ++ .edit edited :: .notify path :: List.replicate 4 (.attend 0)
    ∃ released live, start.run before = some released ∧
      released.run (.release ⟨7⟩ :: after) = some live ∧
      .reloaded 0 ⟨8⟩ ∈ live.history ∧ .reloaded 0 ⟨7⟩ ∉ live.history := by
  intro texture directory name path job storage files edited start turn before after
  have opened : (start.run before).map (fun released =>
      (released.openJobs, released.changes.length)) = some ([job ⟨8⟩], 0) := by
    decide +kernel
  obtain ⟨released, ran, same⟩ := Option.map_eq_some_iff.mp opened
  obtain ⟨jobs, calls⟩ := Prod.mk.inj same
  have reloaded : ((start.run before).bind fun released =>
      (released.run (.release ⟨7⟩ :: after)).map fun live =>
        decide (.reloaded 0 ⟨8⟩ ∈ live.history)) = some true := by
    decide +kernel
  rw [ran, Option.bind_some] at reloaded
  obtain ⟨live, continued, other⟩ := Option.map_eq_some_iff.mp reloaded
  refine ⟨released, live, ran, continued, of_decide_eq_true other, ?_⟩
  have closed : ∀ job ∈ released.openJobs, job.handle ≠ ⟨7⟩ := by
    rw [jobs]
    decide +kernel
  exact no_reload_after_release rfl ran closed continued (by decide +kernel)
    (calls ▸ Nat.zero_le 0)

/-- The job of a released texture waits in the queue. It links the file again, and a change from
outside has the texture imported that is not there any more. -/
theorem reload_after_release_queued :
    let texture : Texture := ⟨⟨1, 1, 1, 1, 1⟩, .rgba8 .linear, .texture2D, [1, 2, 3, 4]⟩
    let directory := Path.ofNames ["d"]
    let name := (texture.fileName .dds).render
    let path := directory.join name
    let storage : Storage := ⟨true, .dds, ⟨some directory, [directory]⟩, [], some ⟨2, 1⟩, none⟩
    let files := (FileSystem.initial ⟨0⟩).setNode ["d"] (.directory ⟨0⟩)
    let edited := files.setNode ["d", name] (.file [9] (.ofSeconds 10 0))
    let start : Live := ⟨storage, .ofFiles files, .idle, [], []⟩
    let before := [.push ⟨⟨7⟩, texture, directory, .dds⟩]
    let after := .take (.standard Png.stored) .plain :: List.replicate 5 .work ++
      .edit edited :: .notify path :: List.replicate 4 (.attend 0)
    ((start.run before).map fun released => released.changes.length) = some 0 ∧
      (∀ action ∈ after, action.names ⟨7⟩ = false) ∧
      ((start.run (before ++ .release ⟨7⟩ :: after)).map Live.history) =
        some [.reloaded 0 ⟨7⟩, .checked 0 path false, .linked name ⟨7⟩, .settled path true,
          .reserved path, .released ⟨7⟩] := by
  decide +kernel

end Live
end TextureCache
