import TextureCache.Proofs.Interleaving.Release
import TextureCache.Proofs.Interleaving.Reservation
import TextureCache.Proofs.Reload.Window

/-! Finished writes of the cache are not taken for edits. The registry is told by the events since
any earlier moment: the stamp of a path is as it was unless an event touches it, and the link of a
name is what the events make of it. So the stamp of a finished write stays until the path is written
again or its directory is given up, and as long as the file keeps the time of the write, a change of
it is our own for whichever texture has the name. -/
namespace TextureCache

/-- An event may change the stamp of a path. -/
def Event.touches (path : Path) : Event → Bool
  | .reserved other | .settled other _ => other.components = path.components
  | .forgot directory => directory.components.isPrefixOf path.components
  | _ => false

/-- What becomes of the link of a name in an event. -/
def Event.relink (name : String) : Event → Option Handle → Option Handle
  | .linked other handle, current => if name = other then some handle else current
  | .released handle, current => current.filter (· != handle)
  | _, current => current

namespace Event.Alters

variable {event : Event} {before after : Registry}

private theorem stamp?_of_untouched (alters : event.Alters before after) {path : Path}
    (untouched : event.touches path = false) : after.stamp? path = before.stamp? path := by
  cases event with
  | reserved other =>
    cases alters
    rw [Registry.stamp?_reserve, if_neg (Ne.symm (of_decide_eq_false untouched))]
  | settled other finished =>
    obtain ⟨files, rfl⟩ := alters
    rw [Registry.stamp?_settle, if_neg (Ne.symm (of_decide_eq_false untouched))]
  | forgot directory =>
    cases alters
    exact (Registry.stamp?_forgetUnder before directory path).trans
      (if_neg (Bool.eq_false_iff.mp untouched))
  | linked name handle =>
    cases alters
    rfl
  | released handle =>
    cases alters
    rfl
  | checked call path own => cases alters
  | reloaded call handle => cases alters

private theorem association?_eq (alters : event.Alters before after) (name : String) :
    after.association? name = event.relink name (before.association? name) := by
  cases event with
  | reserved other =>
    cases alters
    rfl
  | settled other finished =>
    obtain ⟨files, rfl⟩ := alters
    exact Registry.association?_settle before files other finished name
  | forgot directory =>
    cases alters
    rfl
  | linked other handle =>
    cases alters
    exact Registry.association?_associate before other handle name
  | released handle =>
    cases alters
    exact Registry.association?_release before handle name
  | checked call path own => cases alters
  | reloaded call handle => cases alters

end Event.Alters

/-- What the events between two moments, newest first, tell of the registry at the second. -/
structure Live.Since (live next : Live) (events : List Event) : Prop where
  history : next.history = events ++ live.history
  stamps : ∀ path, (∀ event ∈ events, event.touches path = false) →
    next.workspace.registry.stamp? path = live.workspace.registry.stamp? path
  links : ∀ name, next.workspace.registry.association? name =
    events.foldr (Event.relink name) (live.workspace.registry.association? name)

namespace Live.Since

variable {live middle next : Live} {events : List Event}

theorem refl (live : Live) : live.Since live [] := ⟨rfl, fun _ _ => rfl, fun _ => rfl⟩

theorem same (since : live.Since middle events)
    (registry : next.workspace.registry = middle.workspace.registry)
    (history : next.history = middle.history) : live.Since next events where
  history := history.trans since.history
  stamps := registry ▸ since.stamps
  links := registry ▸ since.links

/-- An event of a call leaves the registry as it is. -/
theorem attended (since : live.Since middle events) {event : Event}
    (registry : next.workspace.registry = middle.workspace.registry)
    (history : next.history = event :: middle.history)
    (silent : ∀ name current, event.relink name current = current) :
    live.Since next (event :: events) where
  history := by rw [history, since.history, List.cons_append]
  stamps := fun path untouched => by
    rw [registry]
    exact since.stamps path fun event member => untouched event (List.mem_cons_of_mem _ member)
  links := fun name => by rw [registry, since.links, List.foldr_cons, silent]

private theorem operated (since : live.Since middle events) {event : Event}
    (alters : event.Alters middle.workspace.registry next.workspace.registry)
    (history : next.history = event :: middle.history) : live.Since next (event :: events) where
  history := by rw [history, since.history, List.cons_append]
  stamps := fun path untouched => by
    rw [alters.stamp?_of_untouched (untouched event List.mem_cons_self)]
    exact since.stamps path fun event member => untouched event (List.mem_cons_of_mem _ member)
  links := fun name => by rw [alters.association?_eq, since.links, List.foldr_cons]

theorem step (since : live.Since middle events) (effect : Effect middle next) :
    ∃ events, live.Since next events := by
  cases effect with
  | silent registry changes history | arrival change untold registry changes history
  | move call path progress further there underway registry changes history =>
    exact ⟨_, since.same registry history⟩
  | operation event alters changes history => exact ⟨_, since.operated alters history⟩
  | check call path name modified guard attempts own there asked registry changes history =>
    exact ⟨_, since.attended registry history fun _ _ => rfl⟩
  | reload call path name handle there linked registry changes history =>
    exact ⟨_, since.attended registry history fun _ _ => rfl⟩

/-- All that is told after a run was told before or by the events of the run. -/
theorem of_run {actions : List Action} (run : live.run actions = some next)
    (history : next.history = events ++ live.history) : live.Since next events := by
  have told : ∃ events, live.Since next events := by
    have step : ∀ middle after, Effect middle after → (∃ events, live.Since middle events) →
        ∃ events, live.Since after events :=
      fun middle after effect ⟨events, since⟩ => since.step effect
    exact run_induction step run ⟨[], .refl live⟩
  obtain ⟨others, since⟩ := told
  cases List.append_cancel_right (since.history.symm.trans history)
  exact since

end Live.Since

/-- A file with the time of our finished write is our own, in a window of a second or more. -/
theorem Registry.isSelfWrite_of_kept {registry : Registry} {path : Path} {saved guard : Int}
    (stamped : registry.stamp? path = some (.committed saved)) (positive : 1 ≤ guard)
    (inRange : earliestTime ≤ saved - guard) : registry.isSelfWrite path saved guard = true := by
  rw [earliestTime_eq] at inRange
  have before : saturatingSub saved guard < saved := by
    rw [saturatingSub_eq, earliestTime_eq, latestTime_eq]
    omega
  rw [isSelfWrite, stamped]
  exact decide_eq_true before

/-- A change that is our own is told from others by whether the name belongs to a texture. -/
theorem ReloadPolicy.handleChange_of_own {policy : ReloadPolicy} {files : FileSystem}
    {registry : Registry} {path : Path} {name : String} {time : Time}
    (named : path.fileName? = some name) (told : files.modified? path = some time)
    (own : registry.isSelfWrite path time.unixSeconds policy.guard = true) :
    policy.handleChange files registry path =
      if (registry.association? name).isSome then .selfWrite else .untracked := by
  cases linked : registry.association? name with
  | none =>
    have untracked : registry.isTracked name = false := by
      rw [Registry.isTracked, linked]
      rfl
    unfold handleChange
    simp [named, untracked]
  | some handle => exact (handleChange_of_linked named linked told).trans (if_pos own)

namespace Live

/-- The worker's third step commits a write that finished, with the time that its file has. -/
theorem settled_of_written {written settled : Live} {running : RunningJob} {draft : Draft}
    (stands : written.worker = .written running draft .finished)
    (acted : written.act .work = some settled) :
    let files := written.workspace.files
    let path := running.path draft
    let time := (files.modified? path).getD files.clock
    settled.history = .settled path true :: written.history ∧
      (∀ name, settled.workspace.registry.association? name =
        written.workspace.registry.association? name) ∧
      ∀ other : Path, other.components = path.components →
        settled.workspace.registry.stamp? other = some (.committed time.unixSeconds) := by
  simp only [act, work, stands] at acted
  cases acted
  refine ⟨rfl, fun name => Registry.association?_settle _ _ _ _ name, fun other same => ?_⟩
  exact (Registry.stamp?_settle _ _ _ other _).trans (if_pos same)

/-- A finished write is not taken for an edit. Whatever the parties do, in whatever order, before
and after the worker has written a file: as long as no event touches the stamp of its path any more
and the file has the time that it had after the write, a change of the path has no texture imported
again. It is our own if the name belongs to a texture, to the last one to which it was linked. -/
theorem own_write_kept {start written live : Live} {before after : List Action}
    (fresh : start.history = []) (uncalled : start.changes = [])
    (wrote : start.run before = some written) {running : RunningJob} {draft : Draft}
    (stands : written.worker = .written running draft .finished)
    (continued : written.run (.work :: after) = some live) {later : List Event}
    (recorded : live.history = later ++ .settled (running.path draft) true :: written.history)
    {path : Path} (same : path.components = (running.path draft).components)
    (untouched : ∀ event ∈ later, event.touches path = false) {time : Time}
    (told : live.workspace.files.modified? path = some time)
    (kept : time.unixSeconds =
      ((written.workspace.files.modified? (running.path draft)).getD
        written.workspace.files.clock).unixSeconds)
    {policy : ReloadPolicy} (watched : live.storage.policy = some policy)
    (positive : 1 ≤ policy.guard) (inRange : earliestTime ≤ time.unixSeconds - policy.guard) :
    let registry := live.workspace.registry
    let outcome := policy.handleChange live.workspace.files registry path
    let link (name : String) : Option Handle :=
      later.foldr (Event.relink name) (written.workspace.registry.association? name)
    (∀ handle, outcome ≠ .reloaded handle) ∧
    (∀ name, registry.association? name = link name) ∧
    (∀ name, path.fileName? = some name →
      outcome = if (registry.association? name).isSome then .selfWrite else .untracked) ∧
    ∃ count next,
      live.run (.notify path :: List.replicate count (.attend live.changes.length)) = some next ∧
      next.changes = live.changes ++ [⟨path, .ended outcome⟩] ∧
      next.reimports live.changes.length = [] := by
  intro registry outcome link
  obtain ⟨settled, acted, further⟩ := Option.bind_eq_some_iff.mp continued
  obtain ⟨history, associations, stamps⟩ := settled_of_written stands acted
  have since : settled.Since live later := .of_run further (recorded.trans (by rw [history]))
  have links (name : String) : registry.association? name = link name := by
    rw [since.links name, associations]
  have stamped : registry.stamp? path = some (.committed time.unixSeconds) := by
    rw [since.stamps path untouched, stamps path same, kept]
  have own := Registry.isSelfWrite_of_kept stamped positive inRange
  have decided (name : String) (named : path.fileName? = some name) :
      outcome = if (registry.association? name).isSome then .selfWrite else .untracked :=
    ReloadPolicy.handleChange_of_own named told own
  have unloaded (handle : Handle) : outcome ≠ .reloaded handle := by
    cases named : path.fileName? with
    | none =>
      have untracked : outcome = .untracked := by
        simp only [outcome, ReloadPolicy.handleChange, named]
      rw [untracked]
      nofun
    | some name =>
      rw [decided name named]
      split <;> nofun
  refine ⟨unloaded, links, decided, ?_⟩
  obtain ⟨count, next, alone, ended, -⟩ := live.notify_alone watched path
  refine ⟨count, next, alone, ended, ?_⟩
  have tallied : Tallied next :=
    (((Tallied.initial fresh uncalled).of_run wrote).of_run continued).of_run alone
  rw [tallied, ended, List.getElem?_concat_length]
  change outcome.reimports = []
  cases reached : outcome with
  | reloaded handle => exact absurd reached (unloaded handle)
  | untracked | selfWrite | unreadable => rfl

/-- A texture that came from a file is released after the file was written for another texture. The
first attempt to write the file failed. -/
theorem own_write_kept_twin :
    let texture : Texture := ⟨⟨1, 1, 1, 1, 1⟩, .rgba8 .linear, .texture2D, [1, 2, 3, 4]⟩
    let directory := Path.ofNames ["d"]
    let name := (texture.fileName .dds).render
    let path := directory.join name
    let job (handle : Handle) : ExportJob := ⟨handle, texture, directory, .dds⟩
    let policy : ReloadPolicy := ⟨2, 1⟩
    let storage : Storage :=
      ⟨true, .dds, ⟨some directory, [directory]⟩, [job ⟨7⟩, job ⟨8⟩], some policy, none⟩
    let files := (FileSystem.initial ⟨0⟩).setNode ["d"] (.directory ⟨0⟩)
    let start : Live := ⟨storage, .ofFiles files, .idle, [], []⟩
    let full : Disk := fun files path _ => (files, .failed (.write path "No space left on device"))
    let before := .link name ⟨9⟩ :: .take (.standard Png.stored) full :: List.replicate 5 .work ++
      [.take (.standard Png.stored) .plain, .work, .work]
    let after := [.work, .release ⟨9⟩, .work]
    ∃ written live, start.run before = some written ∧ written.run (.work :: after) = some live ∧
      live.workspace.registry.association? name = some ⟨8⟩ ∧
      policy.handleChange live.workspace.files live.workspace.registry path = .selfWrite ∧
      ∃ count next, live.run (.notify path :: List.replicate count (.attend 0)) = some next ∧
        next.reimports 0 = [] := by
  intro texture directory name path job policy storage files start full before after
  have runs : ((start.run before).bind fun written =>
      (written.run (.work :: after)).map fun live =>
        match written.worker with
        | .written running draft .finished => decide (
          path = running.path draft ∧
          live.history = [.released ⟨9⟩, .linked name ⟨8⟩] ++
            .settled (running.path draft) true :: written.history ∧
          live.workspace.files.modified? path = some ⟨0⟩ ∧
          written.workspace.files.modified? (running.path draft) = some ⟨0⟩ ∧
          written.workspace.registry.association? name = some ⟨9⟩ ∧
          live.storage.policy = some policy ∧ live.changes = [])
        | _ => false) = some true := by
    decide +kernel
  obtain ⟨written, wrote, runs⟩ := Option.bind_eq_some_iff.mp runs
  obtain ⟨live, continued, checked⟩ := Option.map_eq_some_iff.mp runs
  split at checked
  · rename_i running draft stands
    obtain ⟨same, recorded, told, kept, linked, watched, calls⟩ := of_decide_eq_true checked
    obtain ⟨_, links, decided, count, next, alone, _, unloaded⟩ :=
      own_write_kept rfl rfl wrote stands continued recorded (congrArg Path.components same)
        (by decide +kernel) told (by rw [kept]; rfl) watched (by decide) (by decide +kernel)
    have named : path.fileName? = some name := by decide +kernel
    have last : live.workspace.registry.association? name = some ⟨8⟩ := by
      refine (links name).trans ?_
      dsimp only
      rw [linked]
      decide +kernel
    have own := decided name named
    rw [last] at own
    rw [calls] at alone unloaded
    exact ⟨written, live, wrote, continued, last, own, count, next, alone, unloaded⟩
  · cases checked

end Live
end TextureCache
