import TextureCache.Proofs.Interleaving.Alone
import TextureCache.Proofs.Interleaving.Effect

/-! How the times of a change and of our last write decide. The comparison is cut off at the ends of
64 bits and looks in one direction only: a file that is older than our write by any amount counts as
written by us. A call that has a texture imported again does so once, in every order of steps. -/
namespace TextureCache

def earliestTime : Int := Int64.minValue.toInt

theorem earliestTime_eq : earliestTime = -9223372036854775808 := by decide

theorem latestTime_eq : latestTime = 9223372036854775807 := by decide

theorem saturatingSub_eq (first second : Int) :
    saturatingSub first second = max earliestTime (min latestTime (first - second)) := rfl

/-- Below the end of the range at which it is cut off, a difference compares as it is. -/
theorem saturatingSub_lt_iff {modified guard : Int} (saved : Int) (nonneg : 0 ≤ guard)
    (told : modified ≤ latestTime) :
    saturatingSub modified guard < saved ↔ modified - guard < saved ∧ earliestTime < saved := by
  rw [latestTime_eq] at told
  rw [saturatingSub_eq, earliestTime_eq, latestTime_eq]
  omega

/-- The comparison agrees with that of a window in both directions, unless the change is too far
before our write, or our write is at the earliest time. -/
theorem window_iff {modified saved guard : Int} (told : earliestTime ≤ modified) :
    ((modified - saved < guard ∧ earliestTime < saved) ↔ (modified - saved).natAbs < guard) ↔
      guard ≤ modified - saved ∨ -guard < modified - saved ∧ earliestTime < saved := by
  rw [earliestTime_eq] at *
  omega

namespace Registry

variable {registry : Registry} {path : Path} {saved modified guard : Int}

/-- A change after a finished write is our own when it came earlier than `guard` seconds after the
write, or before the write. -/
theorem isSelfWrite_iff_of_committed (stamped : registry.stamp? path = some (.committed saved))
    (nonneg : 0 ≤ guard) (told : modified ≤ latestTime) :
    registry.isSelfWrite path modified guard = true ↔
      modified - guard < saved ∧ earliestTime < saved := by
  rw [isSelfWrite, stamped]
  exact decide_eq_true_iff.trans (saturatingSub_lt_iff saved nonneg told)

end Registry

namespace ReloadPolicy

variable {policy : ReloadPolicy} {files : FileSystem} {registry : Registry} {path : Path}
  {name : String} {handle : Handle} {time : Time}

/-- The decision on a file that belongs to a texture and whose time of change can be told. -/
theorem handleChange_of_linked (named : path.fileName? = some name)
    (linked : registry.association? name = some handle) (told : files.modified? path = some time) :
    policy.handleChange files registry path =
      if registry.isSelfWrite path time.unixSeconds policy.guard then .selfWrite
      else if files.isReadable policy.attempts path then .reloaded handle
      else .unreadable := by
  have tracked : registry.isTracked name = true := by
    rw [Registry.isTracked, linked]
    rfl
  unfold handleChange
  simp only [named, tracked, linked, told, Option.map_some, Option.getD_some, not_true_eq_false,
    if_false, ite_not]

theorem handleChange_of_committed {saved : Int} (named : path.fileName? = some name)
    (linked : registry.association? name = some handle)
    (stamped : registry.stamp? path = some (.committed saved))
    (told : files.modified? path = some time)
    (readable : files.isReadable policy.attempts path = true) (nonneg : 0 ≤ policy.guard)
    (inRange : time.unixSeconds ≤ latestTime) :
    policy.handleChange files registry path =
      if time.unixSeconds - policy.guard < saved ∧ earliestTime < saved then .selfWrite
      else .reloaded handle := by
  rw [handleChange_of_linked named linked told, if_pos readable]
  simp only [Registry.isSelfWrite_iff_of_committed stamped nonneg inRange]

end ReloadPolicy

/-! ## Imports of a call -/

/-- The textures that are imported again for an outcome. -/
def ReloadOutcome.reimports : ReloadOutcome → List Handle
  | .reloaded handle => [handle]
  | _ => []

/-- The textures that are imported again by what a call has come to. -/
def Change.reimports (change : Change) : List Handle :=
  match change.progress with
  | .ended outcome => outcome.reimports
  | _ => []

/-- The texture that an event has a call import again. -/
def Event.reimport? (call : Call) : Event → Option Handle
  | .reloaded other handle => if other = call then some handle else none
  | _ => none

namespace Live

/-- The textures that a call had imported again so far. -/
def reimports (live : Live) (call : Call) : List Handle :=
  live.history.filterMap (·.reimport? call)

/-- The history holds one import for each call that ended with one, and no other. -/
def Tallied (live : Live) : Prop :=
  ∀ call, live.reimports call = (live.changes[call]?.map Change.reimports).getD []

namespace Tallied

variable {live next : Live}

theorem initial (fresh : live.history = []) (uncalled : live.changes = []) : Tallied live := by
  intro call
  rw [reimports, fresh, uncalled]
  rfl

private theorem of_same (tallied : Tallied live) (changes : next.changes = live.changes)
    (same : ∀ call, next.reimports call = live.reimports call) : Tallied next := by
  intro call
  rw [changes, same, tallied call]

/-- A step of another party than a call. -/
theorem of_effect (tallied : Tallied live) (effect : Effect live next)
    (changes : next.changes = live.changes) : Tallied next := by
  cases effect with
  | silent registry _ history =>
    exact tallied.of_same changes fun call => by rw [reimports, history]; rfl
  | operation event alters _ history =>
    refine tallied.of_same changes fun call => ?_
    rw [reimports, history, List.filterMap_cons_none]
    · rfl
    · cases event <;> first | rfl | cases alters
  | arrival change untold registry arrived history =>
    rw [changes] at arrived
    exact absurd arrived.symm (by simp)
  | move call path progress further there underway registry moved history =>
    exact tallied.of_same changes fun call => by rw [reimports, history]; rfl
  | check call path name modified guard attempts own there asked registry moved history =>
    refine tallied.of_same changes fun call => ?_
    rw [reimports, history, List.filterMap_cons_none rfl]
    rfl
  | reload call path name handle there linked registry moved history =>
    -- The call would be as before, which it is not: it ended.
    have ended := Effect.getElem?_set_of_there ⟨path, .ended (.reloaded handle)⟩ there
    rw [← moved, changes, there] at ended
    cases ended

/-- A call that moves on adds the imports of what it has come to. -/
theorem move (tallied : Tallied live) {call : Call} {before : Change} (further : Change)
    (there : live.changes[call]? = some before) (none : before.reimports = [])
    (changes : next.changes = live.changes.set call further)
    (added : next.reimports call = further.reimports ++ live.reimports call)
    (others : ∀ other, call ≠ other → next.reimports other = live.reimports other) :
    Tallied next := by
  intro other
  by_cases same : call = other
  · subst same
    rw [added, tallied call, there, changes, Effect.getElem?_set_of_there further there]
    simp [none]
  · rw [others other same, tallied other, changes, List.getElem?_set_ne same]

private theorem of_attend (tallied : Tallied live) {policy : ReloadPolicy} {call : Call}
    (attended : live.attend policy call = some next) : Tallied next := by
  unfold attend at attended
  obtain ⟨⟨path, progress⟩, there, attended⟩ := Option.bind_eq_some_iff.mp attended
  -- All steps but the last leave the history without a new import.
  have silent (further : Progress) (unended : Change.reimports ⟨path, further⟩ = [])
      (begun : Change.reimports ⟨path, progress⟩ = []) :
      Tallied (live.proceed call path further) :=
    tallied.move ⟨path, further⟩ there begun rfl (by rw [unended]; rfl) fun _ _ => rfl
  cases progress with
  | tracked name =>
    cases attended
    exact silent _ rfl rfl
  | timed name modified =>
    cases attended
    unfold check
    dsimp only
    cases live.workspace.registry.isSelfWrite path modified policy.guard with
    | true => exact silent (.ended .selfWrite) rfl rfl
    | false => exact silent (.foreign name policy.attempts) rfl rfl
  | foreign name attempts =>
    cases attempts with
    | zero =>
      cases attended
      exact silent _ rfl rfl
    | succ attempts =>
      cases attended
      cases live.workspace.files.read path with
      | ok contents => exact silent (.readable name) rfl rfl
      | error fault => exact silent (.foreign name attempts) rfl rfl
  | readable name =>
    cases attended
    unfold reload
    cases live.workspace.registry.association? name with
    | none => exact silent _ rfl rfl
    | some handle =>
      refine tallied.move ⟨path, .ended (.reloaded handle)⟩ there rfl rfl ?_ ?_
      · exact List.filterMap_cons_some (if_pos rfl)
      · exact fun other different => List.filterMap_cons_none (if_neg different)
  | ended outcome => cases attended

private theorem of_notify (tallied : Tallied live) (path : Path) : Tallied (live.notify path) := by
  obtain ⟨change, arrived, none⟩ : ∃ change,
      (live.notify path).changes = live.changes ++ [change] ∧ change.reimports = [] := by
    refine ⟨_, rfl, ?_⟩
    cases path.fileName? with
    | none => rfl
    | some name =>
      cases tracked : live.workspace.registry.isTracked name <;> simp only [tracked] <;> rfl
  intro call
  have earlier : (live.notify path).reimports call = live.reimports call := rfl
  rw [earlier, tallied call, arrived, List.getElem?_append]
  by_cases before : call < live.changes.length
  · rw [if_pos before]
  · rw [if_neg before, List.getElem?_eq_none (Nat.le_of_not_lt before), List.getElem?_singleton]
    by_cases new : call - live.changes.length = 0 <;> simp [new, none]

/-- Every step keeps the count of imports. -/
theorem of_act (tallied : Tallied live) {action : Action} (acted : live.act action = some next) :
    Tallied next := by
  cases action with
  | push job | setOutput found | addInput directory | link name handle | release handle
  | edit files =>
    refine tallied.of_effect (effect_of_act acted) ?_
    cases acted
    rfl
  | take codec disk =>
    refine tallied.of_effect (effect_of_act acted) ?_
    change live.take codec disk = some next at acted
    unfold take at acted
    split at acted <;> cases acted
    rfl
  | work => exact tallied.of_effect (effect_of_act acted) (frame_of_work acted).2.1
  | notify path =>
    obtain ⟨policy, _, rfl⟩ := Option.map_eq_some_iff.mp acted
    exact tallied.of_notify path
  | attend call =>
    obtain ⟨policy, _, attended⟩ := Option.bind_eq_some_iff.mp acted
    exact tallied.of_attend attended

theorem of_run (tallied : Tallied live) {actions : List Action}
    (run : live.run actions = some next) : Tallied next := by
  induction actions generalizing live with
  | nil =>
    cases run
    exact tallied
  | cons action rest ih =>
    obtain ⟨middle, acted, further⟩ := Option.bind_eq_some_iff.mp run
    exact ih (tallied.of_act acted) further

end Tallied

/-- A call that is alone decides on a readable file that belongs to a texture and that we finished
writing by the two times. A change is our own as long as it is not `guard` or more seconds behind
our write, however far it is before it; otherwise the call has the texture imported again, once. The
decision is that of a window in both directions as long as the change is not `guard` or more seconds
before our write, and our write not at the earliest time. -/
theorem reload_window {start live : Live} {actions : List Action} (fresh : start.history = [])
    (uncalled : start.changes = []) (run : start.run actions = some live) {policy : ReloadPolicy}
    (watched : live.storage.policy = some policy) {path : Path} {name : String} {handle : Handle}
    {saved : Int} {time : Time} (named : path.fileName? = some name)
    (linked : live.workspace.registry.association? name = some handle)
    (stamped : live.workspace.registry.stamp? path = some (.committed saved))
    (told : live.workspace.files.modified? path = some time)
    (inRange : earliestTime ≤ time.unixSeconds ∧ time.unixSeconds ≤ latestTime)
    (readable : live.workspace.files.isReadable policy.attempts path = true)
    (nonneg : 0 ≤ policy.guard) :
    let outcome := policy.handleChange live.workspace.files live.workspace.registry path
    let late := time.unixSeconds - saved
    (∃ count next,
      live.run (.notify path :: List.replicate count (.attend live.changes.length)) = some next ∧
      next.changes = live.changes ++ [⟨path, .ended outcome⟩] ∧
      next.reimports live.changes.length = outcome.reimports) ∧
    outcome = (if late < policy.guard ∧ earliestTime < saved then .selfWrite
      else .reloaded handle) ∧
    ((outcome = .selfWrite ↔ late.natAbs < policy.guard) ↔
      policy.guard ≤ late ∨ -policy.guard < late ∧ earliestTime < saved) := by
  intro outcome late
  have decided : outcome = if late < policy.guard ∧ earliestTime < saved then .selfWrite
      else .reloaded handle := by
    have compared : late < policy.guard ↔ time.unixSeconds - policy.guard < saved := by omega
    simp only [outcome, compared]
    exact ReloadPolicy.handleChange_of_committed named linked stamped told readable nonneg
      inRange.2
  refine ⟨?_, decided, ?_⟩
  · obtain ⟨count, next, alone, ended, -⟩ := live.notify_alone watched path
    refine ⟨count, next, alone, ended, ?_⟩
    rw [((Tallied.initial fresh uncalled).of_run run).of_run alone, ended,
      List.getElem?_concat_length]
    rfl
  · have own : outcome = .selfWrite ↔ late < policy.guard ∧ earliestTime < saved := by
      rw [decided]
      split <;> simp_all
    rw [own]
    exact window_iff inRange.1

/-- A texture is exported, and its file is edited as many seconds later as the window is long. -/
theorem reload_window_edge :
    let texture : Texture := ⟨⟨1, 1, 1, 1, 1⟩, .rgba8 .linear, .texture2D, [1, 2, 3, 4]⟩
    let directory := Path.ofNames ["d"]
    let name := (texture.fileName .dds).render
    let path := directory.join name
    let policy : ReloadPolicy := ⟨5, 1⟩
    let storage : Storage := ⟨true, .dds, ⟨some directory, [directory]⟩,
      [⟨⟨7⟩, texture, directory, .dds⟩], some policy, none⟩
    let files := (FileSystem.initial (.ofSeconds 1000 0)).setNode ["d"] (.directory ⟨0⟩)
    let edited := files.setNode ["d", name] (.file [9] (.ofSeconds 1005 0))
    let start : Live := ⟨storage, .ofFiles files, .idle, [], []⟩
    let actions := .take (.standard Png.stored) .plain :: List.replicate 5 .work ++ [.edit edited]
    ∃ live, start.run actions = some live ∧ ∃ count next,
      live.run (.notify path :: List.replicate count (.attend 0)) = some next ∧
        next.changes = [⟨path, .ended (.reloaded ⟨7⟩)⟩] ∧ next.reimports 0 = [⟨7⟩] := by
  intro texture directory name path policy storage files edited start actions
  have stands : (start.run actions).map (fun live => decide (
      live.storage.policy = some policy ∧ live.changes = [] ∧
      live.workspace.registry.association? name = some ⟨7⟩ ∧
      live.workspace.registry.stamp? path = some (.committed 1000) ∧
      live.workspace.files.modified? path = some (.ofSeconds 1005 0) ∧
      live.workspace.files.isReadable policy.attempts path = true)) = some true := by
    decide +kernel
  obtain ⟨live, run, checked⟩ := Option.map_eq_some_iff.mp stands
  obtain ⟨watched, calls, linked, stamped, told, readable⟩ := of_decide_eq_true checked
  obtain ⟨⟨count, next, alone, ended, imported⟩, decided, -⟩ :=
    reload_window rfl rfl run watched (by decide +kernel) linked stamped told (by decide +kernel)
      readable (by decide +kernel)
  have reloaded : policy.handleChange live.workspace.files live.workspace.registry path =
      .reloaded ⟨7⟩ := decided
  rw [calls] at alone ended imported
  rw [reloaded] at ended imported
  exact ⟨live, run, count, next, alone, ended, imported⟩

/-- A texture is exported, and its file is replaced by one that is a thousand seconds older. -/
theorem reload_window_backup :
    let texture : Texture := ⟨⟨1, 1, 1, 1, 1⟩, .rgba8 .linear, .texture2D, [1, 2, 3, 4]⟩
    let directory := Path.ofNames ["d"]
    let name := (texture.fileName .dds).render
    let path := directory.join name
    let policy : ReloadPolicy := ⟨5, 1⟩
    let storage : Storage := ⟨true, .dds, ⟨some directory, [directory]⟩,
      [⟨⟨7⟩, texture, directory, .dds⟩], some policy, none⟩
    let files := (FileSystem.initial (.ofSeconds 1000 0)).setNode ["d"] (.directory ⟨0⟩)
    let backup := files.setNode ["d", name] (.file [9] (.ofSeconds 0 0))
    let start : Live := ⟨storage, .ofFiles files, .idle, [], []⟩
    let actions := .take (.standard Png.stored) .plain :: List.replicate 5 .work ++ [.edit backup]
    (start.run actions).map (fun live =>
      (live.workspace.registry.association? name, live.workspace.registry.stamp? path,
        live.workspace.files.modified? path,
        live.workspace.files.isReadable policy.attempts path,
        policy.handleChange live.workspace.files live.workspace.registry path)) =
      some (some ⟨7⟩, some (.committed 1000), some (.ofSeconds 0 0), true, .selfWrite) ∧
    ¬ ((Time.ofSeconds 0 0).unixSeconds - 1000).natAbs < policy.guard := by
  decide +kernel

end Live
end TextureCache
