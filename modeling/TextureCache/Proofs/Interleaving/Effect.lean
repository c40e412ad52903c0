import TextureCache.Proofs.Interleaving.Machine

/-! What a single step can do. However many kinds of steps the parties make, to the registry, the
calls and the history they do one of six things; what all interleavings keep is shown for these. -/
namespace TextureCache

/-- An event is an operation that turns one registry into another. -/
def Event.Alters (event : Event) (before after : Registry) : Prop :=
  match event with
  | .reserved path => after = before.reserve path
  | .settled path finished => ∃ files, after = before.settle files path finished
  | .forgot directory => after = before.forgetUnder directory
  | .linked name handle => after = before.associate name handle
  | .released handle => after = before.release handle
  | .checked _ _ _ | .reloaded _ _ => False

/-- What a step does to the registry, the calls and the history. -/
inductive Effect (live next : Live) : Prop where
  | silent (registry : next.workspace.registry = live.workspace.registry)
      (changes : next.changes = live.changes) (history : next.history = live.history)
  | operation (event : Event)
      (registry : event.Alters live.workspace.registry next.workspace.registry)
      (changes : next.changes = live.changes) (history : next.history = event :: live.history)
  /-- A call comes in. -/
  | arrival (change : Change)
      (untold : ∀ outcome, change.progress = .ended outcome → outcome = .untracked)
      (registry : next.workspace.registry = live.workspace.registry)
      (changes : next.changes = live.changes ++ [change]) (history : next.history = live.history)
  /-- A call moves on by itself. -/
  | move (call : Call) (path : Path) (progress further : Progress)
      (there : live.changes[call]? = some ⟨path, progress⟩)
      (underway : ∀ outcome, progress ≠ .ended outcome)
      (registry : next.workspace.registry = live.workspace.registry)
      (changes : next.changes = live.changes.set call ⟨path, further⟩)
      (history : next.history = live.history)
  | check (call : Call) (path : Path) (name : String) (modified guard : Int) (attempts : Nat)
      (own : Bool) (there : live.changes[call]? = some ⟨path, .timed name modified⟩)
      (asked : own = live.workspace.registry.isSelfWrite path modified guard)
      (registry : next.workspace.registry = live.workspace.registry)
      (changes : next.changes = live.changes.set call
        ⟨path, if own then .ended .selfWrite else .foreign name attempts⟩)
      (history : next.history = .checked call path own :: live.history)
  | reload (call : Call) (path : Path) (name : String) (handle : Handle)
      (there : live.changes[call]? = some ⟨path, .readable name⟩)
      (linked : live.workspace.registry.association? name = some handle)
      (registry : next.workspace.registry = live.workspace.registry)
      (changes : next.changes = live.changes.set call ⟨path, .ended (.reloaded handle)⟩)
      (history : next.history = .reloaded call handle :: live.history)

namespace Effect

variable {live next : Live}

private theorem getElem?_set_of_ended {changes : List Change} {call other : Call}
    {path target : Path} {progress : Progress} {outcome : ReloadOutcome} (further : Change)
    (there : changes[call]? = some ⟨path, progress⟩)
    (underway : ∀ outcome, progress ≠ .ended outcome)
    (ended : changes[other]? = some ⟨target, .ended outcome⟩) :
    (changes.set call further)[other]? = some ⟨target, .ended outcome⟩ := by
  by_cases same : call = other
  · subst same
    cases there.symm.trans ended
    exact absurd rfl (underway outcome)
  · rw [List.getElem?_set_ne same, ended]

theorem getElem?_set_of_there {changes : List Change} {call : Call} {change : Change}
    (further : Change) (there : changes[call]? = some change) :
    (changes.set call further)[call]? = some further :=
  List.getElem?_set_self (List.getElem?_eq_some_iff.mp there).1

theorem keeps_ended (effect : Effect live next) {call : Call} {path : Path}
    {outcome : ReloadOutcome} (ended : live.changes[call]? = some ⟨path, .ended outcome⟩) :
    next.changes[call]? = some ⟨path, .ended outcome⟩ := by
  cases effect with
  | silent registry changes history => rw [changes, ended]
  | operation event alters changes history => rw [changes, ended]
  | arrival change untold registry changes history =>
    rw [changes, List.getElem?_append_left (List.getElem?_eq_some_iff.mp ended).1, ended]
  | move other target progress further there underway registry changes history =>
    rw [changes]
    exact getElem?_set_of_ended _ there underway ended
  | check other target name modified guard attempts own there asked registry changes history =>
    rw [changes]
    exact getElem?_set_of_ended _ there nofun ended
  | reload other target name handle there linked registry changes history =>
    rw [changes]
    exact getElem?_set_of_ended _ there nofun ended

end Effect

namespace Live

variable {live next : Live}

private theorem effect_of_setOutput (found : Option Path) : Effect live (live.setOutput found) := by
  unfold setOutput Storage.switchOutput
  cases live.storage.directories.output with
  | none => exact .silent rfl rfl rfl
  | some previous => exact .operation (.forgot previous) rfl rfl rfl

private theorem effect_of_take {codec : Codec} {disk : Disk}
    (taken : live.take codec disk = some next) : Effect live next := by
  unfold take at taken
  split at taken
  · cases taken
    exact .silent rfl rfl rfl
  · cases taken

private theorem effect_of_work (worked : live.work = some next) : Effect live next := by
  unfold work at worked
  split at worked
  · cases worked
  · split at worked
    · cases worked
      refine .silent ?_ rfl rfl
      cases RunningJob.ending _ <;> rfl
    · cases worked
      exact .operation (.reserved _) rfl rfl rfl
  · cases worked
    exact .silent rfl rfl rfl
  · cases worked
    exact .operation (.settled _ _) ⟨_, rfl⟩ rfl rfl
  · dsimp only at worked
    split at worked
    · cases worked
      exact .operation (.linked _ _) rfl rfl rfl
    · cases worked
      exact .silent rfl rfl rfl
    · cases worked
      exact .silent rfl rfl rfl

private theorem effect_of_notify (path : Path) : Effect live (live.notify path) := by
  refine .arrival _ ?_ rfl rfl rfl
  intro outcome ended
  dsimp only at ended
  split at ended
  · cases ended
    rfl
  · split at ended <;> cases ended
    rfl

private theorem effect_of_attend {policy : ReloadPolicy} {call : Call}
    (attended : live.attend policy call = some next) : Effect live next := by
  unfold attend at attended
  obtain ⟨⟨path, progress⟩, there, attended⟩ := Option.bind_eq_some_iff.mp attended
  cases progress with
  | tracked name =>
    cases attended
    exact .move call path _ _ there nofun rfl rfl rfl
  | timed name modified =>
    cases attended
    exact .check call path name modified policy.guard policy.attempts _ there rfl rfl rfl rfl
  | foreign name attempts =>
    cases attempts with
    | zero =>
      cases attended
      exact .move call path _ _ there nofun rfl rfl rfl
    | succ attempts =>
      cases attended
      exact .move call path _ _ there nofun rfl rfl rfl
  | readable name =>
    cases attended
    unfold reload
    cases linked : live.workspace.registry.association? name with
    | none => exact .move call path _ _ there nofun rfl rfl rfl
    | some handle => exact .reload call path name handle there linked rfl rfl rfl
  | ended outcome => cases attended

/-- The worker stays with its job or ends it, and leaves the queue and the calls to others. -/
theorem frame_of_work (worked : live.work = some next) :
    next.storage = live.storage ∧ next.changes = live.changes ∧
      (next.worker = .idle ∨ next.worker.job? = live.worker.job?) := by
  unfold work at worked
  split at worked
  case h_1 => cases worked
  case h_2 running stands =>
    split at worked <;> cases worked
    · exact ⟨rfl, rfl, .inl rfl⟩
    · exact ⟨rfl, rfl, .inr (stands ▸ rfl)⟩
  case h_3 running draft stands | h_4 running draft ending stands =>
    cases worked
    exact ⟨rfl, rfl, .inr (stands ▸ rfl)⟩
  case h_5 running draft ending stands =>
    cases ending <;> cases worked
    · exact ⟨rfl, rfl, .inr (stands ▸ rfl)⟩
    · exact ⟨rfl, rfl, .inr (stands ▸ rfl)⟩
    · exact ⟨rfl, rfl, .inl rfl⟩

/-- A call looks at the files and the registry and leaves the rest of the cache to others. -/
theorem frame_of_attend {policy : ReloadPolicy} {call : Call}
    (attended : live.attend policy call = some next) :
    next.workspace = live.workspace ∧ next.storage = live.storage ∧ next.worker = live.worker := by
  unfold attend at attended
  obtain ⟨⟨path, progress⟩, _, attended⟩ := Option.bind_eq_some_iff.mp attended
  cases progress with
  | tracked name | timed name modified =>
    cases attended
    exact ⟨rfl, rfl, rfl⟩
  | foreign name attempts => cases attempts <;> cases attended <;> exact ⟨rfl, rfl, rfl⟩
  | readable name =>
    cases attended
    unfold reload
    cases live.workspace.registry.association? name <;> exact ⟨rfl, rfl, rfl⟩
  | ended outcome => cases attended

theorem effect_of_act {action : Action} (acted : live.act action = some next) :
    Effect live next := by
  cases action with
  | push job =>
    cases acted
    exact .silent rfl rfl rfl
  | setOutput found =>
    cases acted
    exact effect_of_setOutput found
  | addInput directory =>
    cases acted
    exact .silent rfl rfl rfl
  | link name handle =>
    cases acted
    exact .operation (.linked name handle) rfl rfl rfl
  | release handle =>
    cases acted
    exact .operation (.released handle) rfl rfl rfl
  | edit files =>
    cases acted
    exact .silent rfl rfl rfl
  | take codec disk => exact effect_of_take acted
  | work => exact effect_of_work acted
  | notify path =>
    obtain ⟨policy, _, rfl⟩ := Option.map_eq_some_iff.mp acted
    exact effect_of_notify path
  | attend call =>
    obtain ⟨policy, _, attended⟩ := Option.bind_eq_some_iff.mp acted
    exact effect_of_attend attended

/-- What every effect keeps, every run keeps. -/
theorem run_induction {keeps : Live → Prop}
    (step : ∀ live next, Effect live next → keeps live → keeps next) {start : Live}
    {actions : List Action} (run : start.run actions = some live) (initial : keeps start) :
    keeps live := by
  induction actions generalizing start with
  | nil =>
    cases run
    exact initial
  | cons action rest ih =>
    obtain ⟨middle, acted, further⟩ := Option.bind_eq_some_iff.mp run
    exact ih further (step start middle (effect_of_act acted) initial)

end Live
end TextureCache
