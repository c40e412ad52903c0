import TextureCache.Proofs.Export.Disk
import TextureCache.Proofs.Export.Plan
import TextureCache.Proofs.FileName
import TextureCache.Proofs.Path
import TextureCache.Proofs.Png.Reimport
import TextureCache.Proofs.Registry

/-! What an export leaves in the registry, on any disk and with any codec. Each attempt to write a
file settles its own reservation and touches nothing else, and the attempts of an export go to
different paths; so after the export every attempt can still be read off the registry. -/
namespace TextureCache

namespace Attempt

def path (job : ExportJob) (attempt : Attempt) : Path := job.directory.join attempt.draft.name

/-- The time of a finished attempt: the one that its file has right after the write, or that of the
clock if the file tells none. -/
def time (job : ExportJob) (attempt : Attempt) : Int :=
  ((attempt.files.modified? (attempt.path job)).getD attempt.files.clock).unixSeconds

end Attempt

/-- The attempts of an export account for all that it changes. -/
structure Accounts (job : ExportJob) (before after : Workspace) (attempts : List Attempt) :
    Prop where
  finished : ∀ attempt ∈ attempts, attempt.ending = .finished →
    after.registry.stamp? (attempt.path job) = some (.committed (attempt.time job)) ∧
      after.registry.association? attempt.draft.name = some job.handle
  unfinished : ∀ attempt ∈ attempts, attempt.ending ≠ .finished →
    after.registry.stamp? (attempt.path job) = none ∧
      after.registry.association? attempt.draft.name =
        before.registry.association? attempt.draft.name
  stamps : ∀ path : Path, (∀ attempt ∈ attempts,
      (attempt.path job).components ≠ path.components) →
    after.registry.stamp? path = before.registry.stamp? path
  associations : ∀ name, (∀ attempt ∈ attempts, attempt.draft.name ≠ name) →
    after.registry.association? name = before.registry.association? name
  /-- No link and no directory is made or taken away. -/
  gains : before.files.GainsFiles after.files
  /-- What changes is a file to which the path of an attempt leads. -/
  files : ∀ location, after.files.node? location ≠ before.files.node? location →
    ∃ attempt ∈ attempts, after.files.writeTarget (attempt.path job) = .ok location ∧
      after.files.HoldsFile location

namespace Accounts

variable {job : ExportJob} {before middle after : Workspace} {early late : List Attempt}

theorem nil (job : ExportJob) (workspace : Workspace) : Accounts job workspace workspace [] where
  finished := fun _ none => absurd none List.not_mem_nil
  unfinished := fun _ none => absurd none List.not_mem_nil
  stamps := fun _ _ => rfl
  associations := fun _ _ => rfl
  gains := .refl _
  files := fun _ changed => absurd rfl changed

/-- Attempts on different paths do not touch what each other left. -/
theorem append (first : Accounts job before middle early) (second : Accounts job middle after late)
    (apart : ∀ attempt ∈ early, ∀ other ∈ late, attempt.draft.name ≠ other.draft.name ∧
      (attempt.path job).components ≠ (other.path job).components) :
    Accounts job before after (early ++ late) where
  finished := by
    intro attempt member ended
    rcases List.mem_append.mp member with inEarly | inLate
    · rw [second.stamps _ fun other inLate => (apart attempt inEarly other inLate).2.symm,
        second.associations _ fun other inLate => (apart attempt inEarly other inLate).1.symm]
      exact first.finished attempt inEarly ended
    · exact second.finished attempt inLate ended
  unfinished := by
    intro attempt member ended
    rcases List.mem_append.mp member with inEarly | inLate
    · rw [second.stamps _ fun other inLate => (apart attempt inEarly other inLate).2.symm,
        second.associations _ fun other inLate => (apart attempt inEarly other inLate).1.symm]
      exact first.unfinished attempt inEarly ended
    · rw [← first.associations _ fun other inEarly => (apart other inEarly attempt inLate).1]
      exact second.unfinished attempt inLate ended
  stamps := by
    intro path others
    rw [second.stamps path fun attempt member => others attempt (List.mem_append_right _ member)]
    exact first.stamps path fun attempt member => others attempt (List.mem_append_left _ member)
  associations := by
    intro name others
    rw [second.associations name fun attempt member =>
      others attempt (List.mem_append_right _ member)]
    exact first.associations name fun attempt member =>
      others attempt (List.mem_append_left _ member)
  gains := first.gains.trans second.gains
  files := by
    intro location changed
    by_cases later : after.files.node? location = middle.files.node? location
    · obtain ⟨attempt, member, target, file⟩ := first.files location (later ▸ changed)
      exact ⟨attempt, List.mem_append_left _ member, second.gains.writeTarget target,
        second.gains.holdsFile file⟩
    · obtain ⟨attempt, member, there⟩ := second.files location later
      exact ⟨attempt, List.mem_append_right _ member, there⟩

theorem settled (accounts : Accounts job before after early)
    (settled : ∀ path, before.registry.stamp? path ≠ some .pending) (path : Path) :
    after.registry.stamp? path ≠ some .pending := by
  by_cases attempted : ∃ attempt ∈ early, (attempt.path job).components = path.components
  · obtain ⟨attempt, member, same⟩ := attempted
    have own : after.registry.stamp? path = after.registry.stamp? (attempt.path job) := by
      rw [Registry.stamp?, Registry.stamp?, same]
    by_cases ended : attempt.ending = .finished
    · rw [own, (accounts.finished attempt member ended).1]
      nofun
    · rw [own, (accounts.unfinished attempt member ended).1]
      nofun
  · rw [accounts.stamps path fun attempt member same => attempted ⟨attempt, member, same⟩]
    exact settled path

theorem congr {before' after' : Workspace} (accounts : Accounts job before after early)
    (registry : before'.registry = before.registry) (files : before'.files = before.files)
    (registry' : after'.registry = after.registry) (files' : after'.files = after.files) :
    Accounts job before' after' early := by
  obtain ⟨finished, unfinished, stamps, associations, gains, changed⟩ := accounts
  rw [← registry'] at finished
  rw [← registry, ← registry'] at unfinished stamps associations
  rw [← files, ← files'] at gains changed
  exact ⟨finished, unfinished, stamps, associations, gains, changed⟩

end Accounts

namespace Workspace

private theorem stamp?_exportDraftOn (workspace : Workspace) (disk : Disk) (job : ExportJob)
    (draft : Draft) (other : Path) :
    let (after, attempt) := workspace.exportDraftOn disk job draft
    after.registry.stamp? other =
      if other.components = (attempt.path job).components then
        if attempt.ending = .finished then some (.committed (attempt.time job)) else none
      else workspace.registry.stamp? other := by
  have recorded (settled : Workspace) (ending : WriteEnd) :
      (settled.recordEnd draft.name job.handle ending).registry.stamp? other =
        settled.registry.stamp? other := by
    cases ending <;> rfl
  unfold exportDraftOn
  dsimp only
  rw [recorded, settleEnd, updateRegistry, Registry.stamp?_settle]
  simp only [decide_eq_true_eq]
  by_cases same : other.components = (job.directory.join draft.name).components
  · exact (if_pos same).trans (if_pos same).symm
  · exact (if_neg same).trans (((Registry.stamp?_reserve _ _ _).trans (if_neg same)).trans
      (if_neg same).symm)

private theorem association?_exportDraftOn (workspace : Workspace) (disk : Disk) (job : ExportJob)
    (draft : Draft) (name : String) :
    let (after, attempt) := workspace.exportDraftOn disk job draft
    after.registry.association? name =
      if name = draft.name ∧ attempt.ending = .finished then some job.handle
      else workspace.registry.association? name := by
  have recorded (settled : Workspace) (ending : WriteEnd) :
      (settled.recordEnd draft.name job.handle ending).registry.association? name =
        if name = draft.name ∧ ending = .finished then some job.handle
        else settled.registry.association? name := by
    cases ending with
    | finished => simp [recordEnd, record, updateRegistry, Registry.association?_associate]
    | failed failure => simp [recordEnd, record, report]
    | broken => simp [recordEnd]
  unfold exportDraftOn
  dsimp only
  rw [recorded, settleEnd, updateRegistry, Registry.association?_settle]
  rfl

theorem files_exportDraftOn (workspace : Workspace) (disk : Disk) (job : ExportJob)
    (draft : Draft) :
    (workspace.exportDraftOn disk job draft).1.files =
      (disk workspace.files (job.directory.join draft.name) draft).1 := by
  have recorded (settled : Workspace) (ending : WriteEnd) :
      (settled.recordEnd draft.name job.handle ending).files = settled.files := by
    cases ending <;> rfl
  exact recorded _ _

variable {disk : Disk} {job : ExportJob}

theorem accounts_exportDraftOn (sound : disk.Sound) (workspace : Workspace) (job : ExportJob)
    (draft : Draft) :
    Accounts job workspace (workspace.exportDraftOn disk job draft).1
      [(workspace.exportDraftOn disk job draft).2] := by
  have stamp := stamp?_exportDraftOn workspace disk job draft
  have association := association?_exportDraftOn workspace disk job draft
  have files := files_exportDraftOn workspace disk job draft
  have named : (workspace.exportDraftOn disk job draft).2.draft = draft := rfl
  dsimp only at stamp association
  generalize workspace.exportDraftOn disk job draft = written at *
  obtain ⟨after, attempt⟩ := written
  dsimp only at stamp association files named ⊢
  have own : attempt.path job = job.directory.join draft.name := by rw [Attempt.path, named]
  have gains : workspace.files.GainsFiles after.files := files ▸ sound.gainsFiles _ _ _
  constructor
  · intro _ member ended
    cases List.mem_singleton.mp member
    rw [stamp, association, if_pos rfl, if_pos ended, if_pos ⟨congrArg Draft.name named, ended⟩]
    exact ⟨rfl, rfl⟩
  · intro _ member unended
    cases List.mem_singleton.mp member
    rw [stamp, association, if_pos rfl, if_neg unended, if_neg fun both => unended both.2]
    exact ⟨rfl, rfl⟩
  · intro path others
    rw [stamp, if_neg fun same => others attempt (List.mem_singleton_self _) same.symm]
  · intro name others
    rw [association, if_neg]
    rintro ⟨rfl, _⟩
    exact others attempt (List.mem_singleton_self _) (congrArg Draft.name named)
  · exact gains
  · intro location changed
    rw [files] at changed
    obtain ⟨target, file⟩ := sound.location?_of_changed changed
    rw [← files, ← own] at target
    exact ⟨attempt, List.mem_singleton_self _, target, files ▸ file⟩

/-- The attempts of an export are on the first of its drafts, on all of them if no writer breaks
off; and they account for all that is changed. -/
theorem accounts_exportDraftsOn (sound : disk.Sound) (workspace : Workspace) {drafts : List Draft}
    (apart : drafts.Pairwise fun first second => first.name ≠ second.name ∧
      (job.directory.join first.name).components ≠ (job.directory.join second.name).components) :
    let (after, attempts) := exportDraftsOn disk job drafts workspace
    attempts.map Attempt.draft <+: drafts ∧
      ((∀ attempt ∈ attempts, attempt.ending ≠ .broken) → attempts.map Attempt.draft = drafts) ∧
      Accounts job workspace after attempts := by
  induction drafts generalizing workspace with
  | nil => exact ⟨List.prefix_rfl, fun _ => rfl, .nil job workspace⟩
  | cons draft rest ih =>
    obtain ⟨different, apart⟩ := List.pairwise_cons.mp apart
    have first := accounts_exportDraftOn sound workspace job draft
    have named : (workspace.exportDraftOn disk job draft).2.draft = draft := rfl
    rw [exportDraftsOn]
    generalize workspace.exportDraftOn disk job draft = written at *
    obtain ⟨next, attempt⟩ := written
    dsimp only at first named ⊢
    by_cases broken : attempt.ending = .broken
    · simp only [if_pos broken]
      refine ⟨?_, fun sound => absurd broken (sound attempt (List.mem_singleton_self _)), first⟩
      rw [List.map_singleton, named]
      exact List.prefix_append [draft] rest
    · simp only [if_neg broken]
      obtain ⟨start, whole, others⟩ := ih next apart
      refine ⟨?_, ?_, first.append others ?_⟩
      · rw [List.map_cons, named]
        exact (List.prefix_cons_inj draft).mpr start
      · intro sound
        rw [List.map_cons, named, whole fun other member =>
          sound other (List.mem_cons_of_mem _ member)]
      · -- Later attempts are on later drafts, which have other paths.
        intro _ only other member
        cases List.mem_singleton.mp only
        unfold Attempt.path
        rw [named]
        exact different other.draft (start.subset (List.mem_map_of_mem member))

end Workspace

/-! ## The paths of a job -/

namespace ExportJob

/-- The names of the files that belong to a job: the texture's, or those of all its slices. -/
def ownNames (job : ExportJob) : List String :=
  match job.container with
  | .dds => [(job.texture.fileName .dds).render]
  | .png => job.texture.sliceNames

theorem exists_render_of_mem_ownNames {job : ExportJob} {name : String}
    (member : name ∈ job.ownNames) :
    ∃ fileName : FileName, fileName.container = job.container ∧ name = fileName.render := by
  unfold ownNames at member
  split at member
  · rename_i container
    exact ⟨_, container.symm, List.mem_singleton.mp member⟩
  · rename_i container
    obtain ⟨slice, _, rfl⟩ := List.mem_map.mp member
    exact ⟨_, container.symm, rfl⟩

private theorem nodup_ownNames (job : ExportJob) : job.ownNames.Nodup := by
  unfold ownNames
  split
  · exact List.nodup_singleton _
  · exact job.texture.nodup_sliceNames

theorem components_of_mem_ownNames {job : ExportJob} {name : String}
    (member : name ∈ job.ownNames) :
    (job.directory.join name).components = job.directory.components ++ [.name name] := by
  obtain ⟨fileName, _, rfl⟩ := exists_render_of_mem_ownNames member
  exact Path.components_join job.directory fileName.componentOf_render

private theorem names_ddsDraft (texture : Texture) (info : ImageInfo) (texels : Bytes) :
    (ddsDraft texture info texels).drafts.map Draft.name <+: [(texture.fileName .dds).render] := by
  unfold ddsDraft
  split
  · exact List.nil_prefix
  · exact List.prefix_rfl

private theorem names_ofDecoded {codec : Codec} {texture : Texture} {next : Bytes → ExportPlan}
    {names : List String} (own : ∀ data, (next data).drafts.map Draft.name <+: names) :
    (ExportPlan.ofDecoded codec texture next).drafts.map Draft.name <+: names := by
  rcases drafts_ofDecoded codec texture next with none | ⟨data, _, same⟩
  · rw [none]
    exact List.nil_prefix
  · rw [same]
    exact own data

private theorem names_planDds (codec : Codec) (texture : Texture) :
    (planDds codec texture).drafts.map Draft.name <+: [(texture.fileName .dds).render] := by
  unfold planDds
  split
  · exact List.nil_prefix
  · split
    · exact names_ddsDraft _ _ _
    · exact names_ofDecoded fun _ => names_ddsDraft _ _ _

private theorem names_pngDrafts (codec : Codec) (texture : Texture) (pixels : Bytes)
    (regions : List Region) :
    (pngDrafts codec texture pixels regions).drafts.map Draft.name <+: regions.map fun region =>
      (texture.sliceName region.slice.level region.slice.index).render := by
  induction regions with
  | nil => exact List.prefix_rfl
  | cons region rest ih =>
    unfold pngDrafts
    split
    · exact List.nil_prefix
    · exact (List.prefix_cons_inj _).mpr ih

private theorem sliceNames_eq (texture : Texture) :
    texture.sliceNames = texture.shape.rgba8Regions.map fun region =>
      (texture.sliceName region.slice.level region.slice.index).render := by
  rw [Texture.sliceNames, ← @map_slice_layOut rgba8SliceSize 0 texture.shape.slices, List.map_map]
  rfl

/-- An export writes the first of the files that belong to its job. -/
theorem names_plan (codec : Codec) (job : ExportJob) :
    (job.plan codec).drafts.map Draft.name <+: job.ownNames := by
  unfold plan ownNames
  split
  · cases job.container with
    | dds => exact names_planDds codec job.texture
    | png =>
      rw [sliceNames_eq]
      exact names_ofDecoded fun _ => names_pngDrafts _ _ _ _
  · exact List.nil_prefix

private theorem names_plan_of_enough {codec : Codec} {job : ExportJob} {pixels : Bytes}
    (container : job.container = .png) (supported : job.texture.format.isSupported = true)
    (decoded : codec.decode job.texture = .pixels pixels)
    (enough : job.texture.shape.rgba8Size ≤ pixels.length) :
    (job.plan codec).drafts.map Draft.name = job.texture.sliceNames := by
  have inside : ∀ region ∈ job.texture.shape.rgba8Regions,
      region.offset + region.size ≤ pixels.length := by
    intro region member
    obtain ⟨_, _, _, stop⟩ := bounds_of_mem_layOut member
    rw [← Shape.rgba8Size_eq_sum, Nat.zero_add] at stop
    exact stop.trans enough
  unfold plan planPng ExportPlan.ofDecoded
  simp only [supported, if_true, container, decoded, pngDrafts_of_enough inside, List.map_map,
    sliceNames_eq]
  rfl

theorem apart_plan (codec : Codec) (job : ExportJob) :
    (job.plan codec).drafts.Pairwise fun first second => first.name ≠ second.name ∧
      (job.directory.join first.name).components ≠
        (job.directory.join second.name).components := by
  have own := names_plan codec job
  have distinct := job.nodup_ownNames.sublist own.sublist
  refine (List.pairwise_map.mp distinct).imp_of_mem fun member member' different => ?_
  refine ⟨different, fun same => different ?_⟩
  rw [components_of_mem_ownNames (own.subset (List.mem_map_of_mem member)),
    components_of_mem_ownNames (own.subset (List.mem_map_of_mem member'))] at same
  exact Component.name.inj (List.singleton_inj.mp (List.append_cancel_left same))

end ExportJob

namespace Workspace

variable {disk : Disk}

/-- An export accounts for all that it changes by attempts on the first files of its plan, on all of
them if no writer breaks off. -/
theorem accounts_exportOn (sound : disk.Sound) (workspace : Workspace) (codec : Codec)
    (job : ExportJob) :
    let run := workspace.exportOn disk codec job
    run.attempts.map Attempt.draft <+: (job.plan codec).drafts ∧
      ((∀ attempt ∈ run.attempts, attempt.ending ≠ .broken) →
        run.attempts.map Attempt.draft = (job.plan codec).drafts) ∧
      Accounts job workspace run.workspace run.attempts := by
  obtain ⟨start, whole, accounts⟩ := accounts_exportDraftsOn sound
    { workspace with decodings := workspace.decodings + if (job.plan codec).asked then 1 else 0 }
    (job.apart_plan codec)
  unfold exportOn
  dsimp only
  generalize exportDraftsOn disk job (job.plan codec).drafts _ = written at *
  split
  · exact ⟨start, whole, accounts.congr rfl rfl rfl rfl⟩
  · cases (job.plan codec).ending with
    | complete => exact ⟨start, whole, accounts.congr rfl rfl rfl rfl⟩
    | refused lines => exact ⟨start, whole, accounts.congr rfl rfl rfl rfl⟩
    | broken => exact ⟨start, whole, accounts.congr rfl rfl rfl rfl⟩

/-- The bookkeeping of an export is exact, however it ends. After it no write is pending. Each
attempt that finished has its file's time and its file's link to the texture, each other attempt has
no stamp and the link that it had; all else is unchanged, the files that differ are those to which
paths of attempts lead, and the attempts go to the first of the job's own names, all of which lie
directly in its directory. Only a writer that breaks off keeps later files from being written. -/
theorem exportOn_bookkeeping (workspace : Workspace) (disk : Disk) (codec : Codec)
    (job : ExportJob) (sound : disk.Sound)
    (settled : ∀ path, workspace.registry.stamp? path ≠ some .pending) :
    let run := workspace.exportOn disk codec job
    let names := run.attempts.map fun attempt => attempt.draft.name
    (∀ path, run.workspace.registry.stamp? path ≠ some .pending) ∧
      Accounts job workspace run.workspace run.attempts ∧
      names <+: job.ownNames ∧ job.ownNames.Nodup ∧
      (∀ name ∈ job.ownNames,
        (job.directory.join name).components = job.directory.components ++ [.name name]) ∧
      ((∀ attempt ∈ run.attempts, attempt.ending ≠ .broken) →
        names = (job.plan codec).drafts.map Draft.name ∧
        ∀ pixels, job.container = .png → job.texture.format.isSupported = true →
          codec.decode job.texture = .pixels pixels →
          job.texture.shape.rgba8Size ≤ pixels.length → names = job.texture.sliceNames) ∧
      (job.texture.format.isSupported = false →
        (job.plan codec).asked = false ∧ run = ⟨workspace, true, []⟩) := by
  intro run names
  obtain ⟨start, whole, accounts⟩ := accounts_exportOn sound workspace codec job
  have first : names <+: (job.plan codec).drafts.map Draft.name := by
    have mapped := List.IsPrefix.map Draft.name start
    rwa [List.map_map] at mapped
  refine ⟨accounts.settled settled, accounts, first.trans (job.names_plan codec),
    job.nodup_ownNames, fun name => ExportJob.components_of_mem_ownNames, ?_, ?_⟩
  · intro sound
    have all : names = (job.plan codec).drafts.map Draft.name := by
      have mapped := congrArg (List.map Draft.name) (whole sound)
      rwa [List.map_map] at mapped
    exact ⟨all, fun pixels container supported decoded enough =>
      all.trans (ExportJob.names_plan_of_enough container supported decoded enough)⟩
  · intro unsupported
    have idle : job.plan codec = .ended .complete := by
      rw [ExportJob.plan, unsupported]
      rfl
    refine ⟨by rw [idle]; rfl, ?_⟩
    simp [run, exportOn, idle, ExportPlan.ended, exportDraftsOn]

/-- The first of two layers cannot be written, and the second one is written all the same. -/
theorem exportOn_bookkeeping_layers :
    let codec := Codec.standard Png.stored
    let texture : Texture :=
      ⟨⟨1, 1, 1, 2, 1⟩, .rgba8 .linear, .texture2DArray, [1, 2, 3, 4, 5, 6, 7, 8]⟩
    let job : ExportJob := ⟨⟨7⟩, texture, .ofNames [], .png⟩
    let disk : Disk := fun files path draft =>
      if draft.name = (texture.sliceName 0 0).render then
        (files, .failed (.write path FileFault.nameTooLong.message))
      else Disk.plain files path draft
    let run := (ofFiles (.initial ⟨0⟩)).exportOn disk codec job
    let path (index : Nat) := job.directory.join (texture.sliceName 0 index).render
    run.workspace.registry.stamp? (path 0) = none ∧
      run.workspace.registry.stamp? (path 1) = some (.committed 0) ∧
      (run.attempts.map fun attempt => attempt.draft.name) = texture.sliceNames ∧
      ∀ path, run.workspace.registry.stamp? path ≠ some .pending := by
  intro codec texture job disk
  have sound : disk.Sound := by
    intro files path draft
    by_cases refused : draft.name = (texture.sliceName 0 0).render
    · exact .inl fun _ => by simp only [disk, if_pos refused]
    · simpa only [disk, if_neg refused] using Disk.plain_sound files path draft
  have kept := exportOn_bookkeeping (ofFiles (.initial ⟨0⟩)) disk codec job sound fun _ => nofun
  have endings : (((ofFiles (.initial ⟨0⟩)).exportOn disk codec job).attempts.all
      fun attempt => attempt.ending ≠ .broken) = true := by
    decide +kernel
  have stamps :
      let registry := ((ofFiles (.initial ⟨0⟩)).exportOn disk codec job).workspace.registry
      registry.stamp? (job.directory.join (texture.sliceName 0 0).render) = none ∧
        registry.stamp? (job.directory.join (texture.sliceName 0 1).render) =
          some (.committed 0) := by
    decide +kernel
  have decoded : codec.decode texture = .pixels texture.data := by decide +kernel
  generalize (ofFiles (.initial ⟨0⟩)).exportOn disk codec job = run at kept endings stamps ⊢
  obtain ⟨settled, _, _, _, _, whole, _⟩ := kept
  obtain ⟨_, all⟩ := whole fun attempt member => by
    simpa using List.all_eq_true.mp endings attempt member
  exact ⟨stamps.1, stamps.2, all _ rfl rfl decoded (by decide), settled⟩

end Workspace
end TextureCache
