import TextureCache.Proofs.Export.Bookkeeping
import TextureCache.Proofs.Import.Overlay
import TextureCache.Proofs.Png.Search
import TextureCache.Reload

/-! Which files an import links to its texture: those that it looks into, whether or not they are of
use, and no others. These are the first DDS file, and unless that holds a replacement, the files of
the slices up to the first one that is not usable. So a file that was of no use is imported again
once it is mended. Where the buffer of the slices would be too large, the import breaks off at the
first one, and the others are not linked. -/
namespace TextureCache

namespace Registry

variable (registry : Registry) (names : List String) (handle : Handle)

private theorem stamps_foldl_associate :
    (names.foldl (fun registry name => registry.associate name handle) registry).stamps =
      registry.stamps := by
  induction names generalizing registry with
  | nil => rfl
  | cons first rest ih => exact ih (registry.associate first handle)

private theorem association?_foldl_associate (name : String) :
    (names.foldl (fun registry name => registry.associate name handle) registry).association? name =
      if name ∈ names then some handle else registry.association? name := by
  induction names generalizing registry with
  | nil => rfl
  | cons first rest ih =>
    rw [List.foldl_cons, ih, association?_associate]
    by_cases later : name ∈ rest
    · rw [if_pos later, if_pos (List.mem_cons_of_mem _ later)]
    · rw [if_neg later]
      exact if_congr (by simp [later]) rfl rfl

end Registry

/-- A search comes to a slice when all slices before it are usable. -/
def ComesTo (usable : Slice → Prop) (slices : List Slice) (slice : Slice) : Prop :=
  ∃ before after, slices = before ++ slice :: after ∧ ∀ earlier ∈ before, usable earlier

private theorem comesTo_cons_iff {usable : Slice → Prop} {first slice : Slice} {rest : List Slice} :
    ComesTo usable (first :: rest) slice ↔
      slice = first ∨ usable first ∧ ComesTo usable rest slice := by
  constructor
  · rintro ⟨before, after, split, each⟩
    cases before with
    | nil =>
      cases split
      exact .inl rfl
    | cons head before =>
      cases split
      obtain ⟨own, others⟩ := List.forall_mem_cons.mp each
      exact .inr ⟨own, before, after, rfl, others⟩
  · rintro (rfl | ⟨own, before, after, rfl, others⟩)
    · exact ⟨[], rest, rfl, nofun⟩
    · exact ⟨first :: before, after, rfl, List.forall_mem_cons.mpr ⟨own, others⟩⟩

namespace FileView

variable (view : FileView) (directories : List Path) (texture : Texture)

/-- Some directory has a file of a name. -/
def Holds (name : String) : Prop := ∃ directory ∈ directories, view.isFile (directory.join name)

/-- A slice is usable, given the extents that the first slice tells. -/
def Usable (slice : Slice) : Prop :=
  ∃ first width height, texture.shape.slices.head? = some first ∧
    view.extents? directories texture first = some (width, height) ∧
    (view.usable? directories texture width height slice).isSome

/-- The names of the files that an import has to look into. -/
inductive LooksInto : String → Prop
  | dds (held : view.Holds directories (texture.fileName .dds).render) :
    LooksInto (texture.fileName .dds).render
  /-- Without a replacement from a DDS file, a slice to which the search comes, if it is there. -/
  | slice {slice : Slice} (without : (view.dds directories texture).outcome = .nothing)
    (reached : ComesTo (view.Usable directories texture) texture.shape.slices slice)
    (held : view.Holds directories (texture.nameOf slice)) : LooksInto (texture.nameOf slice)

/-- Without a replacement from a DDS file, the buffer of the slices would be too large. -/
def Overflows : Prop :=
  (view.dds directories texture).outcome = .nothing ∧ view.Exceeds directories texture

/-- The names of the files that an import links: those that it has to look into, and of the slices
only the first one where their buffer would be too large. -/
def Links (name : String) : Prop :=
  view.LooksInto directories texture name ∧
    (view.Overflows directories texture → name = (texture.fileName .dds).render ∨
      ∃ first, texture.shape.slices.head? = some first ∧ name = texture.nameOf first)

variable {view directories texture} {slice first : Slice} {rest : List Slice}
  {width height : UInt32} {name : String}

private theorem firstMatch?_eq_none_iff :
    view.firstMatch? directories name = none ↔ ¬ view.Holds directories name := by
  simp [firstMatch?, Holds]

private theorem mem_namesAt_iff :
    name ∈ view.namesAt directories texture slice ↔
      view.Holds directories (texture.nameOf slice) ∧ name = texture.nameOf slice := by
  unfold namesAt
  cases found : view.firstMatch? directories (texture.nameOf slice) with
  | none => simp [firstMatch?_eq_none_iff.mp found]
  | some path =>
    have held : view.Holds directories (texture.nameOf slice) := by
      by_contra missing
      cases found.symm.trans (firstMatch?_eq_none_iff.mpr missing)
    simp [held]

private theorem comesTo_iff_mem_take {slices : List Slice} :
    ComesTo (fun slice => (view.usable? directories texture width height slice).isSome) slices
        slice ↔
      slice ∈ slices.take
        ((view.usablePrefix directories texture width height slices).length + 1) := by
  induction slices with
  | nil => simp [ComesTo]
  | cons first rest ih =>
    rw [comesTo_cons_iff, List.take_succ_cons, List.mem_cons, ih]
    cases usable : view.usable? directories texture width height first with
    | none => simp [usablePrefix_cons_of_unusable rest usable]
    | some pixels => simp [usablePrefix_cons_of_usable rest usable]

private theorem mem_namesUpTo_iff {slices : List Slice} :
    name ∈ view.namesUpTo directories texture width height slices ↔ ∃ slice,
      ComesTo (fun slice => (view.usable? directories texture width height slice).isSome) slices
        slice ∧ view.Holds directories (texture.nameOf slice) ∧ name = texture.nameOf slice := by
  unfold namesUpTo
  simp only [List.mem_flatMap, mem_namesAt_iff, comesTo_iff_mem_take]

/-- Given the extents that the first slice tells, the slices that fit them are usable. -/
theorem usable_eq (slices : texture.shape.slices = first :: rest)
    (extents : view.extents? directories texture first = some (width, height)) :
    view.Usable directories texture =
      fun slice => ((view.usable? directories texture width height slice).isSome : Prop) := by
  funext slice
  refine propext ⟨?_, fun usable => ⟨first, width, height, by rw [slices]; rfl, extents, usable⟩⟩
  rintro ⟨other, wide, high, same, again, usable⟩
  rw [slices] at same
  cases same
  cases extents.symm.trans again
  exact usable

/-- A search for slices looks into the files of those to which it comes through usable ones. -/
theorem mem_examined_png_iff (small : ¬ view.Exceeds directories texture) :
    name ∈ (view.png directories texture).examined ↔ ∃ slice,
      ComesTo (view.Usable directories texture) texture.shape.slices slice ∧
        view.Holds directories (texture.nameOf slice) ∧ name = texture.nameOf slice := by
  cases slices : texture.shape.slices with
  | nil => simp [png_of_empty slices, ImportReport.nothing, ComesTo]
  | cons first rest =>
    have head : texture.shape.slices.head? = some first := by rw [slices, List.head?_cons]
    cases extents : view.extents? directories texture first with
    | none =>
      have unusable (slice : Slice) : ¬ view.Usable directories texture slice := by
        rintro ⟨other, wide, high, same, told, _⟩
        cases head.symm.trans same
        cases extents.symm.trans told
      rw [(png_of_headless slices extents).2, mem_namesAt_iff]
      simp [comesTo_cons_iff, unusable]
    | some told =>
      obtain ⟨width, height⟩ := told
      have fits : (texture.shape.resized width height).rgba8Size ≤ bufferLimit :=
        Nat.le_of_not_lt fun large => small ⟨first, width, height, head, extents, large⟩
      rw [(png_of_fits slices extents fits).1, mem_namesUpTo_iff, usable_eq slices extents, slices]

/-- Where the buffer would be too large, a search looks into the file of the first slice only. -/
theorem png_of_exceeds (large : view.Exceeds directories texture) :
    ∃ first, texture.shape.slices.head? = some first ∧
      view.Holds directories (texture.nameOf first) ∧
      view.png directories texture = ⟨[texture.nameOf first], [], .broken .capacity⟩ := by
  obtain ⟨first, width, height, head, extents, large⟩ := large
  obtain ⟨rest, slices⟩ := List.head?_eq_some_iff.mp head
  obtain ⟨path, _, _, found, _⟩ := exists_of_extents? extents
  refine ⟨first, head, ?_, png_of_large slices extents large⟩
  by_contra missing
  cases found.symm.trans (firstMatch?_eq_none_iff.mpr missing)

private theorem mem_examined_dds_iff (view : FileView) (directories : List Path)
    (texture : Texture) :
    name ∈ (view.dds directories texture).examined ↔
      view.Holds directories (texture.fileName .dds).render ∧
        name = (texture.fileName .dds).render := by
  unfold dds
  dsimp only
  cases first : view.firstMatch? directories (texture.fileName .dds).render with
  | none =>
    have missing := firstMatch?_eq_none_iff.mp first
    simp [missing, ImportReport.nothing]
  | some path =>
    have held : view.Holds directories (texture.fileName .dds).render := by
      by_contra missing
      cases first.symm.trans (firstMatch?_eq_none_iff.mpr missing)
    dsimp only
    split
    · simp [held, ImportReport.failed]
    · split <;> simp [held, ImportReport.failed]

theorem LooksInto.holds (looks : view.LooksInto directories texture name) :
    view.Holds directories name := by
  cases looks with
  | dds held => exact held
  | slice without reached held => exact held

theorem LooksInto.componentOf (looks : view.LooksInto directories texture name) :
    Path.componentOf name = some (.name name) := by
  cases looks <;> exact FileName.componentOf_render _

private theorem looksInto_of_stored (replaced : (view.dds directories texture).outcome ≠ .nothing) :
    view.LooksInto directories texture name ↔
      view.Holds directories (texture.fileName .dds).render ∧
        name = (texture.fileName .dds).render := by
  constructor
  · rintro (held | ⟨without, _⟩)
    · exact ⟨held, rfl⟩
    · exact absurd without replaced
  · rintro ⟨held, rfl⟩
    exact .dds held

/-- An import of a texture in a supported format looks into these files and no others. -/
theorem mem_examined_search_iff (supported : texture.format.isSupported = true) :
    name ∈ (view.search directories texture).examined ↔ view.Links directories texture name := by
  rw [search_eq, if_neg (by simp [supported]), Links]
  split
  · rename_i without
    rw [List.mem_append, mem_examined_dds_iff]
    by_cases large : view.Exceeds directories texture
    · obtain ⟨first, head, held, report⟩ := png_of_exceeds large
      obtain ⟨rest, slices⟩ := List.head?_eq_some_iff.mp head
      rw [report, List.mem_singleton]
      constructor
      · rintro (⟨held, rfl⟩ | rfl)
        · exact ⟨.dds held, fun _ => .inl rfl⟩
        · exact ⟨.slice without ⟨[], rest, slices, nofun⟩ held, fun _ => .inr ⟨first, head, rfl⟩⟩
      · rintro ⟨looks, only⟩
        rcases only ⟨without, large⟩ with rfl | ⟨other, again, rfl⟩
        · exact .inl ⟨looks.holds, rfl⟩
        · cases head.symm.trans again
          exact .inr rfl
    · rw [mem_examined_png_iff large]
      constructor
      · rintro (⟨held, rfl⟩ | ⟨slice, reached, held, rfl⟩)
        · exact ⟨.dds held, fun overflows => absurd overflows.2 large⟩
        · exact ⟨.slice without reached held, fun overflows => absurd overflows.2 large⟩
      · rintro ⟨held | ⟨_, reached, held⟩, _⟩
        · exact .inl ⟨held, rfl⟩
        · exact .inr ⟨_, reached, held, rfl⟩
  · rename_i replaced
    rw [mem_examined_dds_iff, looksInto_of_stored replaced]
    exact (and_iff_left fun overflows => absurd overflows.1 replaced).symm

private theorem outcome_search_of_overflows (supported : texture.format.isSupported = true)
    (overflows : view.Overflows directories texture) :
    (view.search directories texture).outcome = .broken .capacity := by
  obtain ⟨first, _, _, report⟩ := png_of_exceeds overflows.2
  rw [search_eq, if_neg (by simp [supported]), if_pos overflows.1, report]

end FileView

/-- A change to a readable file of a texture to which we have not written has the texture imported
again. -/
theorem ReloadPolicy.handleChange_of_unstamped {policy : ReloadPolicy} {files : FileSystem}
    {registry : Registry} {path : Path} {name : String} {handle : Handle}
    (named : path.fileName? = some name) (linked : registry.association? name = some handle)
    (unstamped : registry.stamp? path = none)
    (readable : files.isReadable policy.attempts path = true) :
    policy.handleChange files registry path = .reloaded handle := by
  have tracked : registry.isTracked name = true := by
    rw [Registry.isTracked, linked, Option.isSome_some]
  have foreign (modified : Int) : registry.isSelfWrite path modified policy.guard = false := by
    rw [Registry.isSelfWrite, unstamped]
  simp [handleChange, named, tracked, foreign, readable, linked]

namespace Workspace

/-- An import of a texture in a supported format leaves all files and all stamps as they are. It
links to the texture the files that it has to look into and no others, unless the buffer of the
slices would be too large: then it breaks off, with no slice linked but the first one. A file that
it has linked has the texture imported again as soon as its contents can be read, in whichever
directory it is, unless we have written to it. -/
theorem import_tracks (workspace : Workspace) (view : FileView) (directories : List Path)
    (handle : Handle) (texture : Texture) (supported : texture.format.isSupported = true) :
    let after := (workspace.importFrom view directories handle texture).1
    let outcome := (workspace.importFrom view directories handle texture).2
    after.files = workspace.files ∧ after.registry.stamps = workspace.registry.stamps ∧
    (∀ name, view.Links directories texture name →
      after.registry.association? name = some handle) ∧
    (∀ name, ¬ view.Links directories texture name →
      after.registry.association? name = workspace.registry.association? name) ∧
    (¬ view.Overflows directories texture → ∀ name,
      view.Links directories texture name ↔ view.LooksInto directories texture name) ∧
    (view.Overflows directories texture → outcome = .broken .capacity) ∧
    (∀ name, view.Links directories texture name →
      ∀ (directory : Path) (later : FileSystem) (contents : Bytes) (policy : ReloadPolicy),
        later.read (directory.join name) = .ok contents →
        after.registry.stamp? (directory.join name) = none → 0 < policy.attempts →
        policy.handleChange later after.registry (directory.join name) = .reloaded handle) ∧
    (∀ files, ({ workspace with files } : Workspace).importTexture directories handle texture =
      let (after, outcome) := workspace.importFrom (.ofFiles files) directories handle texture
      ({ after with files }, outcome)) := by
  intro after outcome
  have linked (name : String) : after.registry.association? name =
      if name ∈ (view.search directories texture).examined then some handle
      else workspace.registry.association? name :=
    workspace.registry.association?_foldl_associate _ handle name
  have examined (name : String) : name ∈ (view.search directories texture).examined ↔
      view.Links directories texture name :=
    FileView.mem_examined_search_iff supported
  have tracked (name : String) (links : view.Links directories texture name) :
      after.registry.association? name = some handle :=
    (linked name).trans (if_pos ((examined name).mpr links))
  refine ⟨rfl, workspace.registry.stamps_foldl_associate _ handle, tracked, fun name none =>
    (linked name).trans (if_neg (mt (examined name).mp none)), fun small name =>
    and_iff_left fun overflows => absurd overflows small,
    FileView.outcome_search_of_overflows supported, ?_, fun files =>
    workspace.importTexture_eq files directories handle texture⟩
  intro name links directory later contents policy read unstamped attempts
  refine ReloadPolicy.handleChange_of_unstamped (directory.fileName?_join links.1.componentOf)
    (tracked name links) unstamped ?_
  rw [FileSystem.isReadable, read, Bool.and_true, decide_eq_true attempts]

/-- The DDS file of a texture and the file of its second layer are of no use. Both are linked, and
the third layer is not; once the second one is mended, the texture is imported again. -/
theorem import_tracks_layers :
    let texture : Texture := ⟨⟨1, 1, 1, 3, 1⟩, .rgba8 .linear, .texture2DArray, []⟩
    let layer (index : Nat) := texture.nameOf ⟨0, index, 1, 1⟩
    let png := (Png.save Png.stored 1 1 [1, 2, 3, 4]).toOption.getD []
    let tree (entries : List (String × Bytes)) : FileSystem := entries.foldl
      (fun files entry => files.setNode ["a", entry.1] (.file entry.2 ⟨0⟩))
      ((FileSystem.initial ⟨0⟩).setNode ["a"] (.directory ⟨0⟩))
    let files := tree [((texture.fileName .dds).render, [1]), (layer 0, png), (layer 1, [9]),
      (layer 2, png)]
    let mended := tree [(layer 1, png)]
    let run := (ofFiles files).importTexture [.ofNames ["a"]] ⟨7⟩ texture
    run.1.registry.association? (texture.fileName .dds).render = some ⟨7⟩ ∧
      run.1.registry.association? (layer 1) = some ⟨7⟩ ∧
      run.1.registry.association? (layer 2) = none ∧
      ReloadPolicy.handleChange ⟨5, 1⟩ mended run.1.registry (.ofNames ["a", layer 1]) =
        .reloaded ⟨7⟩ := by
  intro texture layer png tree files mended run
  let view := FileView.ofFiles files
  let directory := Path.ofNames ["a"]
  have extents : view.extents? [directory] texture ⟨0, 0, 1, 1⟩ = some (1, 1) := by decide +kernel
  have pixels : view.usable? [directory] texture 1 1 ⟨0, 0, 1, 1⟩ = some [1, 2, 3, 4] := by
    decide +kernel
  have slices : texture.shape.slices = [⟨0, 0, 1, 1⟩] ++ ⟨0, 1, 1, 1⟩ :: [⟨0, 2, 1, 1⟩] := by
    decide
  have size : (texture.shape.resized 1 1).rgba8Size ≤ bufferLimit := by decide
  have without : (view.dds [directory] texture).outcome = .nothing := by decide +kernel
  have dds : view.isFile (directory.join (texture.fileName .dds).render) = true := by
    decide +kernel
  have damaged : view.isFile (directory.join (layer 1)) = true := by decide +kernel
  have third : run.1.registry.association? (layer 2) = none := by decide +kernel
  have read : mended.read (directory.join (layer 1)) = .ok png := by decide +kernel
  have path : Path.ofNames ["a", layer 1] = directory.join (layer 1) := by decide +kernel
  have supported : texture.format.isSupported = true := by decide
  clear_value texture png files mended
  have small : ¬ view.Overflows [directory] texture := by
    rintro ⟨_, first, width, height, head, told, large⟩
    rw [slices] at head
    cases head
    cases extents.symm.trans told
    exact absurd size (Nat.not_le.mpr large)
  have usable : view.Usable [directory] texture ⟨0, 0, 1, 1⟩ :=
    ⟨⟨0, 0, 1, 1⟩, 1, 1, by rw [slices]; rfl, extents, by rw [pixels]; rfl⟩
  have reached : ComesTo (view.Usable [directory] texture) texture.shape.slices ⟨0, 1, 1, 1⟩ :=
    ⟨_, _, slices, by simpa using usable⟩
  obtain ⟨_, stamps, tracked, _, exactly, _, reloaded, runs⟩ :=
    (ofFiles files).import_tracks view [directory] ⟨7⟩ texture supported
  have first : view.Links [directory] texture (texture.fileName .dds).render :=
    (exactly small _).mpr (.dds ⟨directory, List.mem_cons_self, dds⟩)
  have second : view.Links [directory] texture (texture.nameOf ⟨0, 1, 1, 1⟩) :=
    (exactly small _).mpr (.slice without reached ⟨directory, List.mem_cons_self, damaged⟩)
  have same : run.1.registry =
      ((ofFiles files).importFrom view [directory] ⟨7⟩ texture).1.registry :=
    congrArg (·.1.registry) (runs files)
  rw [path, same]
  rw [same] at third
  refine ⟨tracked _ first, tracked _ second, third,
    reloaded _ second _ mended png ⟨5, 1⟩ read ?_ (by decide)⟩
  rw [Registry.stamp?, stamps]
  rfl

/-- A texture of one texel claims so many layers and levels that no buffer holds them. Its first two
slices are sound; the import breaks off at the first one, and the second one is not linked. -/
theorem import_tracks_overflow :
    let texture : Texture :=
      ⟨⟨1, 1, 1, 4294967295, 536870913⟩, .rgba8 .linear, .texture2DArray, []⟩
    let layer (index : Nat) := texture.nameOf ⟨0, index, 1, 1⟩
    let png := (Png.save Png.stored 1 1 [1, 2, 3, 4]).toOption.getD []
    let files := ((FileSystem.initial ⟨0⟩).setNode [layer 0] (.file png ⟨0⟩)).setNode [layer 1]
      (.file png ⟨0⟩)
    let view := FileView.ofFiles files
    let directories := [Path.ofNames []]
    let run := (ofFiles files).importTexture directories ⟨7⟩ texture
    texture.format.isSupported = true ∧ view.LooksInto directories texture (layer 1) ∧
      run.2 = .broken .capacity ∧ run.1.registry.association? (layer 0) = some ⟨7⟩ ∧
      run.1.registry.association? (layer 1) = none := by
  intro texture layer png files view directories run
  have extents : view.extents? directories texture ⟨0, 0, 1, 1⟩ = some (1, 1) := by decide +kernel
  have pixels : view.usable? directories texture 1 1 ⟨0, 0, 1, 1⟩ = some [1, 2, 3, 4] := by
    decide +kernel
  have without : (view.dds directories texture).outcome = .nothing := by decide +kernel
  have held : view.isFile ((Path.ofNames []).join (layer 1)) = true := by decide +kernel
  obtain ⟨after, slices⟩ : ∃ after, texture.shape.slices =
      texture.shape.slicesBefore 0 1 ++ texture.shape.sliceAt 0 1 :: after :=
    Shape.slices_eq_before (by decide) (by decide)
  change texture.shape.slices = [⟨0, 0, 1, 1⟩] ++ ⟨0, 1, 1, 1⟩ :: after at slices
  have usable : view.Usable directories texture ⟨0, 0, 1, 1⟩ :=
    ⟨⟨0, 0, 1, 1⟩, 1, 1, by rw [slices]; rfl, extents, by rw [pixels]; rfl⟩
  have reached : ComesTo (view.Usable directories texture) texture.shape.slices ⟨0, 1, 1, 1⟩ :=
    ⟨_, _, slices, by simpa using usable⟩
  refine ⟨rfl, .slice without reached ⟨_, List.mem_cons_self, held⟩, ?_⟩
  decide +kernel

end Workspace
end TextureCache
