import TextureCache.Export.Plan
import TextureCache.Proofs.FileName
import TextureCache.Proofs.Path
import TextureCache.Proofs.Png.Scan

/-! A list of directories is searched like their overlay: the directory that has of every name the
file of the first directory that has one. A search sees files only by whether there is one at a path
and by what reading it gives; it is stated here for any such view, so that files that cannot be read
are among them, and the files of a tree are one view. -/
namespace TextureCache

theorem Workspace.importTexture_eq (workspace : Workspace) (files : FileSystem)
    (directories : List Path) (handle : Handle) (texture : Texture) :
    ({ workspace with files } : Workspace).importTexture directories handle texture =
      let (after, outcome) := workspace.importFrom (.ofFiles files) directories handle texture
      ({ after with files }, outcome) := rfl

/-! ## What a search makes of a name -/

def Texture.replacementNames (texture : Texture) : List String :=
  (texture.fileName .dds).render :: texture.sliceNames

private theorem Texture.componentOf_of_mem_replacementNames {texture : Texture} {name : String}
    (member : name ∈ texture.replacementNames) :
    Path.componentOf name = some (.name name) := by
  rcases List.mem_cons.mp member with rfl | slice
  · exact FileName.componentOf_render _
  · obtain ⟨_, _, rfl⟩ := List.mem_map.mp slice
    exact FileName.componentOf_render _

theorem Path.fileName?_join (directory : Path) {name : String}
    (plain : componentOf name = some (.name name)) :
    (directory.join name).fileName? = some name := by
  rw [fileName?, components_join directory plain, List.getLast?_concat]

namespace FileView

/-- What a path leads to: nothing but files counts. -/
def fileAt? (view : FileView) (path : Path) : Option (Except FileFault Bytes) :=
  if view.isFile path then some (view.read path) else none

/-- What the first directory that has a file of a name holds under it. -/
def held? (view : FileView) (directories : List Path) (name : String) :
    Option (Except FileFault Bytes) :=
  directories.findSome? fun directory => view.fileAt? (directory.join name)

private theorem held?_eq (view : FileView) (directories : List Path) (name : String) :
    view.held? directories name = (view.firstMatch? directories name).map view.read := by
  induction directories with
  | nil => rfl
  | cons directory rest ih =>
    unfold held? firstMatch? at *
    rw [List.findSome?_cons, List.map_cons, fileAt?]
    cases found : view.isFile (directory.join name) with
    | true => rw [List.find?_cons_of_pos found, if_pos rfl, Option.map_some]
    | false => rw [List.find?_cons_of_neg (by simp [found]), if_neg nofun, ← ih]

/-- A file is shown by its name, in whichever directory it is. -/
theorem displayName_of_firstMatch? {view : FileView} {directories : List Path} {name : String}
    {path : Path} (plain : Path.componentOf name = some (.name name))
    (found : view.firstMatch? directories name = some path) : path.displayName = name := by
  obtain ⟨directory, _, rfl⟩ := List.mem_map.mp (List.mem_of_find?_eq_some found)
  rw [Path.displayName, Path.fileName?_join directory plain]
  rfl

/-- Two searches find the same under the names of a texture. -/
def Matches (texture : Texture) (view : FileView) (directories : List Path) (other : FileView)
    (others : List Path) : Prop :=
  ∀ name ∈ texture.replacementNames, view.held? directories name = other.held? others name

namespace Matches

variable {texture : Texture} {view other : FileView} {directories others : List Path}

/-- Two such searches come upon no file, or upon files that read the same and are shown the same. -/
theorem firstMatch? (same : Matches texture view directories other others) {name : String}
    (member : name ∈ texture.replacementNames) :
    (view.firstMatch? directories name = none ∧ other.firstMatch? others name = none) ∨
    ∃ path path', view.firstMatch? directories name = some path ∧
      other.firstMatch? others name = some path' ∧ view.read path = other.read path' ∧
      path.displayName = path'.displayName := by
  have plain := Texture.componentOf_of_mem_replacementNames member
  have held := same name member
  rw [held?_eq, held?_eq] at held
  cases found : view.firstMatch? directories name with
  | none =>
    rw [found, Option.map_none] at held
    exact .inl ⟨rfl, Option.map_eq_none_iff.mp held.symm⟩
  | some path =>
    rw [found, Option.map_some] at held
    obtain ⟨path', found', read⟩ := Option.map_eq_some_iff.mp held.symm
    exact .inr ⟨path, path', rfl, found', read.symm,
      (displayName_of_firstMatch? plain found).trans (displayName_of_firstMatch? plain found').symm⟩

theorem dds (same : Matches texture view directories other others) :
    view.dds directories texture = other.dds others texture := by
  unfold FileView.dds
  dsimp only
  rcases same.firstMatch? List.mem_cons_self with
    ⟨none, none'⟩ | ⟨path, path', found, found', read, shown⟩
  · rw [none, none']
  · rw [found, found']
    dsimp only
    rw [read]
    cases other.read path' with
    | error fault =>
      simp only [ImportReport.failed, Failure.logLines, Failure.logMessages, shown]
    | ok file =>
      dsimp only
      cases ImportReport.ofDds texture.format.colorSpace file with
      | error error =>
        simp only [ImportReport.failed, Failure.logLines, Failure.logMessages, shown]
      | ok imported => rfl

theorem addFile {shape : Shape} {scan : PngScan} {level index : Nat} {name : String}
    {path path' : Path} {file : Bytes} (shown : path.displayName = path'.displayName) :
    scan.addFile shape level index name path file =
      scan.addFile shape level index name path' file := by
  simp only [PngScan.addFile, PngScan.addPixels, Failure.logLines, Failure.logMessages, shown]

theorem addSlice (same : Matches texture view directories other others) {slice : Slice}
    (member : slice ∈ texture.shape.slices) (scan : PngScan) :
    view.addSlice directories texture slice.level slice.index scan =
      other.addSlice others texture slice.level slice.index scan := by
  unfold FileView.addSlice
  dsimp only
  rcases same.firstMatch? (List.mem_cons_of_mem _ (List.mem_map_of_mem member)) with
    ⟨none, none'⟩ | ⟨path, path', found, found', read, shown⟩
  · rw [none, none']
  · rw [found, found']
    dsimp only
    rw [read]
    cases other.read path' with
    | error fault => simp only [Failure.logLines, Failure.logMessages, shown]
    | ok file => exact addFile shown

theorem addAll (same : Matches texture view directories other others) {slices : List Slice}
    (inside : slices ⊆ texture.shape.slices) (scan : PngScan) :
    view.addAll directories texture slices scan = other.addAll others texture slices scan := by
  induction slices generalizing scan with
  | nil => rfl
  | cons slice rest ih =>
    obtain ⟨member, others⟩ := List.cons_subset.mp inside
    rw [FileView.addAll, FileView.addAll, same.addSlice member]
    exact congrArg _ (funext (ih others))

theorem png (same : Matches texture view directories other others) :
    view.png directories texture = other.png others texture := by
  unfold FileView.png
  rw [addLevels_eq_slices, addLevels_eq_slices, same.addAll (List.Subset.refl _)]

end Matches

/-- A search in no directory finds nothing, whether or not it is begun. -/
theorem search_eq (view : FileView) (directories : List Path) (texture : Texture) :
    view.search directories texture =
      if texture.format.isSupported = false then .nothing
      else if (view.dds directories texture).outcome = .nothing then
        let dds := view.dds directories texture
        let png := view.png directories texture
        ⟨dds.examined ++ png.examined, dds.lines ++ png.lines, png.outcome⟩
      else view.dds directories texture := by
  unfold search
  by_cases unsupported : texture.format.isSupported = false
  · rw [if_pos (.inl unsupported), if_pos unsupported]
  · by_cases empty : directories = []
    · subst empty
      rw [if_pos (.inr rfl), if_neg unsupported]
      have scanned : view.png [] texture = .nothing := by
        rw [png, addLevels_eq_slices]
        cases texture.shape.slices <;> rfl
      rw [scanned]
      rfl
    · rw [if_neg (not_or.mpr ⟨unsupported, empty⟩), if_neg unsupported]

theorem Matches.search {texture : Texture} {view other : FileView} {directories others : List Path}
    (same : Matches texture view directories other others) :
    view.search directories texture = other.search others texture := by
  rw [search_eq, search_eq, same.dds, same.png]

/-! ## Overlays -/

/-- A directory holds of the names of a texture what the first directory of a list that has a file
of the name holds of it. -/
def Overlays (texture : Texture) (overlay : FileView) (directory : Path) (view : FileView)
    (directories : List Path) : Prop :=
  ∀ name ∈ texture.replacementNames,
    overlay.fileAt? (directory.join name) = view.held? directories name

instance (texture : Texture) (overlay : FileView) (directory : Path) (view : FileView)
    (directories : List Path) : Decidable (Overlays texture overlay directory view directories) :=
  inferInstanceAs (Decidable (∀ name ∈ texture.replacementNames,
    overlay.fileAt? (directory.join name) = view.held? directories name))

theorem Overlays.matches {texture : Texture} {overlay view : FileView} {directory : Path}
    {directories : List Path} (overlays : Overlays texture overlay directory view directories) :
    Matches texture overlay [directory] view directories := by
  intro name member
  rw [← overlays name member, held?, List.findSome?_singleton]

/-- Every directory as the overlay of a list. -/
def overlay (view : FileView) (directories : List Path) : FileView where
  isFile path := (path.fileName?.bind (view.held? directories)).isSome
  read path := (path.fileName?.bind (view.held? directories)).getD (.error .notFound)

private theorem overlays_overlay (texture : Texture) (view : FileView) (directories : List Path)
    (directory : Path) :
    Overlays texture (view.overlay directories) directory view directories := by
  intro name member
  have named := directory.fileName?_join (Texture.componentOf_of_mem_replacementNames member)
  simp only [fileAt?, overlay, named, Option.bind_some]
  cases view.held? directories name <;> rfl

/-- Files of the names of a texture differ at most where an earlier directory of the list has a file
of the same name. -/
def SameInFront (texture : Texture) (view other : FileView) (directories : List Path) : Prop :=
  ∀ name ∈ texture.replacementNames, ∀ before directory after,
    directories = before ++ directory :: after →
    (∀ earlier ∈ before, view.isFile (earlier.join name) = false) →
    view.fileAt? (directory.join name) = other.fileAt? (directory.join name)

theorem SameInFront.matches {texture : Texture} {view other : FileView} {directories : List Path}
    (same : SameInFront texture view other directories) :
    Matches texture view directories other directories := by
  intro name member
  replace same := same name member
  induction directories with
  | nil => rfl
  | cons directory rest ih =>
    have first := same [] directory rest rfl (by simp)
    unfold held? at *
    rw [List.findSome?_cons, List.findSome?_cons, ← first]
    cases entry : view.fileAt? (directory.join name) with
    | some contents => rfl
    | none =>
      refine ih fun before later after split missing => ?_
      refine same (directory :: before) later after (by rw [split]; rfl) fun earlier inside => ?_
      rcases List.mem_cons.mp inside with rfl | further
      · simpa [fileAt?] using entry
      · exact missing earlier further

/-- The replacement that the first DDS file holds, if it can be read and is sound. -/
def ddsHeld? (view : FileView) (directories : List Path) (texture : Texture) :
    Option ImportedTexture := do
  let held ← view.held? directories (texture.fileName .dds).render
  let file ← held.toOption
  (ImportReport.ofDds texture.format.colorSpace file).toOption

private theorem outcome_dds (view : FileView) (directories : List Path) (texture : Texture) :
    (view.dds directories texture).outcome =
      match view.ddsHeld? directories texture with
      | some imported => .replaced imported
      | none => .nothing := by
  unfold dds ddsHeld?
  rw [held?_eq]
  dsimp only
  cases view.firstMatch? directories (texture.fileName .dds).render with
  | none => rfl
  | some path =>
    rw [Option.map_some, Option.bind_eq_bind, Option.bind_some]
    dsimp only
    cases view.read path with
    | error fault => rfl
    | ok file =>
      have held : (Except.ok file : Except FileFault Bytes).toOption = some file := rfl
      rw [held, Option.bind_eq_bind, Option.bind_some]
      dsimp only
      cases ImportReport.ofDds texture.format.colorSpace file <;> rfl

theorem outcome_search {view : FileView} {directories : List Path} {texture : Texture}
    (supported : texture.format.isSupported = true) :
    (view.search directories texture).outcome =
      match view.ddsHeld? directories texture with
      | some imported => .replaced imported
      | none => (view.png directories texture).outcome := by
  rw [search_eq, if_neg (by simp [supported])]
  have dds := view.outcome_dds directories texture
  cases held : view.ddsHeld? directories texture with
  | none =>
    rw [held] at dds
    rw [if_pos dds]
  | some imported =>
    rw [held] at dds
    rw [if_neg (by rw [dds]; nofun)]
    exact dds

end FileView

private theorem Workspace.importFrom_congr {view other : FileView} {directories others : List Path}
    {texture : Texture} (same : FileView.Matches texture view directories other others)
    (workspace : Workspace) (handle : Handle) :
    workspace.importFrom view directories handle texture =
      workspace.importFrom other others handle texture := by
  unfold importFrom
  rw [same.search]

/-- A list of directories is searched like its overlay: outcome, links and log are the same. So what
a directory holds behind the first file of a name never counts, even if that file cannot be read or
is of no use; and PNG files are looked for only without a sound first DDS file. The import that runs
is the one of its files. -/
theorem Workspace.import_overlay (workspace : Workspace) (view : FileView)
    (directories : List Path) (handle : Handle) (texture : Texture) :
    let found := workspace.importFrom view directories handle texture
    (∀ overlay directory, FileView.Overlays texture overlay directory view directories →
      workspace.importFrom overlay [directory] handle texture = found) ∧
    (∀ directory,
      FileView.Overlays texture (view.overlay directories) directory view directories) ∧
    (∀ other, FileView.SameInFront texture view other directories →
      workspace.importFrom other directories handle texture = found) ∧
    (texture.format.isSupported = true →
      found.2 = match view.ddsHeld? directories texture with
        | some imported => .replaced imported
        | none => (view.png directories texture).outcome) ∧
    (∀ files searched,
      ({ workspace with files } : Workspace).importTexture searched handle texture =
        let (after, outcome) := workspace.importFrom (.ofFiles files) searched handle texture
        ({ after with files }, outcome)) :=
  ⟨fun _ _ overlays => workspace.importFrom_congr overlays.matches handle,
    view.overlays_overlay texture directories,
    fun _ same => (workspace.importFrom_congr same.matches handle).symm,
    FileView.outcome_search,
    fun files searched => workspace.importTexture_eq files searched handle texture⟩

/-- The slices of a texture are in different directories. A DDS file that is of no use stands before
a sound one, and a sound slice before one that is of no use. -/
theorem Workspace.import_overlay_layers :
    let texels := [1, 2, 3, 4, 5, 6, 7, 8]
    let texture : Texture := ⟨⟨1, 1, 1, 2, 1⟩, .rgba8 .linear, .texture2DArray, texels⟩
    let dds := (texture.fileName .dds).render
    let slice (index : Nat) := (texture.sliceName 0 index).render
    let sound := (Dds.save (ExportJob.ddsInfo texture .rgba8 .flatArray) texels).toOption.getD []
    let png (pixels : Bytes) := (Png.save Png.stored 1 1 pixels).toOption.getD []
    let tree (entries : List (Location × Node)) : FileSystem :=
      entries.foldl (fun files entry => files.setNode entry.1 entry.2) (.initial ⟨0⟩)
    let file (contents : Bytes) : Node := .file contents ⟨0⟩
    let files := tree [(["a"], .directory ⟨0⟩), (["b"], .directory ⟨0⟩), (["a", dds], file [1]),
      (["b", dds], file sound), (["a", slice 1], file (png [5, 6, 7, 8])),
      (["b", slice 1], file [9]), (["b", slice 0], file (png [1, 2, 3, 4]))]
    let merged := tree [(["o"], .directory ⟨0⟩), (["o", dds], file [1]),
      (["o", slice 0], file (png [1, 2, 3, 4])), (["o", slice 1], file (png [5, 6, 7, 8]))]
    let run := (ofFiles files).importTexture [.ofNames ["a"], .ofNames ["b"]] ⟨7⟩ texture
    let overlaid := (ofFiles merged).importTexture [.ofNames ["o"]] ⟨7⟩ texture
    run.2 = .replaced ⟨1, 1, 2, 1, .rgba8 .linear, texels⟩ ∧
      overlaid = ({ run.1 with files := merged }, run.2) := by
  intro texels texture dds slice sound png tree file files merged run overlaid
  have whole : run.2 = .replaced ⟨1, 1, 2, 1, .rgba8 .linear, texels⟩ := by decide +kernel
  have overlays : FileView.Overlays texture (.ofFiles merged) (.ofNames ["o"]) (.ofFiles files)
      [.ofNames ["a"], .ofNames ["b"]] := by decide +kernel
  refine ⟨whole, ?_⟩
  clear_value texture files merged
  obtain ⟨overlaying, _, _, _, runs⟩ := import_overlay (ofFiles files) (.ofFiles files)
    [.ofNames ["a"], .ofNames ["b"]] ⟨7⟩ texture
  have first : run = _ := runs files [.ofNames ["a"], .ofNames ["b"]]
  have second : overlaid = _ := runs merged [.ofNames ["o"]]
  rw [overlaying _ _ overlays] at second
  generalize (ofFiles files).importFrom _ _ _ _ = found at first second
  obtain ⟨after, outcome⟩ := found
  rw [second, first]

end TextureCache
