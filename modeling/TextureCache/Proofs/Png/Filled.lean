import TextureCache.Proofs.Buffer
import TextureCache.Proofs.Layout.Size
import TextureCache.Proofs.Png.Prefix
import TextureCache.Proofs.Png.Scan

/-! What the state of a search for slices says about the slices that it has taken. Their pixels fill
the start of the buffer, behind them is room for all further slices, and the counters tell how many
of them are in the top level, how many levels they complete, and how many bytes these take. Taking
the next slice keeps all of this, so that no range ever leaves the buffer. -/
namespace TextureCache

namespace PngScan

/-- The bytes that some slices take with the extents that a first slice predicts. -/
def room (width height : UInt32) (slices : List Slice) : Nat :=
  (slices.map fun slice => rgba8SliceSize (mipExtent width.toNat slice.level)
    (mipExtent height.toNat slice.level)).sum

theorem room_cons (width height : UInt32) (slice : Slice) (further : List Slice) :
    room width height (slice :: further) =
      rgba8SliceSize (mipExtent width.toNat slice.level) (mipExtent height.toNat slice.level) +
        room width height further := by
  rw [room, List.map_cons, List.sum_cons]
  rfl

/-- All slices of a texture fill the buffer of its shape with the extents of the first slice. -/
theorem room_slices (shape : Shape) (width height : UInt32) :
    room width height shape.slices = (shape.resized width height).rgba8Size := by
  rw [Shape.rgba8Size_eq_sum]
  unfold room Shape.slices Shape.mipChain
  rw [List.flatMap_map, List.flatMap_map, List.map_flatMap, List.map_flatMap]
  simp only [List.map_map]
  rfl

/-- A search has taken some slices, the first ones of a shape, each with its pixels. -/
structure Filled (shape : Shape) (width height : UInt32) (found : List (Slice × Bytes))
    (scan : PngScan) : Prop where
  base : scan.base = some (width, height)
  buffer : scan.buffer.contents = found.flatMap Prod.snd ++
    Bytes.zeros (room width height (shape.slices.drop found.length))
  written : scan.written = (found.flatMap Prod.snd).length
  baseSlices : scan.baseSlices = UInt32.ofNat (min found.length (shape.slicesAt 0))
  completeLevels :
    scan.completeLevels = UInt32.ofNat (shape.levelsWithin (found.map Prod.fst)).length
  completeSize : ∀ levels, (shape.levelsWithin (found.map Prod.fst)).length = levels →
    scan.completeSize = ((found.filter (·.1.level < levels)).flatMap Prod.snd).length

variable {shape : Shape} {width height : UInt32} {found : List (Slice × Bytes)} {scan : PngScan}
  {slice : Slice} {further : List Slice}

private theorem Filled.note (filled : Filled shape width height found scan) (examined : List String)
    (lines : List LogLine) :
    Filled shape width height found { scan with examined, lines } :=
  ⟨filled.base, filled.buffer, filled.written, filled.baseSlices, filled.completeLevels,
    filled.completeSize⟩

/-- A search that knows the extents of the first slice, and has not taken it yet. -/
def opened (shape : Shape) (width height : UInt32) : PngScan :=
  { start with
    base := some (width, height)
    buffer := .zeros (shape.resized width height).bufferSize }

theorem filled_opened (width height : UInt32) (member : slice ∈ shape.slices) :
    Filled shape width height [] (opened shape width height) := by
  have none := Shape.length_levelsWithin_nil member
  refine ⟨rfl, ?_, rfl, ?_, ?_, fun _ _ => rfl⟩
  · rw [opened, Buffer.contents_zeros, Shape.bufferSize_eq, ← room_slices]
    rfl
  · rw [List.length_nil, Nat.zero_min]
    rfl
  · rw [List.map_nil, none]
    rfl

section Next

variable (split : shape.slices = found.map Prod.fst ++ slice :: further)
include split

private theorem drop_found : shape.slices.drop found.length = slice :: further := by
  rw [split, ← List.length_map (f := Prod.fst), List.drop_left]

private theorem map_fst_taken (pixels : Bytes) : (found ++ [(slice, pixels)]).map Prod.fst =
    shape.slicesBefore slice.level (slice.index + 1) := by
  obtain ⟨_, _, before⟩ := Shape.before_eq_slicesBefore split
  have member : slice ∈ shape.slices := by simp [split]
  rw [Shape.slicesBefore_succ, ← Shape.eq_sliceAt_of_mem member, ← before, List.map_append]
  rfl

/-- The levels before that of the next slice are complete, and no others. -/
private theorem length_levelsWithin_found :
    (shape.levelsWithin (found.map Prod.fst)).length = slice.level := by
  obtain ⟨inChain, inLevel, before⟩ := Shape.before_eq_slicesBefore split
  have slices := Shape.filled_of_mem (split ▸ List.mem_append_right _ List.mem_cons_self)
  rw [before, Shape.length_levelsWithin slices inChain, if_neg (Nat.not_le.mpr inLevel)]

/-- Only its own level can become complete with the next slice. -/
private theorem length_levelsWithin_taken (pixels : Bytes) :
    (shape.levelsWithin ((found ++ [(slice, pixels)]).map Prod.fst)).length =
      if decide (slice.index + 1 = shape.slicesAt slice.level) then slice.level + 1
      else slice.level := by
  obtain ⟨inChain, inLevel, _⟩ := Shape.before_eq_slicesBefore split
  have slices := Shape.filled_of_mem (split ▸ List.mem_append_right _ List.mem_cons_self)
  rw [map_fst_taken split, Shape.length_levelsWithin slices inChain]
  exact if_congr (by simp; omega) rfl rfl

/-- Only a slice of the top level adds to those of the top level. -/
private theorem min_length_taken : min (found.length + 1) (shape.slicesAt 0) =
    if slice.level = 0 then slice.index + 1 else min found.length (shape.slicesAt 0) := by
  obtain ⟨_, inLevel, before⟩ := Shape.before_eq_slicesBefore split
  have count : found.length = (shape.slicesBefore slice.level slice.index).length := by
    rw [← before, List.length_map]
  split
  · rename_i top
    rw [top, Shape.length_slicesBefore_zero] at count
    rw [top] at inLevel
    rw [count, Nat.min_eq_left inLevel]
  · rename_i below
    have full := shape.slicesAt_zero_le_length (Nat.pos_of_ne_zero below) slice.index
    rw [← count] at full
    rw [Nat.min_eq_right full, Nat.min_eq_right (Nat.le_succ_of_le full)]

theorem Filled.fits (filled : Filled shape width height found scan) :
    scan.written +
      rgba8SliceSize (mipExtent width.toNat slice.level) (mipExtent height.toNat slice.level) ≤
        scan.buffer.size := by
  rw [← Buffer.length_contents, filled.buffer, filled.written, drop_found split, room_cons,
    List.length_append, Bytes.length_zeros]
  omega

end Next

theorem Filled.toNat_baseSlices (filled : Filled shape width height found scan) :
    scan.baseSlices.toNat = min found.length (shape.slicesAt 0) := by
  rw [filled.baseSlices]
  exact UInt32.toNat_ofNat_of_lt'
    (Nat.lt_of_le_of_lt (Nat.min_le_right _ _) (shape.slicesAt_lt 0))

theorem Filled.toNat_completeLevels (filled : Filled shape width height found scan) :
    scan.completeLevels.toNat = (shape.levelsWithin (found.map Prod.fst)).length := by
  rw [filled.completeLevels]
  exact UInt32.toNat_ofNat_of_lt'
    (Nat.lt_of_le_of_lt (shape.length_levelsWithin_le _) shape.levels.toNat_lt)

/-- The pixels of the first slices stand at the start of the buffer. -/
theorem Filled.take_buffer {whole others : List (Slice × Bytes)}
    (filled : Filled shape width height (whole ++ others) scan) :
    scan.buffer.take (whole.flatMap Prod.snd).length = whole.flatMap Prod.snd := by
  rw [Buffer.take_eq, filled.buffer, List.flatMap_append, List.append_assoc, List.take_left]

theorem Filled.count {buffer : Buffer} {pixels : Bytes}
    (filled : Filled shape width height found scan)
    (split : shape.slices = found.map Prod.fst ++ slice :: further)
    (length : pixels.length =
      rgba8SliceSize (mipExtent width.toNat slice.level) (mipExtent height.toNat slice.level))
    (contents : buffer.contents = scan.buffer.contents.overwrite scan.written pixels) :
    Filled shape width height (found ++ [(slice, pixels)])
      (({ scan with buffer, written := scan.written + pixels.length } : PngScan).count shape
        slice.level slice.index) := by
  have all : (found ++ [(slice, pixels)]).flatMap Prod.snd = found.flatMap Prod.snd ++ pixels := by
    rw [List.flatMap_append, List.flatMap_singleton]
  have behind : shape.slices.drop (found ++ [(slice, pixels)]).length = further := by
    rw [List.length_append, ← List.drop_drop, drop_found split]
    rfl
  refine ⟨filled.base, ?_, ?_, ?_, ?_, ?_⟩
  · have rest : (Bytes.zeros (room width height (slice :: further))).drop pixels.length =
        Bytes.zeros (room width height further) := by
      rw [room_cons, ← length, Bytes.drop_zeros, Nat.add_sub_cancel_left]
    change buffer.contents = _
    rw [contents, filled.buffer, filled.written, drop_found split, behind, all]
    unfold Bytes.overwrite
    rw [List.take_left, List.drop_length_add_append, rest]
  · rw [all, List.length_append, ← filled.written]
    rfl
  · rw [List.length_append, List.length_singleton, min_length_taken split, apply_ite UInt32.ofNat,
      ← filled.baseSlices]
    rfl
  · have counted := filled.completeLevels
    rw [length_levelsWithin_found split] at counted
    rw [length_levelsWithin_taken split, apply_ite UInt32.ofNat, UInt32.ofNat_add, ← counted]
    rfl
  · intro levels same
    have counted := filled.completeSize _ (length_levelsWithin_found split)
    change (if decide _ then scan.written + pixels.length else scan.completeSize) = _
    rw [length_levelsWithin_taken split] at same
    split at same <;> subst same
    · rename_i last
      rw [if_pos last, List.filter_eq_self.mpr, all, List.length_append, ← filled.written]
      intro pair inside
      have early := Shape.level_le_of_mem_slicesBefore
        (map_fst_taken split pixels ▸ List.mem_map_of_mem inside)
      exact decide_eq_true (Nat.lt_succ_of_le early)
    · rename_i more
      rw [if_neg more, List.filter_append, List.filter_cons_of_neg (by simp), List.filter_nil,
        List.append_nil]
      exact counted

/-- The pixels of the next slice go into the buffer, unless they cannot be read. -/
theorem Filled.addPixels {file : Bytes} {info : ImageInfo}
    (filled : Filled shape width height found scan)
    (split : shape.slices = found.map Prod.fst ++ slice :: further) (path : Path)
    (header : Png.loadHeader file = .ok info)
    (extents : info.width.toNat = mipExtent width.toNat slice.level ∧
      info.height.toNat = mipExtent height.toNat slice.level) :
    ∃ next turn, scan.addPixels shape slice.level slice.index (rgba8SliceSize
        (mipExtent width.toNat slice.level) (mipExtent height.toNat slice.level)) path file =
          (next, turn) ∧ next.examined = scan.examined ∧
      ((∃ pixels, Png.loadPixels file = .ok pixels ∧ turn = .onward ∧
          Filled shape width height (found ++ [(slice, pixels)]) next) ∨
        Filled shape width height found next ∧
          (Png.loadPixels file = .error .broken ∧ turn = .broken .reader ∨
            ∃ error, Png.loadPixels file = .error (.refused error) ∧ turn = .stop)) := by
  have fits := filled.fits split
  generalize sized : rgba8SliceSize (mipExtent width.toNat slice.level)
    (mipExtent height.toNat slice.level) = size at fits ⊢
  rw [← extents.1, ← extents.2] at sized
  have target : (scan.buffer.contents.slice scan.written size).length =
      rgba8SliceSize info.width.toNat info.height.toNat := by
    rw [Bytes.length_slice_of_le (by rwa [Buffer.length_contents]), sized]
  have loaded := Png.loadData_eq_loadPixels header target
  unfold PngScan.addPixels
  simp only [Buffer.slice?_of_le fits, loaded]
  cases read : Png.loadPixels file with
  | error fault =>
    cases fault with
    | refused error =>
      exact ⟨_, _, rfl, rfl, .inr ⟨filled.note _ _, .inr ⟨error, rfl, rfl⟩⟩⟩
    | broken => exact ⟨_, _, rfl, rfl, .inr ⟨filled, .inl ⟨rfl, rfl⟩⟩⟩
  | ok pixels =>
    have length : pixels.length = size := (Png.length_loadPixels header read).trans sized
    obtain ⟨buffer, put, _, contents⟩ := Buffer.overwrite?_of_le (length ▸ fits)
    have counted := filled.count split (by rw [length, ← sized, extents.1, extents.2]) contents
    rw [length] at counted
    simp only [put]
    exact ⟨_, _, rfl, rfl, .inl ⟨pixels, rfl, rfl, counted⟩⟩

end PngScan

namespace FileView

open PngScan

/-- How a search that has taken some slices goes on at the next one: it takes the slice if that is
usable, breaks off if the reader of its file does, and ends otherwise. -/
inductive Advances (view : FileView) (directories : List Path) (texture : Texture)
    (width height : UInt32) (found : List (Slice × Bytes)) (slice : Slice) (next : PngScan) :
    ScanTurn → Prop
  | taken {pixels : Bytes}
    (usable : view.usable? directories texture width height slice = some pixels)
    (filled : Filled texture.shape width height (found ++ [(slice, pixels)]) next) :
    Advances view directories texture width height found slice next .onward
  | ended (unusable : view.usable? directories texture width height slice = none)
    (whole : ¬ view.Breaks directories texture width height slice)
    (filled : Filled texture.shape width height found next) :
    Advances view directories texture width height found slice next .stop
  | broken (unusable : view.usable? directories texture width height slice = none)
    (breaks : view.Breaks directories texture width height slice)
    (filled : Filled texture.shape width height found next) :
    Advances view directories texture width height found slice next (.broken .reader)

variable {view : FileView} {directories : List Path} {texture : Texture} {width height : UInt32}
  {found : List (Slice × Bytes)} {scan : PngScan} {slice : Slice} {further : List Slice}

private theorem addFile_of_filled {file : Bytes}
    (filled : Filled texture.shape width height found scan)
    (split : texture.shape.slices = found.map Prod.fst ++ slice :: further)
    (held : view.sliceFile? directories texture slice = some file) (name : String) (path : Path) :
    let step := scan.addFile texture.shape slice.level slice.index name path file
    step.1.examined = scan.examined ∧
      view.Advances directories texture width height found slice step.1 step.2 := by
  have unusable (bad : ∀ pixels, HasExtents width height slice.level file →
      Png.loadPixels file ≠ .ok pixels) :
      view.usable? directories texture width height slice = none :=
    Option.eq_none_iff_forall_ne_some.mpr fun pixels usable =>
      have ⟨fit, loaded⟩ := (usable?_of_file held).mp usable
      bad pixels fit loaded
  have whole (unfit : ¬ HasExtents width height slice.level file) :
      ¬ view.Breaks directories texture width height slice :=
    fun breaks => unfit ((breaks_of_file held).mp breaks).1
  unfold addFile
  cases header : Png.loadHeader file with
  | error error =>
    have unfit : ¬ HasExtents width height slice.level file := by
      rintro ⟨info, sound, _⟩
      cases header.symm.trans sound
    exact ⟨rfl, .ended (unusable fun _ fit => absurd fit unfit) (whole unfit) (filled.note _ _)⟩
  | ok info =>
    have settled : scan.settle? texture.shape info = some (scan, (width, height)) := by
      rw [settle?, filled.base]
    simp only [settled]
    by_cases extents : info.width.toNat = mipExtent width.toNat slice.level ∧
        info.height.toNat = mipExtent height.toNat slice.level
    · have fit : HasExtents width height slice.level file := ⟨info, header, extents⟩
      obtain ⟨next, turn, step, examined, result⟩ := filled.addPixels split path header extents
      rw [if_pos extents, step]
      refine ⟨examined, ?_⟩
      rcases result with ⟨pixels, loaded, rfl, taken⟩ |
        ⟨kept, ⟨broken, rfl⟩ | ⟨error, refused, rfl⟩⟩
      · exact .taken ((usable?_of_file held).mpr ⟨fit, loaded⟩) taken
      · exact .broken (unusable fun pixels _ => by simp [broken])
          ((breaks_of_file held).mpr ⟨fit, broken⟩) kept
      · refine .ended (unusable fun pixels _ => by simp [refused]) (fun breaks => ?_) kept
        cases refused.symm.trans ((breaks_of_file held).mp breaks).2
    · have unfit := mt (hasExtents_iff header).mp extents
      rw [if_neg extents]
      exact ⟨rfl, .ended (unusable fun _ fit => absurd fit unfit) (whole unfit) (filled.note _ _)⟩

/-- The names of the files that a search comes upon for a slice: one or none. -/
def namesAt (view : FileView) (directories : List Path) (texture : Texture) (slice : Slice) :
    List String :=
  if (view.firstMatch? directories (texture.nameOf slice)).isSome then [texture.nameOf slice]
  else []

variable (view directories texture scan slice) in
theorem addSlice_eq :
    view.addSlice directories texture slice.level slice.index scan =
      match view.firstMatch? directories (texture.nameOf slice) with
      | none => (scan, .stop)
      | some path =>
        let scan := { scan with examined := scan.examined ++ [texture.nameOf slice] }
        match view.read path with
        | .error fault => (scan.report (Failure.read path fault.message).logLines, .stop)
        | .ok file =>
          scan.addFile texture.shape slice.level slice.index (texture.nameOf slice) path file :=
  rfl

theorem addSlice_of_filled (view : FileView) (directories : List Path)
    (filled : Filled texture.shape width height found scan)
    (split : texture.shape.slices = found.map Prod.fst ++ slice :: further) :
    let step := view.addSlice directories texture slice.level slice.index scan
    step.1.examined = scan.examined ++ view.namesAt directories texture slice ∧
      view.Advances directories texture width height found slice step.1 step.2 := by
  have without {next : PngScan} (kept : Filled texture.shape width height found next)
      (fileless : view.sliceFile? directories texture slice = none) :
      view.Advances directories texture width height found slice next .stop := by
    have headless : view.extents? directories texture slice = none := by
      rw [extents?, fileless]
      rfl
    obtain ⟨unusable, whole⟩ := unusable_of_headless headless
    exact .ended unusable whole kept
  rw [addSlice_eq, namesAt]
  cases first : view.firstMatch? directories (texture.nameOf slice) with
  | none =>
    refine ⟨(List.append_nil _).symm, without filled ?_⟩
    rw [sliceFile?, first]
    rfl
  | some path =>
    have held : view.sliceFile? directories texture slice = (view.read path).toOption := by
      rw [sliceFile?, first]
      rfl
    dsimp only
    cases read : view.read path with
    | error fault =>
      rw [read] at held
      exact ⟨rfl, without (filled.note _ _) held⟩
    | ok file =>
      rw [read] at held
      exact addFile_of_filled (filled.note _ scan.lines) split held _ path

end FileView
end TextureCache
