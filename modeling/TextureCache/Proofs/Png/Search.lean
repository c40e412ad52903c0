import Mathlib.Data.List.Infix
import TextureCache.Proofs.Png.Filled

/-! The whole search for slices. The first header decides the extents of all slices, unless their
buffer would be too large. After that the search takes the longest run of usable slices, and what it
makes of them are the levels that they complete, or else the slices of the top level. -/
namespace TextureCache

namespace FileView

open PngScan

variable {view : FileView} {directories : List Path} {texture : Texture} {width height : UInt32}
  {found : List (Slice × Bytes)} {scan : PngScan} {first : Slice} {rest further : List Slice}

/-! ## The slices behind others -/

/-- The names of the files that a search comes upon: those of usable slices and of the one behind
them. -/
def namesUpTo (view : FileView) (directories : List Path) (texture : Texture)
    (width height : UInt32) (slices : List Slice) : List String :=
  let usable := view.usablePrefix directories texture width height slices
  (slices.take (usable.length + 1)).flatMap (view.namesAt directories texture)

private theorem namesUpTo_cons_of_usable {slice : Slice} {pixels : Bytes}
    (usable : view.usable? directories texture width height slice = some pixels) :
    view.namesUpTo directories texture width height (slice :: rest) =
      view.namesAt directories texture slice ++
        view.namesUpTo directories texture width height rest := by
  unfold namesUpTo
  dsimp only
  rw [usablePrefix_cons_of_usable rest usable, List.length_cons, List.take_succ_cons,
    List.flatMap_cons]

private theorem namesUpTo_cons_of_unusable {slice : Slice}
    (unusable : view.usable? directories texture width height slice = none) :
    view.namesUpTo directories texture width height (slice :: rest) =
      view.namesAt directories texture slice := by
  unfold namesUpTo
  dsimp only
  rw [usablePrefix_cons_of_unusable rest unusable, List.length_nil, List.take_succ_cons,
    List.take_zero, List.flatMap_singleton]

/-- How a search that has taken some slices ends among further ones: it has taken the usable ones as
well, and it has broken off just where the reader does. -/
inductive Finishes (view : FileView) (directories : List Path) (texture : Texture)
    (width height : UInt32) (found : List (Slice × Bytes)) (further : List Slice)
    (last : PngScan) : ScanTurn → Prop
  | ended {turn : ScanTurn} (calm : turn = .onward ∨ turn = .stop)
    (whole : ¬ view.BreaksBehind directories texture width height further)
    (filled : Filled texture.shape width height
      (found ++ view.usablePrefix directories texture width height further) last) :
    Finishes view directories texture width height found further last turn
  | broken (breaks : view.BreaksBehind directories texture width height further)
    (filled : Filled texture.shape width height
      (found ++ view.usablePrefix directories texture width height further) last) :
    Finishes view directories texture width height found further last (.broken .reader)

theorem Finishes.filled {turn : ScanTurn}
    (finishes : view.Finishes directories texture width height found further scan turn) :
    Filled texture.shape width height
      (found ++ view.usablePrefix directories texture width height further) scan := by
  cases finishes with
  | ended _ _ filled => exact filled
  | broken _ filled => exact filled

private theorem addAll_of_filled (filled : Filled texture.shape width height found scan)
    (split : texture.shape.slices = found.map Prod.fst ++ further) :
    let run := view.addAll directories texture further scan
    run.1.examined =
        scan.examined ++ view.namesUpTo directories texture width height further ∧
      view.Finishes directories texture width height found further run.1 run.2 := by
  induction further generalizing found scan with
  | nil =>
    refine ⟨(List.append_nil _).symm, .ended (.inl rfl) ?_ ((List.append_nil found).symm ▸ filled)⟩
    rintro ⟨slice, next, _⟩
    cases next
  | cons slice rest ih =>
    obtain ⟨examined, advances⟩ := addSlice_of_filled view directories filled split
    rw [addAll]
    generalize view.addSlice directories texture slice.level slice.index scan = step at *
    obtain ⟨next, turn⟩ := step
    dsimp only at examined advances
    cases advances with
    | @taken pixels usable filled =>
      obtain ⟨others, finishes⟩ := ih filled (by simpa using split)
      change (view.addAll directories texture rest next).1.examined = _ ∧ view.Finishes directories
        texture width height found (slice :: rest) (view.addAll directories texture rest next).1
        (view.addAll directories texture rest next).2
      generalize view.addAll directories texture rest next = run at *
      obtain ⟨last, turn⟩ := run
      rw [namesUpTo_cons_of_usable usable, ← List.append_assoc, ← examined]
      have run := usablePrefix_cons_of_usable rest usable
      refine ⟨others, ?_⟩
      cases finishes with
      | ended calm whole filled =>
        refine .ended calm (mt (breaksBehind_cons_of_usable rest usable).mp whole) ?_
        simpa [run] using filled
      | broken breaks filled =>
        refine .broken ((breaksBehind_cons_of_usable rest usable).mpr breaks) ?_
        simpa [run] using filled
    | ended unusable whole filled =>
      rw [namesUpTo_cons_of_unusable unusable, ← examined]
      refine ⟨rfl, .ended (.inr rfl) (mt (breaksBehind_cons_of_unusable rest unusable).mp whole) ?_⟩
      change Filled _ _ _ _ next
      simpa [usablePrefix_cons_of_unusable rest unusable] using filled
    | broken unusable breaks filled =>
      rw [namesUpTo_cons_of_unusable unusable, ← examined]
      refine ⟨rfl, .broken ((breaksBehind_cons_of_unusable rest unusable).mpr breaks) ?_⟩
      change Filled _ _ _ _ next
      simpa [usablePrefix_cons_of_unusable rest unusable] using filled

/-! ## The first slice -/

/-- The buffer for slices of the extents that the first one tells is larger than any can be. -/
def Exceeds (view : FileView) (directories : List Path) (texture : Texture) : Prop :=
  ∃ first width height, texture.shape.slices.head? = some first ∧
    view.extents? directories texture first = some (width, height) ∧
    bufferLimit < (texture.shape.resized width height).rgba8Size

theorem exists_of_extents? {slice : Slice}
    (extents : view.extents? directories texture slice = some (width, height)) :
    ∃ path file info, view.firstMatch? directories (texture.nameOf slice) = some path ∧
      view.read path = .ok file ∧ Png.loadHeader file = .ok info ∧
      info.width = width ∧ info.height = height := by
  obtain ⟨file, info, held, header, same⟩ := extents?_eq_some_iff.mp extents
  obtain ⟨path, first, read⟩ := Option.bind_eq_some_iff.mp held
  cases same
  exact ⟨path, file, info, first, toOption_eq_some_iff.mp read, header, rfl, rfl⟩

/-- The first header makes the buffer, and the search goes on as if it had known the extents. -/
theorem addSlice_start_of_fits {slice : Slice}
    (extents : view.extents? directories texture slice = some (width, height))
    (fits : (texture.shape.resized width height).rgba8Size ≤ bufferLimit) :
    view.addSlice directories texture slice.level slice.index .start =
      view.addSlice directories texture slice.level slice.index
        (opened texture.shape width height) := by
  obtain ⟨path, file, info, first, read, header, rfl, rfl⟩ := exists_of_extents? extents
  rw [← Shape.bufferSize_eq] at fits
  simp only [addSlice_eq, first, read, addFile, header, settle?, opened, start,
    if_neg (Nat.not_lt.mpr fits)]

private theorem addSlice_start_of_large {slice : Slice}
    (extents : view.extents? directories texture slice = some (width, height))
    (large : bufferLimit < (texture.shape.resized width height).rgba8Size) :
    view.addSlice directories texture slice.level slice.index .start =
      ({ start with examined := [texture.nameOf slice] }, .broken .capacity) := by
  obtain ⟨path, file, info, first, read, header, rfl, rfl⟩ := exists_of_extents? extents
  rw [← Shape.bufferSize_eq] at large
  simp only [addSlice_eq, first, read, addFile, header, settle?, start, if_pos large]
  rfl

private theorem addSlice_start_of_headless {slice : Slice}
    (headless : view.extents? directories texture slice = none) :
    ∃ last, view.addSlice directories texture slice.level slice.index .start = (last, .stop) ∧
      last.base = none ∧ last.written = 0 ∧
        last.examined = view.namesAt directories texture slice := by
  rw [addSlice_eq, namesAt]
  cases first : view.firstMatch? directories (texture.nameOf slice) with
  | none => exact ⟨_, rfl, rfl, rfl, rfl⟩
  | some path =>
    dsimp only
    cases read : view.read path with
    | error fault => exact ⟨_, rfl, rfl, rfl, rfl⟩
    | ok file =>
      cases header : Png.loadHeader file with
      | error error =>
        simp only [addFile, header]
        exact ⟨_, rfl, rfl, rfl, rfl⟩
      | ok info =>
        have held : view.sliceFile? directories texture slice = some file :=
          Option.bind_eq_some_iff.mpr ⟨path, first, toOption_eq_some_iff.mpr read⟩
        cases headless.symm.trans (extents?_eq_some_iff.mpr ⟨file, info, held, header, rfl⟩)

/-! ## All slices -/

theorem addLevels_start_of_headless (slices : texture.shape.slices = first :: rest)
    (headless : view.extents? directories texture first = none) :
    ∃ last, view.addLevels directories texture texture.shape.levels.toNat 0 .start =
        (last, .stop) ∧ last.base = none ∧ last.written = 0 ∧
          last.examined = view.namesAt directories texture first := by
  obtain ⟨last, step, empty⟩ := addSlice_start_of_headless headless
  refine ⟨last, ?_, empty⟩
  rw [addLevels_eq_slices, slices, addAll, step]
  rfl

theorem addLevels_start_of_large (slices : texture.shape.slices = first :: rest)
    (extents : view.extents? directories texture first = some (width, height))
    (large : bufferLimit < (texture.shape.resized width height).rgba8Size) :
    view.addLevels directories texture texture.shape.levels.toNat 0 .start =
      ({ start with examined := [texture.nameOf first] }, .broken .capacity) := by
  rw [addLevels_eq_slices, slices, addAll, addSlice_start_of_large extents large]
  rfl

/-- The first header decides the extents, and the search takes the longest run of usable slices. -/
theorem addLevels_start_of_fits (slices : texture.shape.slices = first :: rest)
    (extents : view.extents? directories texture first = some (width, height))
    (fits : (texture.shape.resized width height).rgba8Size ≤ bufferLimit) :
    let run := view.addLevels directories texture texture.shape.levels.toNat 0 .start
    run.1.examined = view.namesUpTo directories texture width height texture.shape.slices ∧
      view.Finishes directories texture width height [] texture.shape.slices run.1 run.2 := by
  have run : view.addLevels directories texture texture.shape.levels.toNat 0 .start =
      view.addAll directories texture texture.shape.slices (opened texture.shape width height) := by
    rw [addLevels_eq_slices, slices, addAll, addAll, addSlice_start_of_fits extents fits]
  have member : first ∈ texture.shape.slices := slices ▸ List.mem_cons_self
  rw [run]
  exact addAll_of_filled (filled_opened width height member) rfl

/-! ## What is found -/

/-- What is made of a run of usable slices: the levels that it completes, all of their slices in
order, or else the slices of the top level that it has. -/
structure MadeOf (texture : Texture) (width height : UInt32) (found : List (Slice × Bytes))
    (imported : ImportedTexture) : Prop where
  width : imported.width = width
  height : imported.height = height
  format : imported.format = FormatInfo.rgba8 texture.format.colorSpace
  complete : ∀ levels, (texture.shape.levelsWithin (found.map Prod.fst)).length = levels →
    0 < levels →
      let whole := found.filter (·.1.level < levels)
      imported.levels.toNat = levels ∧
        imported.depthOrLayers.toNat = texture.shape.slicesAt 0 ∧
        whole.map Prod.fst = texture.shape.slices.filter (·.level < levels) ∧
        imported.data = whole.flatMap Prod.snd
  started : (texture.shape.levelsWithin (found.map Prod.fst)).length = 0 →
    found.length < texture.shape.slicesAt 0 ∧ imported.levels = 1 ∧
      imported.depthOrLayers.toNat = found.length ∧ imported.data = found.flatMap Prod.snd

private theorem exists_whole (member : first ∈ texture.shape.slices)
    (run : found.map Prod.fst = texture.shape.slices.take found.length) {levels : Nat}
    (complete : (texture.shape.levelsWithin (found.map Prod.fst)).length = levels) :
    ∃ whole others, found = whole ++ others ∧ found.filter (·.1.level < levels) = whole ∧
      whole.map Prod.fst = texture.shape.slicesFrom 0 levels ∧
      (levels = 0 → found.length < texture.shape.slicesAt 0) := by
  have mipped := Nat.zero_lt_of_lt (Shape.mem_slices_iff.mp member).1
  rw [run] at complete
  obtain ⟨part, taken, own, short⟩ :=
    Shape.exists_take_slices (Shape.filled_of_mem member) mipped found.length complete
  obtain ⟨whole, others, rfl, upper, rfl⟩ := List.map_eq_append_iff.mp (run.trans taken)
  refine ⟨whole, others, rfl, ?_, upper, ?_⟩
  · rw [List.filter_append, List.filter_eq_self.mpr, List.filter_eq_nil_iff.mpr, List.append_nil]
    · intro pair inside
      have level := own pair.1 (List.mem_map_of_mem inside)
      simp [level]
    · intro pair inside
      have level := (Shape.level_of_mem_slicesFrom (upper ▸ List.mem_map_of_mem inside)).2
      exact decide_eq_true (by omega)
  · rintro rfl
    rw [List.map_eq_nil_iff.mp upper, List.nil_append]
    simpa using short rfl

/-- The state of a search makes up what its slices do. -/
theorem found_of_filled (member : first ∈ texture.shape.slices)
    (filled : Filled texture.shape width height found scan)
    (run : found.map Prod.fst = texture.shape.slices.take found.length) :
    ∃ imported, scan.found texture.format.colorSpace = .replaced imported ∧
      MadeOf texture width height found imported := by
  have few := texture.shape.length_levelsWithin_le (found.map Prod.fst)
  have baseSlices := filled.toNat_baseSlices
  have completeLevels := filled.toNat_completeLevels
  generalize complete : (texture.shape.levelsWithin (found.map Prod.fst)).length = levels
    at few completeLevels
  have completeSize := filled.completeSize levels complete
  obtain ⟨whole, others, all, kept, upper, short⟩ := exists_whole member run complete
  rw [kept] at completeSize
  unfold PngScan.found
  rw [filled.base]
  dsimp only
  rcases Nat.eq_zero_or_pos levels with none | some
  · have alone : Filled texture.shape width height (found ++ []) scan :=
      (List.append_nil found).symm ▸ filled
    have start := alone.take_buffer
    have part := short none
    have zero : scan.completeLevels = 0 := UInt32.toNat_inj.mp (completeLevels.trans none)
    rw [if_pos zero, filled.written, start]
    refine ⟨_, rfl, rfl, rfl, rfl, fun levels same some => ?_, fun _ => ⟨part, rfl, ?_, rfl⟩⟩
    · omega
    · rw [baseSlices, Nat.min_eq_left (Nat.le_of_lt part)]
  · have nonzero : scan.completeLevels ≠ 0 := by
      intro zero
      rw [zero] at completeLevels
      exact absurd completeLevels.symm (Nat.ne_of_gt some)
    have start := Filled.take_buffer (all ▸ filled)
    rw [if_neg nonzero, completeSize, start]
    refine ⟨_, rfl, rfl, rfl, rfl, ?_, fun none => by omega⟩
    rintro _ same _
    cases complete.symm.trans same
    dsimp only
    rw [kept]
    refine ⟨completeLevels, ?_, by rw [upper, Shape.filter_slices few], rfl⟩
    have top := texture.shape.slicesAt_zero_le_length some 0
    rw [Shape.slicesBefore, List.range_zero, List.map_nil, List.append_nil, ← upper,
      List.length_map] at top
    rw [baseSlices, Nat.min_eq_right]
    rw [all, List.length_append]
    omega

/-! ## The whole search -/

private theorem png_eq {last : PngScan} {turn : ScanTurn}
    (run : view.addLevels directories texture texture.shape.levels.toNat 0 .start = (last, turn)) :
    view.png directories texture =
      ⟨last.examined, last.lines, last.outcome turn texture.format.colorSpace⟩ := by
  rw [png, run]

theorem png_of_empty (none : texture.shape.slices = []) :
    view.png directories texture = .nothing := by
  have run : view.addLevels directories texture texture.shape.levels.toNat 0 .start =
      (.start, .onward) := by
    rw [addLevels_eq_slices, none]
    rfl
  exact png_eq run

theorem png_of_headless (slices : texture.shape.slices = first :: rest)
    (headless : view.extents? directories texture first = none) :
    (view.png directories texture).outcome = .nothing ∧
      (view.png directories texture).examined = view.namesAt directories texture first := by
  obtain ⟨last, run, base, _, examined⟩ := addLevels_start_of_headless slices headless
  rw [png_eq run]
  exact ⟨by simp only [PngScan.outcome, PngScan.found, base], examined⟩

theorem png_of_large (slices : texture.shape.slices = first :: rest)
    (extents : view.extents? directories texture first = some (width, height))
    (large : bufferLimit < (texture.shape.resized width height).rgba8Size) :
    view.png directories texture = ⟨[texture.nameOf first], [], .broken .capacity⟩ :=
  png_eq (addLevels_start_of_large slices extents large)

/-- A search whose buffer can be made breaks off where a reader does, and else finds what the
longest run of usable slices makes up. -/
theorem png_of_fits (slices : texture.shape.slices = first :: rest)
    (extents : view.extents? directories texture first = some (width, height))
    (fits : (texture.shape.resized width height).rgba8Size ≤ bufferLimit) :
    let all := texture.shape.slices
    let found := view.usablePrefix directories texture width height all
    let report := view.png directories texture
    report.examined = view.namesUpTo directories texture width height all ∧
      (view.BreaksBehind directories texture width height all ∧ report.outcome = .broken .reader ∨
        ¬ view.BreaksBehind directories texture width height all ∧
          ∃ imported, report.outcome = .replaced imported ∧
            MadeOf texture width height found imported) := by
  intro all found report
  obtain ⟨examined, finishes⟩ := addLevels_start_of_fits slices extents fits
  generalize run : view.addLevels directories texture texture.shape.levels.toNat 0 .start = ends
    at examined finishes
  obtain ⟨last, turn⟩ := ends
  have same : report = _ := png_eq run
  rw [same]
  refine ⟨examined, ?_⟩
  cases finishes with
  | ended calm whole filled =>
    have member : first ∈ texture.shape.slices := slices ▸ List.mem_cons_self
    obtain ⟨imported, outcome, made⟩ :=
      found_of_filled member filled (map_fst_usablePrefix texture.shape.slices)
    refine .inr ⟨whole, imported, ?_, made⟩
    rcases calm with rfl | rfl
    · exact outcome
    · exact outcome
  | broken breaks _ => exact .inl ⟨breaks, rfl⟩

theorem outcome_search_of_unstored (supported : texture.format.isSupported = true)
    (some : directories ≠ []) (unstored : (view.dds directories texture).outcome = .nothing) :
    (view.search directories texture).outcome = (view.png directories texture).outcome := by
  unfold search
  rw [if_neg (by simp [supported, some])]
  simp only [if_pos unstored]

theorem ne_nil_of_extents {slice : Slice} {extents : UInt32 × UInt32}
    (told : view.extents? directories texture slice = some extents) : directories ≠ [] := by
  rintro rfl
  cases told

end FileView
end TextureCache
