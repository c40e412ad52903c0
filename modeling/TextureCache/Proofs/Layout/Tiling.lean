import Mathlib.Data.List.Chain
import TextureCache.Proofs.Dds.Saturation
import TextureCache.Proofs.Decode.Slicewise
import TextureCache.Proofs.Layout.Size

/-! Walks over the slices of a texture, in machine words. `SliceWalk` is asked for slice after
slice; it keeps the level it is in, an index in that level and the offset behind what it gave, and
passes over levels that are used up or empty. `Texture.walkedRegions?` works out the native layout
level by level, with one offset that runs through, and `Shape.walkedRgba8Size?` adds up levels
without looking at slices. All three end and agree: the regions are those of the layouts, and they
lie one behind the other without a gap up to the size. -/
namespace TextureCache

/-! ## Mip levels in words -/

/-- An extent at a mip level. A shift by as many bits as a word has, or more, leaves none. -/
def wordMipExtent (size level : UInt32) : UInt32 := max 1 (if level < 32 then size >>> level else 0)

@[simp] theorem toNat_wordMipExtent (size level : UInt32) :
    (wordMipExtent size level).toNat = mipExtent size.toNat level.toNat := by
  unfold wordMipExtent mipExtent
  rw [UInt32.toNat_max]
  congr 1
  split
  · rename_i shifts
    have few : level.toNat < 32 := UInt32.lt_iff_toNat_lt.mp shifts
    rw [UInt32.toNat_shiftRight, Nat.mod_eq_of_lt few]
  · rename_i far
    have wide : 32 ≤ level.toNat := UInt32.le_iff_toNat_le.mp (UInt32.not_lt.mp far)
    have short : size.toNat < 2 ^ level.toNat :=
      Nat.lt_of_lt_of_le size.toNat_lt (Nat.pow_le_pow_right (by decide) wide)
    rw [Nat.shiftRight_eq_div_pow, Nat.div_eq_of_lt short]
    rfl

/-- A walk over the mip levels of a shape that has come to some level. -/
structure LevelWalk where
  shape : Shape
  next : UInt32
  deriving DecidableEq, Repr

namespace LevelWalk

def start (shape : Shape) : LevelWalk := ⟨shape, 0⟩

def advance? (walk : LevelWalk) : Option (Level × LevelWalk) :=
  if walk.next < walk.shape.levels then
    let extent size := (wordMipExtent size walk.next).toNat
    some ({ index := walk.next.toNat
            width := extent walk.shape.width
            height := extent walk.shape.height
            slices :=
              if 1 < walk.shape.depth then extent walk.shape.depth
              else walk.shape.layers.toNat },
      { walk with next := walk.next + 1 })
  else none

def left (walk : LevelWalk) : Nat := walk.shape.levels.toNat - walk.next.toNat

/-- The slices of the levels to come. -/
def further (walk : LevelWalk) : List Slice :=
  walk.shape.slicesFrom walk.next.toNat walk.left

variable {walk rest : LevelWalk} {level : Level}

private theorem advance?_eq_some (step : walk.advance? = some (level, rest)) :
    level = walk.shape.level walk.next.toNat ∧ rest.shape = walk.shape ∧
      rest.next.toNat = walk.next.toNat + 1 ∧ walk.left = rest.left + 1 := by
  unfold advance? at step
  split at step
  · rename_i inside
    have more := UInt32.lt_iff_toNat_lt.mp inside
    have next : (walk.next + 1).toNat = walk.next.toNat + 1 := by
      rw [UInt32.toNat_add]
      exact Nat.mod_eq_of_lt (Nat.lt_of_le_of_lt more walk.shape.levels.toNat_lt)
    cases step
    refine ⟨?_, rfl, next, ?_⟩
    · simp [Shape.level, Shape.slicesAt, Shape.isVolume]
    · unfold left
      dsimp only
      rw [next]
      omega
  · cases step

private theorem left_of_advance?_eq_none (ended : walk.advance? = none) : walk.left = 0 := by
  unfold advance? at ended
  split at ended
  · cases ended
  · rename_i outside
    exact Nat.sub_eq_zero_of_le (Nat.not_lt.mp (mt UInt32.lt_iff_toNat_lt.mpr outside))

private theorem left_lt_of_advance? (step : walk.advance? = some (level, rest)) :
    rest.left < walk.left :=
  (advance?_eq_some step).2.2.2 ▸ Nat.lt_succ_self _

private theorem further_of_advance?_eq_none (ended : walk.advance? = none) : walk.further = [] := by
  rw [further, left_of_advance?_eq_none ended]
  rfl

private theorem further_of_advance? (step : walk.advance? = some (level, rest)) :
    walk.further = level.allSlices ++ rest.further := by
  obtain ⟨rfl, same, next, left⟩ := advance?_eq_some step
  rw [further, left, Shape.slicesFrom_succ, further, same, next]

def levels (walk : LevelWalk) : List Level :=
  match _ : walk.advance? with
  | none => []
  | some (level, rest) => level :: levels rest
termination_by walk.left
decreasing_by exact left_lt_of_advance? ‹_›

private theorem levels_eq (walk : LevelWalk) :
    walk.levels = (List.range' walk.next.toNat walk.left).map walk.shape.level := by
  fun_induction levels walk with
  | case1 walk ended => rw [left_of_advance?_eq_none ended]; rfl
  | case2 walk level rest step ih =>
    obtain ⟨rfl, same, next, left⟩ := advance?_eq_some step
    rw [ih, left, List.range'_succ, List.map_cons, same, next]

theorem levels_start (shape : Shape) : (start shape).levels = shape.mipChain := by
  rw [levels_eq, Shape.mipChain, List.range_eq_range']
  rfl

end LevelWalk

/-! ## Slices of pixels -/

/-- A walk over the slices of a texture and their pixels. -/
structure SliceWalk where
  levels : LevelWalk
  current : Option Level
  index : UInt32
  offset : Nat
  deriving DecidableEq, Repr

namespace SliceWalk

def start (shape : Shape) : SliceWalk := ⟨.start shape, none, 0, 0⟩

def advance? (walk : SliceWalk) : Option (Option (Region × SliceWalk)) :=
  match walk.current.filter (walk.index.toNat < ·.slices) with
  | some level => do
    let size ← (StorageClass.packed 4).checkedSliceSize level.width level.height
    let offset ← fitsWord (walk.offset + size)
    some (some (⟨⟨level.index, walk.index.toNat, level.width, level.height⟩, walk.offset, size⟩,
      { walk with index := walk.index + 1, offset }))
  | none =>
    match _ : walk.levels.advance? with
    | none => some none
    | some (level, levels) => advance? { walk with levels, current := some level, index := 0 }
termination_by walk.levels.left
decreasing_by exact LevelWalk.left_lt_of_advance? ‹_›

/-- What a walk gives if it is asked until it has no more. -/
inductive Gives : SliceWalk → List Region → Prop
  | nothing {walk : SliceWalk} (ended : walk.advance? = some none) : Gives walk []
  | more {walk rest : SliceWalk} {region : Region} {regions : List Region}
      (step : walk.advance? = some (some (region, rest))) (others : Gives rest regions) :
      Gives walk (region :: regions)

theorem Gives.unique {walk : SliceWalk} {first second : List Region} (one : walk.Gives first)
    (other : walk.Gives second) : first = second := by
  induction one generalizing second with
  | nothing ended =>
    cases other with
    | nothing => rfl
    | more step => cases ended.symm.trans step
  | more step _ ih =>
    cases other with
    | nothing ended => cases ended.symm.trans step
    | more step' others =>
      cases step.symm.trans step'
      rw [ih others]

/-- The slices that a walk has not given yet. -/
def remaining (walk : SliceWalk) : List Slice :=
  (walk.current.elim [] fun level => level.allSlices.drop walk.index.toNat) ++
    walk.levels.further

/-- The slices of the level that a walk is in can be counted in a word. -/
def Counts (walk : SliceWalk) : Prop := ∀ level ∈ walk.current, level.slices < 2 ^ 32

/-- A walk gives the first of the slices that it has not given, and goes on behind it. -/
def GivesFirst (walk : SliceWalk) : Prop :=
  ∃ slice next, walk.remaining = slice :: next.remaining ∧ next.Counts ∧
    next.offset = walk.offset + rgba8SliceSize slice.width slice.height ∧
    walk.advance? = some (some
      (⟨slice, walk.offset, rgba8SliceSize slice.width slice.height⟩, next))

variable {walk : SliceWalk}

private theorem advance?_of_filter_eq_some {level : Level} (counts : walk.Counts)
    (within : walk.current.filter (walk.index.toNat < ·.slices) = some level)
    (word : walk.offset + sizeOfSlices rgba8SliceSize walk.remaining < wordLimit) :
    walk.GivesFirst := by
  obtain ⟨inside, few⟩ := Option.filter_eq_some_iff.mp within
  have room : walk.index.toNat < level.slices := of_decide_eq_true few
  have index : (walk.index + 1).toNat = walk.index.toNat + 1 := by
    rw [UInt32.toNat_add]
    exact Nat.mod_eq_of_lt (Nat.lt_of_le_of_lt room (counts level inside))
  let slice : Slice := ⟨level.index, walk.index.toNat, level.width, level.height⟩
  let next : SliceWalk := { walk with
    index := walk.index + 1
    offset := walk.offset + rgba8SliceSize level.width level.height }
  have split : walk.remaining = slice :: next.remaining := by
    have long : walk.index.toNat < level.allSlices.length := by
      rwa [Level.length_allSlices]
    unfold remaining
    simp only [inside, next, Option.elim_some, index]
    rw [List.drop_eq_getElem_cons long]
    simp [Level.allSlices, slice]
  rw [split, sizeOfSlices_cons, ← Nat.add_assoc] at word
  have stop : walk.offset + rgba8SliceSize level.width level.height < wordLimit :=
    Nat.lt_of_le_of_lt (Nat.le_add_right _ _) word
  refine ⟨slice, next, split, counts, rfl, ?_⟩
  rw [advance?, within]
  simp only [checkedSliceSize_rgba8, fitsWord_of_lt (Nat.lt_of_le_of_lt (Nat.le_add_left _ _) stop),
    Option.bind_eq_bind, Option.bind_some, fitsWord_of_lt stop]
  rfl

private theorem remaining_of_filter_eq_none
    (without : walk.current.filter (walk.index.toNat < ·.slices) = none) :
    walk.remaining = walk.levels.further := by
  unfold remaining
  cases inside : walk.current with
  | none => rfl
  | some level =>
    have full : level.slices ≤ walk.index.toNat := by
      rw [inside] at without
      simpa using without
    have none : level.allSlices.drop walk.index.toNat = [] := by
      rwa [List.drop_eq_nil_iff, Level.length_allSlices]
    rw [Option.elim_some, none, List.nil_append]

private theorem remaining_of_advance? {level : Level} {levels : LevelWalk}
    (step : walk.levels.advance? = some (level, levels)) :
    remaining { walk with levels, current := some level, index := 0 } = walk.levels.further :=
  (LevelWalk.further_of_advance? step).symm

private theorem counts_of_advance? {level : Level} {levels : LevelWalk}
    (step : walk.levels.advance? = some (level, levels)) :
    Counts { walk with levels, current := some level, index := 0 } := by
  rintro _ ⟨⟩
  rw [(LevelWalk.advance?_eq_some step).1]
  exact Shape.slicesAt_lt _ _

private theorem advance?_cases (walk : SliceWalk) (counts : walk.Counts)
    (word : walk.offset + sizeOfSlices rgba8SliceSize walk.remaining < wordLimit) :
    (walk.remaining = [] ∧ walk.advance? = some none) ∨ walk.GivesFirst := by
  -- The induction is on the loop that passes over levels; it keeps the slices that remain.
  induction walk using advance?.induct with
  | case1 walk level within => exact .inr (advance?_of_filter_eq_some counts within word)
  | case2 walk without ended =>
    refine .inl ⟨?_, by rw [advance?, without, ended]⟩
    rw [remaining_of_filter_eq_none without, LevelWalk.further_of_advance?_eq_none ended]
  | case3 walk without level levels step ih =>
    have same : walk.remaining = _ :=
      (remaining_of_filter_eq_none without).trans (remaining_of_advance? step).symm
    have loop : walk.advance? =
        advance? { walk with levels, current := some level, index := 0 } := by
      rw [advance?, without, step]
    rw [same] at word
    unfold GivesFirst
    rw [same, loop]
    exact ih (counts_of_advance? step) word

/-- A walk gives the slices that it has not given, one behind the other, and ends. -/
theorem gives_remaining (walk : SliceWalk) (counts : walk.Counts)
    (word : walk.offset + sizeOfSlices rgba8SliceSize walk.remaining < wordLimit) :
    walk.Gives (layOut rgba8SliceSize walk.offset walk.remaining) := by
  generalize left : walk.remaining = slices at word
  induction slices generalizing walk with
  | nil =>
    obtain ⟨_, ended⟩ | ⟨slice, next, split, _⟩ := walk.advance?_cases counts (by rwa [left])
    · exact .nothing ended
    · cases left.symm.trans split
  | cons slice rest ih =>
    obtain ⟨none, _⟩ | ⟨slice, next, split, counts, offset, step⟩ :=
      walk.advance?_cases counts (by rwa [left])
    · cases left.symm.trans none
    · cases left.symm.trans split
      rw [sizeOfSlices_cons, ← Nat.add_assoc, ← offset] at word
      have others := ih next counts rfl word
      rw [offset] at others
      exact .more step others

private theorem remaining_start (shape : Shape) : (start shape).remaining = shape.slices :=
  (Shape.slices_eq_slicesFrom shape).symm

private theorem gives_start_iff {shape : Shape} (word : shape.rgba8Size < wordLimit)
    {regions : List Region} : (start shape).Gives regions ↔ regions = shape.rgba8Regions := by
  have all : (start shape).Gives shape.rgba8Regions := by
    have given := (start shape).gives_remaining nofun (by
      rw [remaining_start, Texture.sizeOfSlices_rgba8]
      exact (Nat.zero_add _).symm ▸ word)
    rwa [remaining_start] at given
  exact ⟨fun given => given.unique all, fun same => same ▸ all⟩

end SliceWalk

/-! ## Slices of texels -/

/-- A layout that has been worked out so far, and the offset behind it. -/
structure Layout where
  regions : List Region
  stop : Nat
  deriving DecidableEq, Repr

/-- Put a slice behind a layout. -/
def Layout.push? (size : Nat) (layout : Layout) (slice : Slice) : Option Layout := do
  let stop ← fitsWord (layout.stop + size)
  some ⟨layout.regions ++ [⟨slice, layout.stop, size⟩], stop⟩

namespace PixelFormat

/-- Put the slices of a level behind a layout. Their size is worked out once, and also if there are
none. -/
def pushLevel? (format : PixelFormat) (layout : Layout) (level : Level) : Option Layout := do
  let size ← format.storage.checkedSliceSize level.width level.height
  level.allSlices.foldlM (Layout.push? size) layout

private theorem foldlM_push? {sizeOf : Nat → Nat → Nat} {size : Nat} {slices : List Slice}
    (alike : ∀ slice ∈ slices, sizeOf slice.width slice.height = size) (layout : Layout)
    (word : layout.stop + sizeOfSlices sizeOf slices < wordLimit) :
    slices.foldlM (Layout.push? size) layout =
      some ⟨layout.regions ++ layOut sizeOf layout.stop slices,
        layout.stop + sizeOfSlices sizeOf slices⟩ := by
  induction slices generalizing layout with
  | nil => simp [layOut, sizeOfSlices]
  | cons slice rest ih =>
    rw [sizeOfSlices_cons, ← Nat.add_assoc, alike slice List.mem_cons_self] at word
    have next := ih (fun other member => alike other (List.mem_cons_of_mem _ member))
      ⟨layout.regions ++ [⟨slice, layout.stop, size⟩], layout.stop + size⟩ word
    have pushed : layout.push? size slice =
        some ⟨layout.regions ++ [⟨slice, layout.stop, size⟩], layout.stop + size⟩ := by
      unfold Layout.push?
      rw [fitsWord_of_lt (Nat.lt_of_le_of_lt (Nat.le_add_right _ _) word)]
      rfl
    rw [List.foldlM_cons, pushed, Option.bind_eq_bind, Option.bind_some, next, layOut,
      sizeOfSlices_cons, alike slice List.mem_cons_self, ← Nat.add_assoc]
    simp

private theorem pushLevel?_eq (format : PixelFormat) (layout : Layout) {level : Level}
    (slice : format.sliceSize level.width level.height < wordLimit)
    (word : layout.stop + sizeOfSlices format.sliceSize level.allSlices < wordLimit) :
    format.pushLevel? layout level =
      some ⟨layout.regions ++ layOut format.sliceSize layout.stop level.allSlices,
        layout.stop + sizeOfSlices format.sliceSize level.allSlices⟩ := by
  unfold pushLevel?
  rw [checkedSliceSize_storage, fitsWord_of_lt slice]
  refine foldlM_push? (fun slice member => ?_) layout word
  obtain ⟨index, _, rfl⟩ := List.mem_map.mp member
  rfl

private theorem foldlM_pushLevel? (format : PixelFormat) {levels : List Level}
    (sizes : ∀ level ∈ levels, format.sliceSize level.width level.height < wordLimit)
    (layout : Layout)
    (word : layout.stop +
      sizeOfSlices format.sliceSize (levels.flatMap Level.allSlices) < wordLimit) :
    levels.foldlM format.pushLevel? layout =
      some ⟨layout.regions ++
          layOut format.sliceSize layout.stop (levels.flatMap Level.allSlices),
        layout.stop + sizeOfSlices format.sliceSize (levels.flatMap Level.allSlices)⟩ := by
  induction levels generalizing layout with
  | nil => simp [layOut, sizeOfSlices]
  | cons level rest ih =>
    rw [List.flatMap_cons, sizeOfSlices_append, ← Nat.add_assoc] at word
    have pushed := format.pushLevel?_eq layout (sizes level List.mem_cons_self)
      (Nat.lt_of_le_of_lt (Nat.le_add_right _ _) word)
    have others := ih (fun other member => sizes other (List.mem_cons_of_mem _ member))
      ⟨layout.regions ++ layOut format.sliceSize layout.stop level.allSlices,
        layout.stop + sizeOfSlices format.sliceSize level.allSlices⟩ word
    rw [List.foldlM_cons, pushed, Option.bind_eq_bind, Option.bind_some, others,
      List.flatMap_cons, layOut_append, sizeOfSlices_append, List.append_assoc, Nat.add_assoc]

end PixelFormat

/-- Every size that a walk works out fits the machine word: those that decoding works out, and the
pixels of a slice at each level, with slices or not. -/
structure Texture.WalksFit (texture : Texture) : Prop extends texture.SizesFit where
  pixels : ∀ level ∈ texture.shape.mipChain, rgba8SliceSize level.width level.height < wordLimit

/-- The native layout as a walk over the levels works it out. -/
def Texture.walkedRegions? (texture : Texture) : Option (List Region) :=
  ((LevelWalk.start texture.shape).levels.foldlM texture.format.pushLevel? ⟨[], 0⟩).map
    Layout.regions

/-- The size of all pixels as a walk over the levels adds it up. -/
def Shape.walkedRgba8Size? (shape : Shape) : Option Nat :=
  (LevelWalk.start shape).levels.foldlM addRgba8Level 0

namespace Texture

variable {texture : Texture}

theorem walkedRegions?_of_native
    (sizes : ∀ level ∈ texture.shape.mipChain,
      texture.format.sliceSize level.width level.height < wordLimit)
    (native : texture.nativeSize < wordLimit) :
    texture.walkedRegions? = some texture.nativeRegions := by
  have laid := texture.format.foldlM_pushLevel? sizes ⟨[], 0⟩ (by
    change 0 + sizeOfSlices texture.format.sliceSize texture.shape.slices < wordLimit
    rwa [sizeOfSlices_native, Nat.zero_add])
  rw [walkedRegions?, LevelWalk.levels_start, laid]
  rfl

private theorem walkedRegions?_eq (fit : texture.SizesFit) :
    texture.walkedRegions? = some texture.nativeRegions :=
  walkedRegions?_of_native fit.level fit.native

private theorem walkedRgba8Size?_eq (fit : texture.WalksFit) :
    texture.shape.walkedRgba8Size? = some texture.shape.rgba8Size := by
  rw [Shape.walkedRgba8Size?, LevelWalk.levels_start]
  exact Shape.guardedRgba8Size_of_slices fit.pixels fit.rgba8

end Texture

/-! ## The order of slices -/

/-- By level, and within a level by index. -/
def Slice.Before (first second : Slice) : Prop :=
  first.level < second.level ∨ first.level = second.level ∧ first.index < second.index

/-- The slices of a shape in order: as many at each level as it has, with its extents. -/
structure Shape.Enumerates (shape : Shape) (slices : List Slice) : Prop where
  ordered : slices.Pairwise Slice.Before
  inChain : ∀ slice ∈ slices, slice.level < shape.levels.toNat
  inLevel : ∀ level < shape.levels.toNat,
    (slices.filter (·.level = level)).map Slice.index = List.range (
      if 1 < shape.depth then max 1 (shape.depth.toNat / 2 ^ level) else shape.layers.toNat)
  width : ∀ slice ∈ slices, slice.width = max 1 (shape.width.toNat / 2 ^ slice.level)
  height : ∀ slice ∈ slices, slice.height = max 1 (shape.height.toNat / 2 ^ slice.level)

namespace Shape

private theorem pairwise_slices (shape : Shape) : shape.slices.Pairwise Slice.Before := by
  unfold slices mipChain
  rw [List.flatMap_map]
  refine List.pairwise_flatMap.mpr ⟨fun level _ => ?_, ?_⟩
  · exact List.pairwise_map.mpr (List.pairwise_lt_range.imp fun less => .inr ⟨rfl, less⟩)
  · refine List.pairwise_lt_range.imp fun above slice member slice' member' => .inl ?_
    obtain ⟨index, _, rfl⟩ := List.mem_map.mp member
    obtain ⟨index', _, rfl⟩ := List.mem_map.mp member'
    exact above

private theorem filter_level_slices {shape : Shape} {level : Nat}
    (inChain : level < shape.levels.toNat) :
    shape.slices.filter (·.level = level) = (shape.level level).allSlices := by
  obtain ⟨lower, levels⟩ := Nat.exists_eq_add_of_lt inChain
  rw [Shape.slices_eq_slicesFrom, levels, Nat.add_assoc, Shape.slicesFrom_add, Nat.zero_add,
    Shape.slicesFrom_succ, List.filter_append, List.filter_append]
  have above : (shape.slicesFrom 0 level).filter (·.level = level) = [] := by
    refine List.filter_eq_nil_iff.mpr fun slice member => ?_
    have := (Shape.level_of_mem_slicesFrom member).2
    rw [decide_eq_true_eq]
    omega
  have below : (shape.slicesFrom (level + 1) lower).filter (·.level = level) = [] := by
    refine List.filter_eq_nil_iff.mpr fun slice member => ?_
    have := (Shape.level_of_mem_slicesFrom member).1
    rw [decide_eq_true_eq]
    omega
  have own : ((shape.level level).allSlices).filter (·.level = level) = _ :=
    List.filter_eq_self.mpr fun slice member =>
      decide_eq_true (Level.index_of_mem_allSlices member)
  rw [above, own, below, List.nil_append, List.append_nil]

private theorem enumerates_slices (shape : Shape) : shape.Enumerates shape.slices where
  ordered := shape.pairwise_slices
  inChain slice member := (mem_slices_iff.mp member).1
  inLevel level inChain := by
    rw [filter_level_slices inChain, Level.allSlices, List.map_map]
    change (List.range (shape.slicesAt level)).map id = _
    rw [List.map_id, slicesAt, mipExtent_eq_div]
    simp only [isVolume, decide_eq_true_eq, gt_iff_lt]
  width slice member := (mem_slices_iff.mp member).2.2.1.trans (mipExtent_eq_div _ _)
  height slice member := (mem_slices_iff.mp member).2.2.2.trans (mipExtent_eq_div _ _)

theorem slices_eq_nil_iff {shape : Shape} :
    shape.slices = [] ↔ shape.levels = 0 ∨ ¬ 1 < shape.depth ∧ shape.layers = 0 := by
  refine ⟨fun none => ?_, fun empty => List.eq_nil_iff_forall_not_mem.mpr fun slice member => ?_⟩
  · by_contra some
    obtain ⟨mipped, filled⟩ := not_or.mp some
    have layers : 1 < shape.depth ∨ 1 ≤ shape.layers :=
      or_iff_not_imp_left.mpr fun flat =>
        UInt32.pos_iff_ne_zero.mpr fun zero => filled ⟨flat, zero⟩
    obtain ⟨rest, split⟩ := slices_eq_cons (UInt32.pos_iff_ne_zero.mpr mipped) layers
    cases none.symm.trans split
  · obtain ⟨inChain, inLevel, _⟩ := mem_slices_iff.mp member
    rcases empty with levels | ⟨flat, layers⟩
    · rw [levels] at inChain
      exact Nat.not_lt_zero _ inChain
    · rw [slicesAt, isVolume, if_neg (by simpa using flat), layers] at inLevel
      exact Nat.not_lt_zero _ inLevel

end Shape

/-! ## Regions without gaps -/

/-- Regions lie one behind the other from an offset to another, each as large as its slice. -/
structure Tiles (sizeOf : Nat → Nat → Nat) (start : Nat) (regions : List Region) (stop : Nat) :
    Prop where
  first : ∀ region ∈ regions.head?, region.offset = start
  next : regions.IsChain fun region next => next.offset = region.offset + region.size
  last : ∀ region ∈ regions.getLast?, region.offset + region.size = stop
  empty : regions = [] → stop = start
  size : ∀ region ∈ regions, region.size = sizeOf region.slice.width region.slice.height

/-- A slice goes in front of regions that begin where it stops. -/
theorem Tiles.cons {sizeOf : Nat → Nat → Nat} {regions : List Region} {slice : Slice}
    {start stop : Nat}
    (others : Tiles sizeOf (start + sizeOf slice.width slice.height) regions stop) :
    Tiles sizeOf start (⟨slice, start, sizeOf slice.width slice.height⟩ :: regions) stop where
  first := by
    rintro _ ⟨⟩
    rfl
  next := List.isChain_cons.mpr ⟨others.first, others.next⟩
  last last member := by
    cases regions with
    | nil =>
      cases member
      exact (others.empty rfl).symm
    | cons second regions =>
      rw [List.getLast?_cons_cons] at member
      exact others.last last member
  empty := nofun
  size := List.forall_mem_cons.mpr ⟨rfl, others.size⟩

theorem tiles_layOut (sizeOf : Nat → Nat → Nat) (offset : Nat) (slices : List Slice) :
    Tiles sizeOf offset (layOut sizeOf offset slices) (offset + sizeOfSlices sizeOf slices) := by
  induction slices generalizing offset with
  | nil => exact ⟨nofun, .nil, nofun, fun _ => rfl, nofun⟩
  | cons slice rest ih =>
    have others := ih (offset + sizeOf slice.width slice.height)
    rw [Nat.add_assoc, ← sizeOfSlices_cons] at others
    exact others.cons

/-- Walking over the pixels and over the texels of a texture, slice by slice and level by level,
ends, and it gives the regions of the same slices, which are all slices in their order. The regions
follow one another from zero up to the size that is added up without them, or up to the sizes of the
slices together. -/
theorem Texture.walks_tile (texture : Texture) (fit : texture.WalksFit) :
    (∀ regions, (SliceWalk.start texture.shape).Gives regions ↔
      regions = texture.shape.rgba8Regions) ∧
    texture.walkedRegions? = some texture.nativeRegions ∧
    texture.shape.walkedRgba8Size? = some texture.shape.rgba8Size ∧
    texture.shape.rgba8Regions.map Region.slice = texture.shape.slices ∧
    texture.nativeRegions.map Region.slice = texture.shape.slices ∧
    texture.shape.Enumerates texture.shape.slices ∧
    (texture.shape.slices = [] ↔
      texture.shape.levels = 0 ∨ ¬ 1 < texture.shape.depth ∧ texture.shape.layers = 0) ∧
    Tiles rgba8SliceSize 0 texture.shape.rgba8Regions texture.shape.rgba8Size ∧
    Tiles texture.format.sliceSize 0 texture.nativeRegions (texture.shape.slices.map fun slice =>
      texture.format.sliceSize slice.width slice.height).sum := by
  have pixels := tiles_layOut rgba8SliceSize 0 texture.shape.slices
  have texels := tiles_layOut texture.format.sliceSize 0 texture.shape.slices
  rw [Nat.zero_add] at pixels texels
  rw [sizeOfSlices_rgba8] at pixels
  exact ⟨fun _ => SliceWalk.gives_start_iff fit.rgba8, walkedRegions?_eq fit.toSizesFit,
    walkedRgba8Size?_eq fit, map_slice_layOut 0 _, map_slice_layOut 0 _,
    texture.shape.enumerates_slices, Shape.slices_eq_nil_iff, pixels, texels⟩

/-- A volume that is five deep has five slices, then two, then one for each of the levels down to
one that no shift of a word reaches. -/
theorem Texture.walks_tile_volume :
    let texture : Texture := ⟨⟨6, 3, 5, 1, 34⟩, .bc1 .linear, .texture3D, []⟩
    texture.WalksFit ∧ ∃ pixels texels,
      (SliceWalk.start texture.shape).Gives pixels ∧ pixels.length = 39 ∧
        pixels.getLast? = some ⟨⟨33, 0, 1, 1⟩, 508, 4⟩ ∧
        texture.shape.walkedRgba8Size? = some 512 ∧
        texture.walkedRegions? = some texels ∧
        texels.getLast? = some ⟨⟨33, 0, 1, 1⟩, 344, 8⟩ := by
  intro texture
  have fit : texture.WalksFit := ⟨⟨by decide, by decide, by decide⟩, by decide⟩
  obtain ⟨pixels, texels, size, _⟩ := texture.walks_tile fit
  have length : texture.shape.rgba8Regions.length = 39 := by decide +kernel
  have last : texture.shape.rgba8Regions.getLast? = some ⟨⟨33, 0, 1, 1⟩, 508, 4⟩ := by
    decide +kernel
  have last' : texture.nativeRegions.getLast? = some ⟨⟨33, 0, 1, 1⟩, 344, 8⟩ := by
    decide +kernel
  have total : texture.shape.rgba8Size = 512 := by decide +kernel
  rw [total] at size
  exact ⟨fit, _, _, (pixels _).mpr rfl, length, last, size, texels, last'⟩

end TextureCache
