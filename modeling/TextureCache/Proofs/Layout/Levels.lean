import Mathlib.Data.List.Nodup
import TextureCache.Proofs.Layout

/-! The slices of a texture level by level. The slices that lie before a given one are those of the
levels above its own and those of its own level with a smaller index, so that exactly the levels
above are complete. -/
namespace TextureCache

namespace Level

def allSlices (level : Level) : List Slice :=
  (List.range level.slices).map fun index => ⟨level.index, index, level.width, level.height⟩

@[simp] theorem length_allSlices (level : Level) : level.allSlices.length = level.slices := by
  rw [allSlices, List.length_map, List.length_range]

theorem index_of_mem_allSlices {level : Level} {slice : Slice} (member : slice ∈ level.allSlices) :
    slice.level = level.index := by
  obtain ⟨index, _, rfl⟩ := List.mem_map.mp member
  rfl

end Level

namespace Shape

variable {shape : Shape} {level index : Nat} {slice : Slice}

def slicesFrom (shape : Shape) (level count : Nat) : List Slice :=
  ((List.range' level count).map shape.level).flatMap Level.allSlices

theorem slices_eq_slicesFrom (shape : Shape) :
    shape.slices = shape.slicesFrom 0 shape.levels.toNat := by
  rw [slicesFrom, ← List.range_eq_range']
  rfl

theorem slicesFrom_succ (level count : Nat) :
    shape.slicesFrom level (count + 1) =
      (shape.level level).allSlices ++ shape.slicesFrom (level + 1) count := by
  rw [slicesFrom, List.range'_succ, List.map_cons, List.flatMap_cons]
  rfl

theorem slicesFrom_add (level first second : Nat) :
    shape.slicesFrom level (first + second) =
      shape.slicesFrom level first ++ shape.slicesFrom (level + first) second := by
  unfold slicesFrom
  rw [← List.range'_append_1, List.map_append, List.flatMap_append]

theorem level_of_mem_slicesFrom {count : Nat} (member : slice ∈ shape.slicesFrom level count) :
    level ≤ slice.level ∧ slice.level < level + count := by
  obtain ⟨found, inside, slices⟩ := List.mem_flatMap.mp member
  obtain ⟨index, range, rfl⟩ := List.mem_map.mp inside
  rw [Level.index_of_mem_allSlices slices]
  exact List.mem_range'_1.mp range

theorem filter_slices {levels : Nat} (few : levels ≤ shape.levels.toNat) :
    shape.slices.filter (·.level < levels) = shape.slicesFrom 0 levels := by
  obtain ⟨further, all⟩ := Nat.exists_eq_add_of_le few
  rw [slices_eq_slicesFrom, all, slicesFrom_add, List.filter_append, List.filter_eq_self.mpr,
    List.filter_eq_nil_iff.mpr, List.append_nil]
  · intro slice member
    have later := (level_of_mem_slicesFrom member).1
    rw [decide_eq_true_eq]
    omega
  · intro slice member
    have within := (level_of_mem_slicesFrom member).2
    rw [decide_eq_true_eq]
    omega

theorem level_of_mem_take {count : Nat} (few : count ≤ shape.slicesAt 0)
    (member : slice ∈ shape.slices.take count) : slice.level = 0 := by
  rw [slices_eq_slicesFrom] at member
  cases levels : shape.levels.toNat with
  | zero =>
    rw [levels, slicesFrom] at member
    cases List.mem_of_mem_take member
  | succ lower =>
    have room : count ≤ (shape.level 0).allSlices.length := by
      rw [Level.length_allSlices]
      exact few
    rw [levels, slicesFrom_succ, List.take_append_of_le_length room] at member
    exact Level.index_of_mem_allSlices (List.mem_of_mem_take member)

/-! ## The slices before a slice -/

def sliceAt (shape : Shape) (level index : Nat) : Slice :=
  ⟨level, index, mipExtent shape.width.toNat level, mipExtent shape.height.toNat level⟩

theorem eq_sliceAt_of_mem (member : slice ∈ shape.slices) :
    slice = shape.sliceAt slice.level slice.index := by
  obtain ⟨_, _, width, height⟩ := mem_slices_iff.mp member
  rw [sliceAt, ← width, ← height]

theorem allSlices_level (shape : Shape) (level : Nat) :
    (shape.level level).allSlices =
      (List.range (shape.slicesAt level)).map (shape.sliceAt level) := rfl

def slicesBefore (shape : Shape) (level index : Nat) : List Slice :=
  shape.slicesFrom 0 level ++ (List.range index).map (shape.sliceAt level)

theorem slices_eq_before (inChain : level < shape.levels.toNat)
    (inLevel : index < shape.slicesAt level) :
    ∃ after, shape.slices =
      shape.slicesBefore level index ++ shape.sliceAt level index :: after := by
  obtain ⟨lower, levels⟩ := Nat.exists_eq_add_of_lt inChain
  obtain ⟨others, slices⟩ := Nat.exists_eq_add_of_lt inLevel
  rw [slices_eq_slicesFrom, levels, Nat.add_assoc, slicesFrom_add, Nat.zero_add, slicesFrom_succ,
    allSlices_level, slices, Nat.add_assoc, List.range_add, List.range_succ_eq_map]
  simp only [List.map_append, List.map_cons, List.append_assoc, List.cons_append, Nat.add_zero,
    slicesBefore]
  exact ⟨_, rfl⟩

/-- What stands before a slice in canonical order are the slices before it. -/
theorem before_eq_slicesBefore {before after : List Slice}
    (split : shape.slices = before ++ slice :: after) :
    slice.level < shape.levels.toNat ∧ slice.index < shape.slicesAt slice.level ∧
      before = shape.slicesBefore slice.level slice.index := by
  have member : slice ∈ shape.slices := by simp [split]
  obtain ⟨inChain, inLevel, _⟩ := mem_slices_iff.mp member
  obtain ⟨others, again⟩ := slices_eq_before inChain inLevel
  have distinct := shape.nodup_slices
  rw [← eq_sliceAt_of_mem member] at again
  rw [split] at again distinct
  obtain ⟨_, once, apart⟩ := List.nodup_append.mp distinct
  have first : slice ∉ before := fun early => apart _ early _ List.mem_cons_self rfl
  have last : slice ∉ after := (List.nodup_cons.mp once).1
  exact ⟨inChain, inLevel, ((List.append_cons_inj_of_notMem first last).mp again).1⟩

theorem slicesBefore_succ (shape : Shape) (level index : Nat) :
    shape.slicesBefore level (index + 1) =
      shape.slicesBefore level index ++ [shape.sliceAt level index] := by
  rw [slicesBefore, slicesBefore, List.range_succ, List.map_append, List.append_assoc]
  rfl

theorem level_le_of_mem_slicesBefore (member : slice ∈ shape.slicesBefore level index) :
    slice.level ≤ level := by
  rcases List.mem_append.mp member with above | own
  · have := (level_of_mem_slicesFrom above).2
    omega
  · obtain ⟨_, _, rfl⟩ := List.mem_map.mp own
    exact Nat.le_refl level

theorem length_slicesBefore_zero (shape : Shape) (index : Nat) :
    (shape.slicesBefore 0 index).length = index := by
  rw [slicesBefore, List.length_append, List.length_map, List.length_range]
  exact Nat.zero_add _

/-- Below the top level all slices of the top level lie before a slice. -/
theorem slicesAt_zero_le_length (shape : Shape) (below : 0 < level) (index : Nat) :
    shape.slicesAt 0 ≤ (shape.slicesBefore level index).length := by
  obtain ⟨upper, rfl⟩ := Nat.exists_eq_succ_of_ne_zero (Nat.ne_of_gt below)
  rw [slicesBefore, slicesFrom_succ, List.length_append, List.length_append,
    Level.length_allSlices]
  change shape.slicesAt 0 ≤ shape.slicesAt 0 + _ + _
  omega

/-! ## Complete levels -/

theorem filled_of_mem (member : slice ∈ shape.slices) : ∀ level, 0 < shape.slicesAt level := by
  obtain ⟨_, inside, _⟩ := mem_slices_iff.mp member
  intro level
  unfold slicesAt at inside ⊢
  split
  · exact mipExtent_pos _ _
  · rename_i flat
    rw [if_neg flat] at inside
    exact Nat.zero_lt_of_lt inside

theorem level_of_head {first : Slice} {rest : List Slice} (slices : shape.slices = first :: rest) :
    first.level = 0 := by
  have member : first ∈ shape.slices := slices ▸ List.mem_cons_self
  apply level_of_mem_take (filled_of_mem member 0)
  rw [slices]
  exact List.mem_cons_self

/-- The levels all of whose slices are among some slices. -/
def levelsWithin (shape : Shape) (taken : List Slice) : List Level :=
  shape.mipChain.filter fun level => level.allSlices.all (· ∈ taken)

theorem length_levelsWithin_le (shape : Shape) (taken : List Slice) :
    (shape.levelsWithin taken).length ≤ shape.levels.toNat := by
  have most := List.length_filter_le (fun level : Level => level.allSlices.all (· ∈ taken))
    shape.mipChain
  rwa [mipChain, List.length_map, List.length_range] at most

private theorem sliceAt_mem_slicesBefore_iff {other position : Nat} :
    shape.sliceAt other position ∈ shape.slicesBefore level index ↔
      other < level ∧ position < shape.slicesAt other ∨ other = level ∧ position < index := by
  unfold slicesBefore slicesFrom
  simp only [List.mem_append, List.mem_flatMap, List.mem_map, List.mem_range'_1, List.mem_range]
  constructor
  · rintro (⟨_, ⟨upper, above, rfl⟩, inside⟩ | ⟨earlier, before, same⟩)
    · rw [allSlices_level] at inside
      obtain ⟨earlier, bound, same⟩ := List.mem_map.mp inside
      cases same
      exact .inl ⟨by omega, List.mem_range.mp bound⟩
    · cases same
      exact .inr ⟨rfl, before⟩
  · rintro (⟨above, bound⟩ | ⟨rfl, before⟩)
    · refine .inl ⟨_, ⟨other, by omega, rfl⟩, ?_⟩
      rw [allSlices_level]
      exact List.mem_map_of_mem (List.mem_range.mpr bound)
    · exact .inr ⟨position, before, rfl⟩

/-- A level is complete before a slice if it lies above, or if the slice lies behind its own
level. -/
theorem allSlices_within_iff (filled : ∀ level, 0 < shape.slicesAt level) {other : Nat} :
    (shape.level other).allSlices.all (· ∈ shape.slicesBefore level index) = true ↔
      other < level ∨ other = level ∧ shape.slicesAt level ≤ index := by
  rw [allSlices_level, List.all_map, List.all_eq_true]
  simp only [List.mem_range, Function.comp_apply, decide_eq_true_eq, sliceAt_mem_slicesBefore_iff]
  constructor
  · intro all
    have positive := filled other
    rcases all (shape.slicesAt other - 1) (by omega) with above | ⟨rfl, last⟩
    · exact .inl above.1
    · exact .inr ⟨rfl, by omega⟩
  · rintro (above | ⟨rfl, whole⟩) position bound
    · exact .inl ⟨above, bound⟩
    · exact .inr ⟨rfl, by omega⟩

/-- The levels that are complete before a slice are those above its own, and its own one if the
slice lies behind it. -/
theorem length_levelsWithin (filled : ∀ level, 0 < shape.slicesAt level)
    (inChain : level < shape.levels.toNat) :
    (shape.levelsWithin (shape.slicesBefore level index)).length =
      if shape.slicesAt level ≤ index then level + 1 else level := by
  have filtered {complete : Nat} (few : complete ≤ shape.levels.toNat)
      (iff : ∀ other, (shape.level other).allSlices.all
        (· ∈ shape.slicesBefore level index) = true ↔ other < complete) :
      (shape.levelsWithin (shape.slicesBefore level index)).length = complete := by
    obtain ⟨further, levels⟩ := Nat.exists_eq_add_of_le few
    rw [levelsWithin, mipChain, List.filter_map, List.length_map, levels, List.range_add,
      List.filter_append, List.filter_eq_self.mpr, List.filter_eq_nil_iff.mpr, List.append_nil,
      List.length_range]
    · intro other member
      obtain ⟨behind, _, rfl⟩ := List.mem_map.mp member
      exact mt (iff _).mp (by omega)
    · exact fun other member => (iff other).mpr (List.mem_range.mp member)
  split
  · rename_i whole
    exact filtered inChain fun other => (allSlices_within_iff filled).trans (by omega)
  · rename_i part
    exact filtered (Nat.le_of_lt inChain) fun other =>
      (allSlices_within_iff filled).trans (by omega)

theorem length_levelsWithin_nil (member : slice ∈ shape.slices) :
    (shape.levelsWithin []).length = 0 := by
  have filled := filled_of_mem member
  have mipped := Nat.zero_lt_of_lt (mem_slices_iff.mp member).1
  have none : (shape.levelsWithin (shape.slicesBefore 0 0)).length = _ :=
    length_levelsWithin filled mipped
  rwa [if_neg (Nat.not_le.mpr (filled 0))] at none

theorem length_levelsWithin_slices (shape : Shape) :
    (shape.levelsWithin shape.slices).length = shape.levels.toNat := by
  have all : shape.levelsWithin shape.slices = shape.mipChain := by
    apply List.filter_eq_self.mpr
    intro level member
    rw [List.all_eq_true]
    intro slice inside
    exact decide_eq_true (List.mem_flatMap.mpr ⟨level, member, inside⟩)
  rw [all, mipChain, List.length_map, List.length_range]

/-- The first slices are those of the complete levels and some of the next one. -/
theorem exists_take_slices (filled : ∀ level, 0 < shape.slicesAt level)
    (mipped : 0 < shape.levels.toNat) (count : Nat) {levels : Nat}
    (complete : (shape.levelsWithin (shape.slices.take count)).length = levels) :
    ∃ part, shape.slices.take count = shape.slicesFrom 0 levels ++ part ∧
      (∀ slice ∈ part, slice.level = levels) ∧
      (levels = 0 → part.length < shape.slicesAt 0) := by
  cases behind : shape.slices.drop count with
  | nil =>
    rw [List.take_of_length_le (List.drop_eq_nil_iff.mp behind)] at complete ⊢
    rw [length_levelsWithin_slices] at complete
    subst complete
    exact ⟨[], by rw [List.append_nil, ← slices_eq_slicesFrom], nofun, fun none => by omega⟩
  | cons slice after =>
    have split : shape.slices = shape.slices.take count ++ slice :: after := by
      rw [← behind, List.take_append_drop]
    obtain ⟨inChain, inLevel, before⟩ := before_eq_slicesBefore split
    rw [before, length_levelsWithin filled inChain, if_neg (Nat.not_le.mpr inLevel)] at complete
    subst complete
    refine ⟨_, before, fun other member => ?_, fun top => ?_⟩
    · obtain ⟨_, _, rfl⟩ := List.mem_map.mp member
      rfl
    · rw [List.length_map, List.length_range, ← top]
      exact inLevel

end Shape
end TextureCache
