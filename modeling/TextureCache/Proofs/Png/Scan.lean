import TextureCache.Import
import TextureCache.Proofs.Layout.Levels

/-! Searching for the slices of a texture. The search goes through levels and within a level through
slices, which is the canonical order of all slices. -/
namespace TextureCache

/-- Go on after a slice, unless the search has ended. -/
def PngScan.andThen (result : PngScan × ScanTurn) (next : PngScan → PngScan × ScanTurn) :
    PngScan × ScanTurn :=
  match result with
  | (scan, .onward) => next scan
  | ended => ended

private theorem PngScan.andThen_assoc (result : PngScan × ScanTurn)
    (first second : PngScan → PngScan × ScanTurn) :
    andThen (andThen result first) second = andThen result fun scan =>
      andThen (first scan) second := by
  obtain ⟨scan, turn⟩ := result
  cases turn <;> rfl

namespace FileView

variable (view : FileView) (directories : List Path) (texture : Texture)

def addAll : List Slice → PngScan → PngScan × ScanTurn
  | [], scan => (scan, .onward)
  | slice :: rest, scan => PngScan.andThen
      (view.addSlice directories texture slice.level slice.index scan) (addAll rest)

variable {view directories texture}

private theorem addAll_append (first second : List Slice) (scan : PngScan) :
    view.addAll directories texture (first ++ second) scan =
      PngScan.andThen (view.addAll directories texture first scan)
        (view.addAll directories texture second) := by
  induction first generalizing scan with
  | nil => rfl
  | cons slice rest ih =>
    rw [List.cons_append, addAll, addAll, PngScan.andThen_assoc]
    exact congrArg _ (funext ih)

private theorem addSlices_eq_addAll (level count index : Nat) (scan : PngScan) :
    view.addSlices directories texture level count index scan =
      view.addAll directories texture
        ((List.range' index count).map (texture.shape.sliceAt level)) scan := by
  induction count generalizing index scan with
  | zero => rfl
  | succ count ih =>
    rw [List.range'_succ, List.map_cons, addAll]
    change PngScan.andThen (view.addSlice directories texture level index scan)
      (view.addSlices directories texture level count (index + 1)) = _
    exact congrArg _ (funext (ih (index + 1)))

private theorem addLevels_eq_addAll (count level : Nat) (scan : PngScan) :
    view.addLevels directories texture count level scan =
      view.addAll directories texture (texture.shape.slicesFrom level count) scan := by
  induction count generalizing level scan with
  | zero => rfl
  | succ count ih =>
    have slices (scan : PngScan) :
        view.addSlices directories texture level (texture.shape.slicesAt level) 0 scan =
          view.addAll directories texture (texture.shape.level level).allSlices scan := by
      rw [Shape.allSlices_level, List.range_eq_range']
      exact addSlices_eq_addAll level _ 0 scan
    rw [Shape.slicesFrom_succ, addAll_append, ← slices]
    change PngScan.andThen
      (view.addSlices directories texture level (texture.shape.slicesAt level) 0 scan)
      (view.addLevels directories texture count (level + 1)) = _
    exact congrArg _ (funext (ih (level + 1)))

/-- The search takes the slices in their canonical order. -/
theorem addLevels_eq_slices (scan : PngScan) :
    view.addLevels directories texture texture.shape.levels.toNat 0 scan =
      view.addAll directories texture texture.shape.slices scan := by
  rw [addLevels_eq_addAll, ← Shape.slices_eq_slicesFrom]

end FileView
end TextureCache
