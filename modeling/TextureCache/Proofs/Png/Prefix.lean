import TextureCache.Import
import TextureCache.Proofs.Png.Extent

/-! The slices that are of use to a search: the longest run of usable slices from the first one on.
A slice is usable when the first directory that holds its name has a readable file there, with the
extents that the first slice predicts and with pixels that load. -/
namespace TextureCache

def Texture.nameOf (texture : Texture) (slice : Slice) : String :=
  (texture.sliceName slice.level slice.index).render

/-- A file has the extents that a first slice predicts for a level. -/
def PngScan.HasExtents (width height : UInt32) (level : Nat) (file : Bytes) : Prop :=
  ∃ info, Png.loadHeader file = .ok info ∧ info.width.toNat = mipExtent width.toNat level ∧
    info.height.toNat = mipExtent height.toNat level

theorem PngScan.hasExtents_iff {width height : UInt32} {file : Bytes} {info : ImageInfo}
    {level : Nat} (header : Png.loadHeader file = .ok info) :
    HasExtents width height level file ↔ info.width.toNat = mipExtent width.toNat level ∧
      info.height.toNat = mipExtent height.toNat level := by
  constructor
  · rintro ⟨other, same, extents⟩
    cases header.symm.trans same
    exact extents
  · exact fun extents => ⟨info, header, extents⟩

namespace FileView

section Usable

variable (view : FileView) (directories : List Path) (texture : Texture)

/-- The file in which a search finds a slice, if that file can be read. -/
def sliceFile? (slice : Slice) : Option Bytes := do
  let path ← view.firstMatch? directories (texture.nameOf slice)
  (view.read path).toOption

/-- The extents that the file of a slice tells. -/
def extents? (slice : Slice) : Option (UInt32 × UInt32) := do
  let file ← view.sliceFile? directories texture slice
  let info ← (Png.loadHeader file).toOption
  some (info.width, info.height)

variable (width height : UInt32)

/-- The pixels of a slice that is usable, given the extents of the first one. -/
def usable? (slice : Slice) : Option Bytes := do
  let file ← view.sliceFile? directories texture slice
  let info ← (Png.loadHeader file).toOption
  if info.width.toNat = mipExtent width.toNat slice.level ∧
      info.height.toNat = mipExtent height.toNat slice.level then
    (Png.loadPixels file).toOption
  else none

/-- The file of a slice has the predicted extents, but its reader breaks off. -/
def Breaks (slice : Slice) : Prop :=
  ∃ file, view.sliceFile? directories texture slice = some file ∧
    PngScan.HasExtents width height slice.level file ∧ Png.loadPixels file = .error .broken

/-- The longest run of usable slices at the start of some slices, with their pixels. -/
def usablePrefix : List Slice → List (Slice × Bytes)
  | [] => []
  | slice :: rest =>
    match view.usable? directories texture width height slice with
    | some pixels => (slice, pixels) :: usablePrefix rest
    | none => []

/-- The slice behind the usable ones breaks the search off. -/
def BreaksBehind (slices : List Slice) : Prop :=
  let found := view.usablePrefix directories texture width height slices
  ∃ slice, (slices.drop found.length).head? = some slice ∧
    view.Breaks directories texture width height slice

end Usable

variable {view : FileView} {directories : List Path} {texture : Texture} {width height : UInt32}
  {slice : Slice}

theorem usable?_eq_some_iff {pixels : Bytes} :
    view.usable? directories texture width height slice = some pixels ↔
      ∃ file, view.sliceFile? directories texture slice = some file ∧
        PngScan.HasExtents width height slice.level file ∧ Png.loadPixels file = .ok pixels := by
  unfold usable? PngScan.HasExtents
  simp only [Option.bind_eq_bind, Option.bind_eq_some_iff, toOption_eq_some_iff]
  constructor
  · rintro ⟨file, found, info, header, loaded⟩
    split at loaded
    · rename_i extents
      exact ⟨file, found, ⟨info, header, extents⟩, toOption_eq_some_iff.mp loaded⟩
    · cases loaded
  · rintro ⟨file, found, ⟨info, header, extents⟩, loaded⟩
    exact ⟨file, found, info, header, by rw [if_pos extents, loaded]; rfl⟩

theorem usablePrefix_cons_of_usable {pixels : Bytes} (rest : List Slice)
    (usable : view.usable? directories texture width height slice = some pixels) :
    view.usablePrefix directories texture width height (slice :: rest) =
      (slice, pixels) :: view.usablePrefix directories texture width height rest := by
  rw [usablePrefix, usable]

theorem usablePrefix_cons_of_unusable (rest : List Slice)
    (unusable : view.usable? directories texture width height slice = none) :
    view.usablePrefix directories texture width height (slice :: rest) = [] := by
  rw [usablePrefix, unusable]

theorem map_fst_usablePrefix (slices : List Slice) :
    (view.usablePrefix directories texture width height slices).map Prod.fst =
      slices.take (view.usablePrefix directories texture width height slices).length := by
  induction slices with
  | nil => rfl
  | cons slice rest ih =>
    cases usable : view.usable? directories texture width height slice with
    | none =>
      rw [usablePrefix_cons_of_unusable rest usable]
      rfl
    | some pixels =>
      rw [usablePrefix_cons_of_usable rest usable, List.map_cons, ih, List.length_cons,
        List.take_succ_cons]

theorem usable_of_mem_usablePrefix {slices : List Slice} {pair : Slice × Bytes}
    (member : pair ∈ view.usablePrefix directories texture width height slices) :
    view.usable? directories texture width height pair.1 = some pair.2 := by
  induction slices with
  | nil => cases member
  | cons slice rest ih =>
    cases usable : view.usable? directories texture width height slice with
    | none =>
      rw [usablePrefix_cons_of_unusable rest usable] at member
      cases member
    | some pixels =>
      rw [usablePrefix_cons_of_usable rest usable] at member
      rcases List.mem_cons.mp member with rfl | later
      · exact usable
      · exact ih later

theorem extents?_eq_some_iff {extents : UInt32 × UInt32} :
    view.extents? directories texture slice = some extents ↔
      ∃ file info, view.sliceFile? directories texture slice = some file ∧
        Png.loadHeader file = .ok info ∧ (info.width, info.height) = extents := by
  unfold extents?
  simp only [Option.bind_eq_bind, Option.bind_eq_some_iff, toOption_eq_some_iff, Option.some.injEq]
  constructor
  · rintro ⟨file, found, info, header, same⟩
    exact ⟨file, info, found, header, same⟩
  · rintro ⟨file, info, found, header, same⟩
    exact ⟨file, found, info, header, same⟩

theorem usable?_of_file {file pixels : Bytes}
    (found : view.sliceFile? directories texture slice = some file) :
    view.usable? directories texture width height slice = some pixels ↔
      PngScan.HasExtents width height slice.level file ∧ Png.loadPixels file = .ok pixels := by
  rw [usable?_eq_some_iff]
  constructor
  · rintro ⟨other, again, fits, loaded⟩
    cases found.symm.trans again
    exact ⟨fits, loaded⟩
  · exact fun ⟨fits, loaded⟩ => ⟨file, found, fits, loaded⟩

theorem breaks_of_file {file : Bytes}
    (found : view.sliceFile? directories texture slice = some file) :
    view.Breaks directories texture width height slice ↔
      PngScan.HasExtents width height slice.level file ∧ Png.loadPixels file = .error .broken := by
  constructor
  · rintro ⟨other, again, fits, broken⟩
    cases found.symm.trans again
    exact ⟨fits, broken⟩
  · exact fun ⟨fits, broken⟩ => ⟨file, found, fits, broken⟩

/-- A slice without extents is not usable, and it does not break the search off. -/
theorem unusable_of_headless (headless : view.extents? directories texture slice = none) :
    view.usable? directories texture width height slice = none ∧
      ¬ view.Breaks directories texture width height slice := by
  have unfit (file : Bytes) (found : view.sliceFile? directories texture slice = some file) :
      ¬ PngScan.HasExtents width height slice.level file := by
    rintro ⟨info, header, _⟩
    cases headless.symm.trans (extents?_eq_some_iff.mpr ⟨file, info, found, header, rfl⟩)
  constructor
  · apply Option.eq_none_iff_forall_ne_some.mpr
    intro pixels usable
    obtain ⟨file, found, fits, _⟩ := usable?_eq_some_iff.mp usable
    exact unfit file found fits
  · rintro ⟨file, found, fits, _⟩
    exact unfit file found fits

theorem breaksBehind_cons_of_usable {pixels : Bytes} (rest : List Slice)
    (usable : view.usable? directories texture width height slice = some pixels) :
    view.BreaksBehind directories texture width height (slice :: rest) ↔
      view.BreaksBehind directories texture width height rest := by
  unfold BreaksBehind
  dsimp only
  rw [usablePrefix_cons_of_usable rest usable, List.length_cons, List.drop_succ_cons]

theorem breaksBehind_cons_of_unusable (rest : List Slice)
    (unusable : view.usable? directories texture width height slice = none) :
    view.BreaksBehind directories texture width height (slice :: rest) ↔
      view.Breaks directories texture width height slice := by
  unfold BreaksBehind
  dsimp only
  rw [usablePrefix_cons_of_unusable rest unusable, List.length_nil, List.drop_zero,
    List.head?_cons]
  simp

end FileView
end TextureCache
