import TextureCache.Proofs.FileName.Spelling

/-! Every name that is written is recognised, as what it was written for, and tells what it says of
a texture. Not every text that is recognised is one that is written: numbers may be spelled in other
ways. -/
namespace TextureCache

namespace FileName

theorem parse?_render (name : FileName) : parse? name.render = some name :=
  parse?_eq_some_iff.mpr ⟨.written name, Spelling.text_written name, Spelling.name_written name⟩

/-- A name says of a texture, or of a slice of it, all that names tell. -/
structure Describes (name : FileName) (texture : Texture) (slice : Option (UInt32 × UInt32))
    (container : Container) : Prop where
  kind : name.stem.kind = .ofTarget texture.target
  hash : name.stem.hash = .ofBytes texture.data
  width : name.stem.width = texture.shape.width
  height : name.stem.height = texture.shape.height
  depthOrLayers : name.stem.depthOrLayers.toNat =
    texture.shape.depth.toNat * texture.shape.layers.toNat
  slice : name.stem.slice = slice
  container : name.container = container

/-- The name of a texture or of a slice describes it, as long as the product does not wrap. -/
theorem describes_own {texture : Texture}
    (fits : texture.shape.depth.toNat * texture.shape.layers.toNat < 2 ^ 32)
    (slice : Option (UInt32 × UInt32)) (container : Container) :
    Describes ⟨{ texture.fileStem with slice }, container⟩ texture slice container where
  kind := rfl
  hash := rfl
  width := rfl
  height := rfl
  depthOrLayers := by
    change (texture.shape.depth * texture.shape.layers).toNat = _
    rw [UInt32.toNat_mul, Nat.mod_eq_of_lt fits]
  slice := rfl
  container := rfl

/-- The names of a texture and of all its slices are recognised in their texts, and what is
recognised tells the texture's kind, digest, extents and slice count, the slice and the container.
No two names have the same text. -/
theorem parse?_ownName (texture : Texture)
    (fits : texture.shape.depth.toNat * texture.shape.layers.toNat < 2 ^ 32)
    (container : Container) :
    (∃ name, parse? (texture.fileName container).render = some name ∧
      name.Describes texture none container) ∧
    (∀ level index, ∃ name,
      parse? (render ⟨texture.fileStem.ofSlice level index, container⟩) = some name ∧
        name.Describes texture (some (level, index)) container) ∧
    ∀ first second : FileName, first.render = second.render → first = second :=
  ⟨⟨_, parse?_render _, describes_own fits none container⟩,
    fun _ _ => ⟨_, parse?_render _, describes_own fits _ container⟩,
    fun _ _ => render_inj⟩

/-- A slice of a volume that is four deep. -/
theorem parse?_ownName_volume :
    let texture : Texture := ⟨⟨8, 8, 4, 1, 2⟩, .rgba8 .linear, .texture3D, [1, 2, 3]⟩
    4 * 1 < 2 ^ 32 ∧ ∃ name,
      parse? (render ⟨texture.fileStem.ofSlice 1 2, .png⟩) = some name ∧
        name.stem.kind = .volume ∧ name.stem.depthOrLayers.toNat = 4 ∧
        name.stem.slice = some (1, 2) := by
  intro texture
  obtain ⟨name, read, described⟩ := (parse?_ownName texture (by decide) .png).2.1 1 2
  exact ⟨by decide, name, read, described.kind, described.depthOrLayers, described.slice⟩

/-- Recognised are exactly the spellings of names, as the names that are spelled. What is written
for a name is its spelling without surplus; so a text that is recognised is one that is never
written exactly if a number in it has a plus sign or zeros in front of its digits. -/
theorem parse?_spelled (text : String) (name : FileName) :
    (parse? text = some name ↔
      ∃ spelling : Spelling, spelling.text = text ∧ spelling.name = name) ∧
    (name.render = text ↔
      ∃ spelling : Spelling, spelling.text = text ∧ spelling.name = name ∧ spelling.surplus = 0) ∧
    ((parse? text = some name ∧ ∀ other : FileName, other.render ≠ text) ↔
      ∃ spelling : Spelling,
        spelling.text = text ∧ spelling.name = name ∧ 0 < spelling.surplus) := by
  refine ⟨parse?_eq_some_iff, ⟨?_, ?_⟩, ⟨?_, ?_⟩⟩
  · rintro rfl
    obtain ⟨spelling, written, rfl⟩ := parse?_eq_some_iff.mp (parse?_render name)
    exact ⟨spelling, written, rfl, spelling.text_eq_render_iff.mp written⟩
  · rintro ⟨spelling, rfl, rfl, plain⟩
    exact (spelling.text_eq_render_iff.mpr plain).symm
  · rintro ⟨read, unwritten⟩
    obtain ⟨spelling, rfl, rfl⟩ := parse?_eq_some_iff.mp read
    refine ⟨spelling, rfl, rfl, Nat.pos_of_ne_zero fun plain => ?_⟩
    exact unwritten _ (spelling.text_eq_render_iff.mpr plain).symm
  · rintro ⟨spelling, rfl, rfl, surplus⟩
    have read := parse?_eq_some_iff.mpr ⟨spelling, rfl, rfl⟩
    refine ⟨read, fun other written => ?_⟩
    -- A text that is written for a name is recognised as that name.
    rw [← written, parse?_render] at read
    cases read
    exact Nat.ne_of_gt surplus (spelling.text_eq_render_iff.mp written.symm)

/-- A name with a sign and with a zero in front is recognised, and it is not what is written. -/
theorem parse?_spelled_signed :
    let hash := "0123456789abcdef0123456789abcdef"
    let text := "tex2d_" ++ hash ++ "_+8x08x1.dds"
    (parse? text).map render = some ("tex2d_" ++ hash ++ "_8x8x1.dds") ∧
      "tex2d_" ++ hash ++ "_8x8x1.dds" ≠ text := by
  decide

end FileName
end TextureCache
