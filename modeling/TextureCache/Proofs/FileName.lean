import TextureCache.FileName
import TextureCache.Proofs.FileSystem.Walk
import TextureCache.Proofs.Layout

/-! All that a file name says can be told from its text, so different names are different texts; in
particular different slices of a texture have different file names. -/
namespace TextureCache

namespace FileStem

theorem renderNumber_inj {first second : UInt32}
    (same : renderNumber first = renderNumber second) : first = second := by
  have value := congrArg (Nat.ofDigitChars 10 · 0) same
  simp only [renderNumber, Nat.ofDigitChars_ten_toDigits] at value
  exact UInt32.toNat_inj.mp value

/-- Texts that are separated by a mark can be told apart if the mark is not in the first. -/
theorem append_mark_inj {mark : Char} {first first' rest rest' : List Char}
    (absent : mark ∉ first) (absent' : mark ∉ first')
    (same : first ++ mark :: rest = first' ++ mark :: rest') : first = first' ∧ rest = rest' := by
  induction first generalizing first' with
  | nil =>
    cases first' with
    | nil => exact ⟨rfl, (List.cons.inj same).2⟩
    | cons char others => exact absurd (List.mem_cons.mpr (.inl (List.cons.inj same).1)) absent'
  | cons char others ih =>
    cases first' with
    | nil => exact absurd (List.mem_cons.mpr (.inl (List.cons.inj same).1.symm)) absent
    | cons char' others' =>
      obtain ⟨rfl, tails⟩ := List.cons.inj same
      obtain ⟨rfl, rests⟩ := ih (fun member => absent (List.mem_cons_of_mem _ member))
        (fun member => absent' (List.mem_cons_of_mem _ member)) tails
      exact ⟨rfl, rests⟩

private theorem not_mem_renderNumber {mark : Char} (other : mark.isDigit = false)
    (number : UInt32) :
    mark ∉ renderNumber number := by
  intro member
  have digit : mark.isDigit = true := Nat.isDigit_of_mem_toDigits (by decide) (by decide) member
  exact Bool.noConfusion (other.symm.trans digit)

private theorem x_not_mem_renderNumber (number : UInt32) : 'x' ∉ renderNumber number :=
  not_mem_renderNumber rfl number

theorem not_mem_digits {mark : Char} (other : isHexDigit mark = false) (hash : ContentHash) :
    mark ∉ hash.digits := by
  intro member
  exact Bool.noConfusion (other.symm.trans (List.all_eq_true.mp hash.all_hex mark member))

theorem ofWord?_word (kind : NameKind) : NameKind.ofWord? kind.word.toList = some kind := by
  cases kind <;> rfl

private theorem renderSlice_inj {number number' : UInt32} {slice slice' : Option (UInt32 × UInt32)}
    (same : renderNumber number ++ renderSlice slice = renderNumber number' ++ renderSlice slice') :
    number = number' ∧ slice = slice' := by
  have plain (number : UInt32) : '_' ∉ renderNumber number := not_mem_renderNumber rfl number
  -- An underscore is in the texts exactly if a slice is told.
  have absurdly {number number' : UInt32} {rest : List Char}
      (same : renderNumber number = renderNumber number' ++ '_' :: rest) : False :=
    plain number (same ▸ List.mem_append_right _ List.mem_cons_self)
  cases slice with
  | none =>
    rw [renderSlice, List.append_nil] at same
    cases slice' with
    | none =>
      rw [renderSlice, List.append_nil] at same
      exact ⟨renderNumber_inj same, rfl⟩
    | some pair' => exact (absurdly same).elim
  | some pair =>
    obtain ⟨level, index⟩ := pair
    cases slice' with
    | none =>
      rw [renderSlice, renderSlice, List.append_nil] at same
      exact (absurdly same.symm).elim
    | some pair' =>
      obtain ⟨level', index'⟩ := pair'
      obtain ⟨numbers, slices⟩ := append_mark_inj (plain number) (plain number') same
      obtain ⟨levels, indices⟩ :=
        append_mark_inj (x_not_mem_renderNumber level) (x_not_mem_renderNumber level') slices
      rw [renderNumber_inj numbers, renderNumber_inj levels, renderNumber_inj indices]
      exact ⟨rfl, rfl⟩

theorem chars_inj {first second : FileStem} (same : first.chars = second.chars) :
    first = second := by
  obtain ⟨kind, hash, width, height, depthOrLayers, slice⟩ := first
  obtain ⟨kind', hash', width', height', depthOrLayers', slice'⟩ := second
  simp only [chars, List.append_assoc, List.cons_append] at same
  have kinds : ∀ kind : NameKind, '_' ∉ kind.word.toList := by intro kind; cases kind <;> decide
  obtain ⟨word, same⟩ := append_mark_inj (kinds kind) (kinds kind') same
  obtain ⟨digits, same⟩ :=
    append_mark_inj (not_mem_digits rfl hash) (not_mem_digits rfl hash') same
  obtain ⟨wide, same⟩ :=
    append_mark_inj (x_not_mem_renderNumber width) (x_not_mem_renderNumber width') same
  obtain ⟨high, same⟩ :=
    append_mark_inj (x_not_mem_renderNumber height) (x_not_mem_renderNumber height') same
  obtain ⟨rfl, rfl⟩ := renderSlice_inj same
  obtain rfl : kind = kind' := by
    have known := ofWord?_word kind
    rw [word, ofWord?_word] at known
    exact (Option.some.inj known).symm
  obtain rfl : hash = hash' := by
    cases hash
    cases hash'
    cases digits
    rfl
  obtain rfl := renderNumber_inj wide
  obtain rfl := renderNumber_inj high
  rfl

end FileStem

namespace FileName

private theorem head?_render (name : FileName) : name.render.toList.head? = some 't' := by
  have word : name.stem.kind.word.toList.head? = some 't' := by
    cases name.stem.kind <;> decide
  rw [render, FileStem.withExtension, String.toList_ofList]
  simp only [FileStem.chars, List.append_assoc, List.head?_append, word, Option.some_or]

private theorem dot_not_mem_chars (stem : FileStem) : '.' ∉ stem.chars := by
  have kinds : ∀ kind : NameKind, '.' ∉ kind.word.toList := by intro kind; cases kind <;> decide
  have plain (number : UInt32) : '.' ∉ FileStem.renderNumber number :=
    FileStem.not_mem_renderNumber rfl number
  have digits : '.' ∉ stem.hash.digits := FileStem.not_mem_digits rfl stem.hash
  have slice : '.' ∉ FileStem.renderSlice stem.slice := by
    cases stem.slice <;> simp [FileStem.renderSlice, plain]
  simp [FileStem.chars, kinds, plain, digits, slice]

theorem ofExtension?_extension (container : Container) :
    Container.ofExtension? container.extension.toList = some container := by
  cases container <;> rfl

theorem render_inj {first second : FileName} (same : first.render = second.render) :
    first = second := by
  obtain ⟨stem, container⟩ := first
  obtain ⟨stem', container'⟩ := second
  obtain ⟨chars, extension⟩ := FileStem.append_mark_inj (dot_not_mem_chars stem)
    (dot_not_mem_chars stem') (String.ofList_injective same)
  obtain rfl : container = container' := by
    have known := ofExtension?_extension container
    rw [extension, ofExtension?_extension] at known
    exact (Option.some.inj known).symm
  rw [FileStem.chars_inj chars]

/-- A name is an entry of a directory, neither the directory itself nor the one above it. -/
theorem ofSegment_render (name : FileName) :
    FileSystem.LastStep.ofSegment name.render = .name name.render := by
  have head := name.head?_render
  unfold FileSystem.LastStep.ofSegment
  split
  · rename_i empty
    rw [empty] at head
    cases head
  · rename_i dot
    rw [dot] at head
    exact absurd head (by decide)
  · rename_i dots
    rw [dots] at head
    exact absurd head (by decide)
  · rfl

theorem componentOf_render (name : FileName) :
    Path.componentOf name.render = some (.name name.render) := by
  obtain ⟨empty, dot, dots⟩ :=
    FileSystem.LastStep.ofSegment_eq_name_iff.mp name.ofSegment_render
  unfold Path.componentOf
  split
  · exact absurd ‹_› empty
  · exact absurd ‹_› dot
  · exact absurd ‹_› dots
  · rfl

end FileName

/-- The file name of a slice tells the slice and the texture's own name. -/
theorem Texture.sliceName_inj {first second : Texture} {level level' index index' : Nat}
    (level_lt : level < 2 ^ 32) (level_lt' : level' < 2 ^ 32) (index_lt : index < 2 ^ 32)
    (index_lt' : index' < 2 ^ 32)
    (same : (first.sliceName level index).render = (second.sliceName level' index').render) :
    first.fileStem = second.fileStem ∧ level = level' ∧ index = index' := by
  have stems := congrArg FileName.stem (FileName.render_inj same)
  obtain ⟨levels, indices⟩ := Prod.mk.inj (Option.some.inj (congrArg FileStem.slice stems))
  have whole : first.fileStem = second.fileStem :=
    congrArg (fun stem : FileStem => { stem with slice := none }) stems
  have toNat {first second : Nat} (bound : first < 2 ^ 32) (bound' : second < 2 ^ 32)
      (equal : UInt32.ofNat first = UInt32.ofNat second) : first = second := by
    have value := congrArg UInt32.toNat equal
    rwa [UInt32.toNat_ofNat', UInt32.toNat_ofNat', Nat.mod_eq_of_lt bound,
      Nat.mod_eq_of_lt bound'] at value
  exact ⟨whole, toNat level_lt level_lt' levels, toNat index_lt index_lt' indices⟩

namespace Texture

def sliceNames (texture : Texture) : List String :=
  texture.shape.slices.map fun slice => (texture.sliceName slice.level slice.index).render

theorem nodup_sliceNames (texture : Texture) : texture.sliceNames.Nodup := by
  apply List.Nodup.map_on _ texture.shape.nodup_slices
  intro first member second member' same
  obtain ⟨level, index, width, height⟩ := first
  obtain ⟨level', index', width', height'⟩ := second
  obtain ⟨inChain, inLevel, wide, high⟩ := Shape.mem_slices_iff.mp member
  obtain ⟨inChain', inLevel', wide', high'⟩ := Shape.mem_slices_iff.mp member'
  have chain := texture.shape.levels.toNat_lt
  obtain ⟨_, levels, indices⟩ := sliceName_inj (Nat.lt_trans inChain chain)
    (Nat.lt_trans inChain' chain) (Nat.lt_trans inLevel (texture.shape.slicesAt_lt level))
    (Nat.lt_trans inLevel' (texture.shape.slicesAt_lt level')) same
  dsimp only at wide high wide' high' levels indices
  subst levels indices wide high wide' high'
  rfl

end Texture
end TextureCache
