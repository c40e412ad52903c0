import Mathlib.Data.Option.Basic
import TextureCache.Proofs.Layout
import TextureCache.Png.File

/-! What a PNG file decodes to fills the extents that its header tells, whatever the file holds. The
rows of a frame may be fewer and shorter than those of the image, but a frame lies within its image,
and blank pixels make up for the rest. -/
namespace TextureCache

private theorem bind_eq_ok_iff {Fault First Second : Type} {action : Except Fault First}
    {next : First → Except Fault Second} {result : Second} :
    (action >>= next) = .ok result ↔ ∃ value, action = .ok value ∧ next value = .ok result := by
  cases action with
  | error fault => simp [bind, Except.bind]
  | ok value => simp [bind, Except.bind]

theorem map_eq_ok_iff {Fault First Second : Type} {action : Except Fault First}
    {change : First → Second} {result : Second} :
    action.map change = .ok result ↔ ∃ value, action = .ok value ∧ change value = result := by
  cases action <;> simp [Except.map]

private theorem mapError_eq_ok_iff {Fault Other Value : Type} {action : Except Fault Value}
    {change : Fault → Other} {result : Value} :
    action.mapError change = .ok result ↔ action = .ok result := by
  cases action <;> simp [Except.mapError]

theorem toOption_eq_some_iff {Fault Value : Type} {action : Except Fault Value} {result : Value} :
    action.toOption = some result ↔ action = .ok result := by
  cases action <;> simp [Except.toOption]

namespace Png

namespace Preamble

/-- The image is not empty, and the stored image lies within it. -/
structure Framed (preamble : Preamble) : Prop where
  width : preamble.header.width ≠ 0
  height : preamble.header.height ≠ 0
  across : preamble.extents.1 ≤ preamble.header.width.toNat
  down : preamble.extents.2 ≤ preamble.header.height.toNat

variable {preamble next : Preamble} {file rest : Bytes}

private theorem within_of_frame {header : Header} {previous : Option Frame} {body : Bytes}
    {frame : Frame} (read : Frame.ofBytes? header previous body = some frame) :
    frame.width ≤ header.width.toNat ∧ frame.height ≤ header.height.toNat := by
  unfold Frame.ofBytes? at read
  simp only [Option.bind_eq_bind, Option.bind_eq_some_iff, Option.guard_eq_some'] at read
  obtain ⟨_, _, _, _, _, inside, same⟩ := read
  cases same
  exact ⟨(Nat.le_add_left _ _).trans inside.1, (Nat.le_add_left _ _).trans inside.2⟩

/-- No chunk changes the header, and only the description of a frame changes the extents. -/
theorem Framed.add? (framed : preamble.Framed) {kind : Kind} {body : Bytes}
    (added : preamble.add? kind body = some next) : next.Framed := by
  obtain ⟨width, height, across, down⟩ := framed
  unfold Preamble.add? at added
  split at added
  · cases added
  split at added
  · cases added
    exact ⟨width, height, across, down⟩
  split at added
  · split at added <;> cases added
    exact ⟨width, height, across, down⟩
  split at added
  · split at added <;> cases added
    exact ⟨width, height, across, down⟩
  split at added
  · split at added <;> cases added
    exact ⟨width, height, across, down⟩
  split at added
  · obtain ⟨frame, read, rfl⟩ := Option.map_eq_some_iff.mp added
    obtain ⟨across, down⟩ := within_of_frame read
    exact ⟨width, height, across, down⟩
  · cases added
    exact ⟨width, height, across, down⟩

theorem Framed.addChunk (framed : preamble.Framed) {chunk : Chunk}
    (added : preamble.addChunk chunk = .ok next) : next.Framed := by
  have passed {grown : Preamble} (ended : (chunk.verify >>= fun _ =>
      if chunk.kind = Kind.fileEnd then .error LoadError.corruptedHeader else .ok grown) =
        .ok next) : grown = next := by
    obtain ⟨_, _, ended⟩ := bind_eq_ok_iff.mp ended
    split at ended <;> cases ended
    rfl
  unfold Preamble.addChunk at added
  obtain ⟨content, _, added⟩ := bind_eq_ok_iff.mp added
  cases content with
  | none => exact passed added ▸ framed
  | some body =>
    cases found : preamble.add? chunk.kind body with
    | none =>
      simp only [found] at added
      cases added
    | some grown =>
      simp only [found] at added
      exact passed added ▸ framed.add? found

theorem Framed.readChunks (framed : preamble.Framed) (fuel : Nat)
    (read : Preamble.readChunks fuel preamble file = .ok (next, rest)) : next.Framed := by
  induction fuel generalizing preamble file with
  | zero => cases read
  | succ fuel ih =>
    unfold Preamble.readChunks at read
    split at read
    · cases read
    · split at read
      · cases read
        exact framed
      · split at read
        · split at read <;> cases read
          exact framed
        · obtain ⟨grown, added, further⟩ := bind_eq_ok_iff.mp read
          exact ih (framed.addChunk added) further

private theorem ne_zero_of_header {body : Bytes} {header : Header}
    (read : Header.ofBytes? body = some header) : header.width ≠ 0 ∧ header.height ≠ 0 := by
  unfold Header.ofBytes? at read
  simp only [Option.bind_eq_bind, Option.bind_eq_some_iff, Option.guard_eq_some'] at read
  obtain ⟨_, _, _, sound, _, _, same⟩ := read
  cases same
  exact ⟨sound.2.1, sound.2.2.1⟩

private theorem ne_zero_of_readHeader {header : Header} (fuel : Nat)
    (read : readHeader fuel file = .ok (header, rest)) : header.width ≠ 0 ∧ header.height ≠ 0 := by
  induction fuel generalizing file with
  | zero => cases read
  | succ fuel ih =>
    unfold readHeader at read
    split at read
    · cases read
    · split at read
      · cases read
      · obtain ⟨content, _, read⟩ := bind_eq_ok_iff.mp read
        cases content with
        | none =>
          obtain ⟨_, _, further⟩ := bind_eq_ok_iff.mp read
          exact ih further
        | some body =>
          dsimp only at read
          split at read
          · cases read
          · rename_i found
            obtain ⟨_, _, same⟩ := bind_eq_ok_iff.mp read
            cases same
            exact ne_zero_of_header found

private theorem framed_of_read (read : Preamble.read file = .ok (preamble, rest)) :
    preamble.Framed := by
  unfold Preamble.read at read
  obtain ⟨behind, _, read⟩ := bind_eq_ok_iff.mp read
  obtain ⟨⟨header, chunks⟩, first, read⟩ := bind_eq_ok_iff.mp read
  obtain ⟨width, height⟩ := ne_zero_of_readHeader _ first
  have framed : Preamble.Framed ⟨header, none, none, none, none, [Kind.header]⟩ :=
    ⟨width, height, Nat.le_refl _, Nat.le_refl _⟩
  exact framed.readChunks _ read

/-! ## Rows -/

private theorem size_of_readRows {size count : Nat} {earlier rows : Rows} {source after : Source}
    (read : preamble.readRows size count earlier source = .ok (rows, after)) :
    rows.size = earlier.size + count := by
  induction count generalizing earlier source with
  | zero =>
    cases read
    rfl
  | succ count ih =>
    unfold readRows at read
    obtain ⟨⟨row, next⟩, _, read⟩ := bind_eq_ok_iff.mp read
    dsimp only at read
    split at read
    · rw [ih read, Array.size_push]
      omega
    · cases read

private theorem rows_of_readImage {data : Bytes} {rows : List Rows}
    (plain : preamble.header.interlaced = false)
    (read : preamble.readImage file data = .ok rows) :
    ∃ only, rows = [only] ∧ only.size ≤ preamble.extents.2 := by
  unfold readImage at read
  dsimp only at read
  split at read
  · cases read
  obtain ⟨source, _, read⟩ := bind_eq_ok_iff.mp read
  obtain ⟨⟨found, after⟩, passes, read⟩ := bind_eq_ok_iff.mp read
  obtain ⟨_, _, same⟩ := bind_eq_ok_iff.mp read
  cases same
  have whole : preamble.header.passes = [Pass.whole] := by
    simp [Header.passes, plain]
  rw [whole] at passes
  unfold readPasses at passes
  obtain ⟨⟨only, next⟩, pass, passes⟩ := bind_eq_ok_iff.mp passes
  cases passes
  refine ⟨only, rfl, ?_⟩
  have count : only.size = 0 + if Pass.whole.columns preamble.extents.1 = 0 then 0
      else Pass.whole.rows preamble.extents.2 := size_of_readRows pass
  have all : Pass.whole.rows preamble.extents.2 = preamble.extents.2 := by
    simp [Pass.rows, Pass.whole]
  rw [count, all]
  split <;> omega

end Preamble

/-! ## Pixels -/

private theorem length_groupSamples (channels columns : Nat) (samples : List Nat) :
    (groupSamples channels columns samples).length = columns := by
  induction columns generalizing samples with
  | zero => rfl
  | succ columns ih => rw [groupSamples, List.length_cons, ih]

@[simp] theorem length_rowPixels (header : Header) (legend : Legend) (columns : Nat)
    (row : Array UInt8) : (rowPixels header legend columns row).length = columns := by
  rw [rowPixels, List.length_map, length_groupSamples]

private theorem length_flatMap_rowPixels (header : Header) (legend : Legend) (columns : Nat)
    (rows : List (Array UInt8)) :
    (rows.flatMap (rowPixels header legend columns)).length = rows.length * columns := by
  simp only [List.length_flatMap, length_rowPixels, List.map_const', List.sum_replicate_nat]

theorem length_imagePixels {preamble : Preamble} {rows : List Rows} {file data : Bytes}
    (framed : preamble.Framed) (read : preamble.readImage file data = .ok rows) :
    (imagePixels preamble rows).length =
      preamble.header.width.toNat * preamble.header.height.toNat := by
  unfold imagePixels
  dsimp only
  split
  · simp only [List.length_flatMap, List.length_map, List.length_range, List.map_const',
      List.sum_replicate_nat, Nat.mul_comm]
  · rename_i plain
    obtain ⟨only, rfl, most⟩ := Preamble.rows_of_readImage (by simpa using plain) read
    have few : only.size * preamble.extents.1 ≤
        preamble.header.width.toNat * preamble.header.height.toNat := by
      rw [Nat.mul_comm preamble.header.width.toNat]
      exact Nat.mul_le_mul (most.trans framed.down) framed.across
    rw [List.length_append, List.length_replicate, List.flatMap_cons, List.flatMap_nil,
      List.append_nil, length_flatMap_rowPixels, Array.length_toList]
    omega

private theorem StoredImage.length_pixels {file : Bytes} {image : StoredImage}
    (read : StoredImage.read file = .ok image) : image.pixels.length = image.size := by
  unfold StoredImage.read at read
  obtain ⟨⟨preamble, data⟩, start, read⟩ := bind_eq_ok_iff.mp read
  obtain ⟨rows, stored, same⟩ := bind_eq_ok_iff.mp read
  cases same
  have framed := Preamble.framed_of_read (mapError_eq_ok_iff.mp start)
  have count := length_imagePixels framed stored
  have each (pixel : Rgba) : pixel.toBytes.length = 4 := rfl
  unfold StoredImage.pixels StoredImage.size rgba8SliceSize
  simp only [List.length_flatMap, each, List.map_const', List.sum_replicate_nat, count]

theorem ne_zero_of_loadHeader {file : Bytes} {info : ImageInfo}
    (loaded : loadHeader file = .ok info) : info.width ≠ 0 ∧ info.height ≠ 0 := by
  unfold loadHeader at loaded
  obtain ⟨⟨preamble, data⟩, read, same⟩ := bind_eq_ok_iff.mp loaded
  cases same
  have framed := Preamble.framed_of_read read
  exact ⟨framed.width, framed.height⟩

theorem size_of_loadHeader {file : Bytes} {info : ImageInfo} {image : StoredImage}
    (loaded : loadHeader file = .ok info) (read : StoredImage.read file = .ok image) :
    image.size = rgba8SliceSize info.width.toNat info.height.toNat := by
  unfold loadHeader at loaded
  obtain ⟨⟨preamble, data⟩, start, same⟩ := bind_eq_ok_iff.mp loaded
  cases same
  unfold StoredImage.read at read
  obtain ⟨⟨other, _⟩, again, read⟩ := bind_eq_ok_iff.mp read
  obtain ⟨rows, _, same⟩ := bind_eq_ok_iff.mp read
  cases same
  cases start.symm.trans (mapError_eq_ok_iff.mp again)
  rfl

theorem length_loadPixels {file pixels : Bytes} {info : ImageInfo}
    (loaded : loadHeader file = .ok info) (read : loadPixels file = .ok pixels) :
    pixels.length = rgba8SliceSize info.width.toNat info.height.toNat := by
  obtain ⟨image, stored, rfl⟩ := map_eq_ok_iff.mp read
  rw [StoredImage.length_pixels stored, size_of_loadHeader loaded stored]

/-- A buffer of exactly the size of an image takes in its pixels, and nothing else fails than what
fails without a buffer. -/
theorem loadData_eq_loadPixels {file buffer : Bytes} {info : ImageInfo}
    (loaded : loadHeader file = .ok info)
    (room : buffer.length = rgba8SliceSize info.width.toNat info.height.toNat) :
    loadData file buffer = loadPixels file := by
  unfold loadData loadPixels
  cases read : StoredImage.read file with
  | error fault => rfl
  | ok image =>
    have size := size_of_loadHeader loaded read
    have length := StoredImage.length_pixels read
    have all : buffer.overwrite 0 image.pixels = image.pixels := by
      simp only [Bytes.overwrite, List.take_zero, List.nil_append, Nat.zero_add]
      rw [List.drop_eq_nil_of_le (by omega), List.append_nil]
    simp only [bind, Except.bind, Except.map]
    rw [if_neg (by omega), all]

end Png
end TextureCache
