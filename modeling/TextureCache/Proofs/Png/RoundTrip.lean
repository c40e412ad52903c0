import TextureCache.Proofs.Png.Source

/-! Writing a PNG file and reading it back. The rows of a written image are stored unchanged behind
the filter that changes nothing, and the samples of an RGBA8 pixel are its bytes; so the pixels of
the file are those that were written. -/
namespace TextureCache

namespace Bytes

variable {size count : Nat}

private theorem length_chunks (size count : Nat) (bytes : Bytes) :
    (bytes.chunks size count).length = count := by
  induction count generalizing bytes with
  | zero => rfl
  | succ count ih => rw [chunks, List.length_cons, ih]

private theorem length_of_mem_chunks {bytes piece : Bytes} (enough : size * count ≤ bytes.length)
    (member : piece ∈ bytes.chunks size count) : piece.length = size := by
  induction count generalizing bytes with
  | zero => cases member
  | succ count ih =>
    rw [Nat.mul_succ] at enough
    rw [chunks] at member
    rcases List.mem_cons.mp member with rfl | later
    · rw [List.length_take]
      omega
    · exact ih (by rw [List.length_drop]; omega) later

private theorem flatten_chunks (size count : Nat) (bytes : Bytes) :
    (bytes.chunks size count).flatten = bytes.take (size * count) := by
  induction count generalizing bytes with
  | zero => rw [Nat.mul_zero, List.take_zero]; rfl
  | succ count ih =>
    rw [chunks, List.flatten_cons, ih, Nat.mul_succ, Nat.add_comm, List.take_add]

end Bytes

namespace Png

/-! ## Rows -/

private theorem undo_none (distance : Nat) (above stored : Array UInt8) :
    Filter.none.undo distance above stored = stored := by
  simp only [Filter.undo, Filter.predict, UInt8.add_zero]
  rw [← Array.foldl_toList, List.foldl_push_eq_append']
  simp

variable {source : Source} {contents front rest row : Bytes}

private theorem takeRow_reads (reads : source.Reads contents)
    (whole : contents = front ++ (0 :: row) ++ rest) (taken : source.taken = front.length)
    (distance : Nat) (above : Array UInt8) :
    ∃ after, source.takeRow distance row.length above = .ok (row.toArray, after) ∧
      after.Reads contents ∧ after.taken = (front ++ (0 :: row)).length := by
  have enough : source.taken + (row.length + 1) ≤ contents.length := by
    rw [whole, taken]
    simp only [List.length_append, List.length_cons]
    omega
  obtain ⟨stored, after, took, bytes, reading, further⟩ :=
    source.take_reads reads (Nat.succ_pos _) enough
  have cut : contents.slice source.taken (row.length + 1) = 0 :: row := by
    have aligned := Bytes.slice_append_right front ((0 :: row) ++ rest) 0 (row.length + 1)
    rw [Nat.add_zero, ← List.append_assoc, ← whole] at aligned
    rw [taken, aligned, Bytes.slice_zero]
    exact List.take_left' rfl
  have same : stored = (0 :: row).toArray := by
    rw [← cut, ← bytes]
  refine ⟨after, ?_, reading, ?_⟩
  · unfold Source.takeRow
    simp only [took, bind, Except.bind]
    have filter : Filter.ofNumber? (stored.getD 0 0).toNat = some .none := by
      rw [same]
      rfl
    have body : stored.extract 1 (row.length + 1) = row.toArray := by
      rw [same]
      simp
    simp only [filter, undo_none, body]
  · rw [further, taken, List.length_append, List.length_cons]

variable {width height : UInt32}

private theorem readRows_reads {size : Nat} (rows : List Bytes)
    (sized : ∀ row ∈ rows, row.length = size)
    (reads : source.Reads contents) (whole : contents = front ++ rows.flatMap (0 :: ·))
    (taken : source.taken = front.length) (earlier : Rows) :
    ∃ result after, (rgbaPreamble width height).readRows size rows.length earlier source =
        .ok (result, after) ∧
      result.toList = earlier.toList ++ rows.map List.toArray ∧ after.Reads contents := by
  induction rows generalizing source front earlier with
  | nil => exact ⟨earlier, source, rfl, by simp, reads⟩
  | cons row rows ih =>
    rw [List.flatMap_cons, ← List.append_assoc] at whole
    obtain ⟨next, took, reading, further⟩ := takeRow_reads reads whole taken
      (rgbaPreamble width height).header.filterDistance (earlier.back?.getD #[])
    rw [sized row List.mem_cons_self] at took
    obtain ⟨result, after, read, list, reading⟩ := ih
      (fun row member => sized row (List.mem_cons_of_mem _ member)) reading whole further
      (earlier.push row.toArray)
    have fault : (rgbaPreamble width height).paletteFault? = none := rfl
    refine ⟨result, after, ?_, ?_, reading⟩
    · rw [List.length_cons, Preamble.readRows]
      simp only [took, fault, Except.mapError, bind, Except.bind]
      exact read
    · rw [list, Array.toList_push, List.append_assoc, List.map_cons, List.singleton_append]

private theorem rowSize_rgba (width height : UInt32) (columns : Nat) :
    (rgbaHeader width height).rowSize columns = columns * 4 := by
  simp only [Header.rowSize, Header.pixelBits, rgbaHeader, ColorType.channels]
  omega

private theorem expandedRowSize_rgba (width height : UInt32) :
    (rgbaHeader width height).expandedRowSize false = width.toNat * 4 := by
  simp [Header.expandedRowSize, rgbaHeader, ColorType.channels]

private theorem expectedSize_rgba (width height : UInt32) :
    (rgbaPreamble width height).expectedSize =
      some (height.toNat * (1 + width.toNat * 4)) := by
  rw [← rowSize_rgba width height]
  rfl

private theorem length_storedRows {width height : Nat} {pixels : Bytes}
    (enough : width * 4 * height ≤ pixels.length) :
    (storedRows width height pixels).length = height * (1 + width * 4) := by
  have each : ∀ row ∈ pixels.chunks (width * 4) height, (0 :: row).length = 1 + width * 4 := by
    intro row member
    rw [List.length_cons, Bytes.length_of_mem_chunks enough member, Nat.add_comm]
  rw [storedRows, List.length_flatMap, List.map_congr_left each, List.map_const',
    List.sum_replicate_nat, Bytes.length_chunks]

theorem readImage_storedRows {pixels file : Bytes} (wide : width ≠ 0)
    (enough : width.toNat * 4 * height.toNat ≤ pixels.length)
    (fits : width.toNat * 4 * height.toNat ≤ bufferLimit)
    (inside : (imageData (Deflate.store
      (storedRows width.toNat height.toNat pixels))).length ≤ file.length) :
    ∃ rows, (rgbaPreamble width height).readImage file
        (imageData (Deflate.store (storedRows width.toNat height.toNat pixels))) = .ok [rows] ∧
      rows.toList = (pixels.chunks (width.toNat * 4) height.toNat).map List.toArray := by
  have sized := fun row => @Bytes.length_of_mem_chunks _ _ pixels row enough
  have expected : ∀ total ∈ (rgbaPreamble width height).expectedSize,
      (storedRows width.toNat height.toNat pixels).length ≤ total := by
    intro total member
    rw [expectedSize_rgba] at member
    cases member
    exact Nat.le_of_eq (length_storedRows enough)
  obtain ⟨source, started, reads, taken⟩ := Source.start_reads _ expected inside
  obtain ⟨rows, after, read, list, reading⟩ := @readRows_reads source _ [] width height
    (width.toNat * 4) (pixels.chunks (width.toNat * 4) height.toNat) sized reads rfl taken #[]
  obtain ⟨drained, finished⟩ := Source.drain_reads reading
  rw [Bytes.length_chunks] at read
  have across : width.toNat ≠ 0 := fun zero => wide (UInt32.toNat_inj.mp zero)
  have pass : (rgbaPreamble width height).readPass Pass.whole source = .ok (rows, after) := by
    have columns : Pass.whole.columns width.toNat = width.toNat := by
      simp [Pass.columns, Pass.whole]
    have count : Pass.whole.rows height.toNat = height.toNat := by
      simp [Pass.rows, Pass.whole]
    have size := rowSize_rgba width height width.toNat
    have extents : (rgbaPreamble width height).extents = (width.toNat, height.toNat) := rfl
    have header : (rgbaPreamble width height).header = rgbaHeader width height := rfl
    unfold Preamble.readPass
    simp only [extents, header, columns, count, size, if_neg across, read]
  have passes : (rgbaPreamble width height).readPasses (rgbaHeader width height).passes source =
      .ok ([rows], after) := by
    change (rgbaPreamble width height).readPasses [Pass.whole] source = _
    simp only [Preamble.readPasses, pass, bind, Except.bind]
  have accepted : ¬ (bufferLimit < (rgbaHeader width height).expandedRowSize false *
      height.toNat ∨ ¬ (rgbaPreamble width height).hasImage = true) := by
    rw [expandedRowSize_rgba]
    exact not_or.mpr ⟨Nat.not_lt.mpr fits, not_not_intro rfl⟩
  refine ⟨rows, ?_, list⟩
  unfold Preamble.readImage
  change (if bufferLimit < (rgbaHeader width height).expandedRowSize false *
    height.toNat ∨ ¬ (rgbaPreamble width height).hasImage = true then _ else _) = _
  rw [if_neg accepted, started]
  change ((rgbaPreamble width height).readPasses (rgbaHeader width height).passes source >>= _) = _
  rw [passes]
  change ((after.drain.mapError ReadFault.refused) >>= _) = _
  rw [finished]
  rfl

/-! ## Pixels -/

private theorem samples_eight_cons (byte : UInt8) (rest : Bytes) :
    samples 8 (byte :: rest) = byte.toNat :: samples 8 rest := by
  cases rest <;> rfl

private theorem samples_eight (bytes : Bytes) : samples 8 bytes = bytes.map UInt8.toNat := by
  induction bytes with
  | nil => rfl
  | cons byte rest ih => rw [samples_eight_cons, ih, List.map_cons]

private theorem scale_eight (byte : UInt8) : scale 8 byte.toNat = byte := by
  have exact : byte.toNat * 255 / ((1 <<< 8) - 1) = byte.toNat :=
    Nat.mul_div_cancel byte.toNat (by decide : 0 < 255)
  rw [scale, if_neg (by decide), exact, UInt8.ofNat_toNat]

private theorem rowPixels_rgba (legend : Legend) (columns : Nat) {row : Bytes}
    (length : row.length = columns * 4) :
    (rowPixels (rgbaHeader width height) legend columns row.toArray).flatMap Rgba.toBytes = row ∧
      (rowPixels (rgbaHeader width height) legend columns row.toArray).length = columns := by
  have unfolded (columns : Nat) (row : Bytes) :
      rowPixels (rgbaHeader width height) legend columns row.toArray =
        (groupSamples 4 columns (row.map UInt8.toNat)).map
          (pixelColor (rgbaHeader width height) legend) := by
    rw [← samples_eight]
    rfl
  rw [unfolded]
  induction columns generalizing row with
  | zero =>
    have none : row = [] := List.length_eq_zero_iff.mp (by omega)
    subst none
    exact ⟨rfl, rfl⟩
  | succ columns ih =>
    rcases row with _ | ⟨red, _ | ⟨green, _ | ⟨blue, _ | ⟨alpha, rest⟩⟩⟩⟩
    · simp at length
    · simp at length
      omega
    · simp at length
      omega
    · simp at length
      omega
    · have shorter : rest.length = columns * 4 := by
        simp only [List.length_cons] at length
        omega
      obtain ⟨bytes, count⟩ := ih shorter
      have color : pixelColor (rgbaHeader width height) legend
          [red.toNat, green.toNat, blue.toNat, alpha.toNat] = ⟨red, green, blue, alpha⟩ := by
        simp [pixelColor, rgbaHeader, scale_eight]
      have group : groupSamples 4 (columns + 1)
          ((red :: green :: blue :: alpha :: rest).map UInt8.toNat) =
            [red.toNat, green.toNat, blue.toNat, alpha.toNat] ::
              groupSamples 4 columns (rest.map UInt8.toNat) := rfl
      rw [group, List.map_cons, color, List.flatMap_cons, bytes, List.length_cons, count]
      exact ⟨rfl, rfl⟩

theorem pixels_rgba {pixels : Bytes} (rows : Rows)
    (enough : width.toNat * 4 * height.toNat ≤ pixels.length)
    (list : rows.toList = (pixels.chunks (width.toNat * 4) height.toNat).map List.toArray) :
    (StoredImage.mk (rgbaPreamble width height) [rows]).pixels =
      pixels.take (width.toNat * 4 * height.toNat) := by
  have each (row : Bytes) (member : row ∈ pixels.chunks (width.toNat * 4) height.toNat) :=
    @rowPixels_rgba width height (rgbaPreamble width height).legend width.toNat row
      (Bytes.length_of_mem_chunks enough member)
  have all : [rows].flatMap (fun rows => rows.toList.flatMap (rowPixels (rgbaHeader width height)
      (rgbaPreamble width height).legend width.toNat)) =
      (pixels.chunks (width.toNat * 4) height.toNat).flatMap fun row =>
        rowPixels (rgbaHeader width height) (rgbaPreamble width height).legend width.toNat
          row.toArray := by
    rw [List.flatMap_singleton, list, List.flatMap_map]
  have count : ((pixels.chunks (width.toNat * 4) height.toNat).flatMap fun row =>
      rowPixels (rgbaHeader width height) (rgbaPreamble width height).legend width.toNat
        row.toArray).length = width.toNat * height.toNat := by
    rw [List.length_flatMap, List.map_congr_left fun row member => (each row member).2,
      List.map_const', List.sum_replicate_nat, Bytes.length_chunks, Nat.mul_comm]
  have bytes : ((pixels.chunks (width.toNat * 4) height.toNat).flatMap fun row =>
      rowPixels (rgbaHeader width height) (rgbaPreamble width height).legend width.toNat
        row.toArray).flatMap Rgba.toBytes = pixels.take (width.toNat * 4 * height.toNat) := by
    rw [List.flatMap_assoc, ← Bytes.flatten_chunks, ← List.flatMap_id]
    exact congrArg List.flatten (List.map_congr_left fun row member => (each row member).1)
  rw [← all] at count bytes
  change (([rows].flatMap fun rows => rows.toList.flatMap (rowPixels (rgbaHeader width height)
      (rgbaPreamble width height).legend width.toNat)) ++
    List.replicate (width.toNat * height.toNat - ([rows].flatMap fun rows =>
      rows.toList.flatMap (rowPixels (rgbaHeader width height)
        (rgbaPreamble width height).legend width.toNat)).length)
      (blankPixel (rgbaPreamble width height))).flatMap Rgba.toBytes = _
  rw [count, Nat.sub_self, List.replicate_zero, List.append_nil, bytes]

def streamOf (width height : UInt32) (pixels : Bytes) : Bytes :=
  Deflate.store (storedRows width.toNat height.toNat pixels)

def fileOf (width height : UInt32) (pixels : Bytes) : Bytes :=
  signature ++ (chunk Kind.header (headerBody width height) ++
    imageData (streamOf width height pixels))

private theorem length_imageData_le (width height : UInt32) (pixels : Bytes) :
    (imageData (streamOf width height pixels)).length ≤ (fileOf width height pixels).length :=
  ((List.suffix_append _ _).trans (List.suffix_append _ _)).length_le

private theorem stored_eq (pixels : Bytes) (wide : width ≠ 0) (high : height ≠ 0) :
    stored width height pixels = .ok (fileOf width height pixels) := by
  unfold stored fileOf streamOf imageData
  simp only [if_neg (not_or.mpr ⟨wide, high⟩), List.append_assoc]

/-- The size is read from the header, however large the image is. -/
theorem loadHeader_fileOf {pixels : Bytes} (wide : width ≠ 0) (high : height ≠ 0)
    (fits : width.toNat * 4 * height.toNat < wordLimit) :
    loadHeader (fileOf width height pixels) = .ok (.rgba8 width height) := by
  have preamble : Preamble.read (fileOf width height pixels) = _ :=
    read_preamble wide high fits (streamOf width height pixels)
  unfold loadHeader
  rw [preamble]
  rfl

/-- What an encoder writes of an image tells the extents of the image. -/
def Encoder.TellsSize (encoder : Encoder) : Prop :=
  ∀ width height pixels, width ≠ 0 → height ≠ 0 →
    pixels.length = width.toNat * height.toNat * 4 → pixels.length < wordLimit →
      ∃ file, encoder width height pixels = .ok file ∧
        loadHeader file = .ok (.rgba8 width height)

/-- What an encoder writes of an image is read back: the extents from the header, and the pixels if
a buffer can hold them. -/
def Encoder.Faithful (encoder : Encoder) : Prop :=
  ∀ width height pixels, width ≠ 0 → height ≠ 0 →
    pixels.length = width.toNat * height.toNat * 4 → pixels.length < wordLimit →
      ∃ file, encoder width height pixels = .ok file ∧
        loadHeader file = .ok (.rgba8 width height) ∧
        (pixels.length ≤ bufferLimit → loadPixels file = .ok pixels)

theorem Encoder.Faithful.tellsSize {encoder : Encoder} (faithful : encoder.Faithful) :
    encoder.TellsSize := by
  intro width height pixels wide high length word
  obtain ⟨file, written, header, _⟩ := faithful width height pixels wide high length word
  exact ⟨file, written, header⟩

theorem faithful_stored : Encoder.Faithful stored := by
  intro width height pixels wide high length word
  rw [Nat.mul_right_comm] at length
  refine ⟨_, stored_eq pixels wide high, loadHeader_fileOf wide high (length ▸ word),
    fun fits => ?_⟩
  obtain ⟨rows, read, list⟩ := readImage_storedRows wide (Nat.le_of_eq length.symm) (length ▸ fits)
    (length_imageData_le width height pixels)
  have preamble : Preamble.read (fileOf width height pixels) = _ :=
    read_preamble wide high (length ▸ word) (streamOf width height pixels)
  unfold loadPixels StoredImage.read
  rw [preamble]
  change (((rgbaPreamble width height).readImage _ (imageData (Deflate.store _)) >>=
    fun rows => Except.ok (StoredImage.mk (rgbaPreamble width height) rows)).map _) = _
  rw [read]
  change Except.ok (StoredImage.mk (rgbaPreamble width height) [rows]).pixels = _
  rw [pixels_rgba rows (Nat.le_of_eq length.symm) list, ← length, List.take_length]

theorem save_of_exact (encoder : Encoder) {pixels : Bytes}
    (exact : pixels.length = width.toNat * height.toNat * 4) :
    save encoder width height pixels = encoder width height pixels := by
  unfold save
  simp only [← exact, lt_irrefl, if_false, List.take_length]

end Png
end TextureCache
