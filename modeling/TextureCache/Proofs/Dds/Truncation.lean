import TextureCache.Proofs.Dds.Canonical

/-! Files that were cut off or went on growing. What an accepted file says of its image is in the
bytes before its payload, so any file that starts with the same bytes is accepted as the same image
once its payload is whole, and refused before that. Of the bytes behind the payload nothing is
read. -/
namespace TextureCache.Dds

variable {file other : Bytes} {contents : Contents} {header : Header}

private theorem dataOffset_bounds (file : Bytes) :
    headerSize ≤ dataOffset file ∧ dataOffset file ≤ extendedHeaderSize := by
  unfold dataOffset
  split <;> decide

private theorem take_eq_of_le {first second : Nat} (same : other.take second = file.take second)
    (least : first ≤ second) : other.take first = file.take first := by
  rw [← Nat.min_eq_left least, ← List.take_take, same, List.take_take]

private theorem ofBytes_header_congr (same : other.take headerSize = file.take headerSize) :
    Header.ofBytes (other.drop 4) = Header.ofBytes (file.drop 4) := by
  have words : (other.drop 4).take 124 = (file.drop 4).take 124 := by
    rw [List.take_drop, List.take_drop]
    exact congrArg (List.drop 4) same
  rw [← ofBytes_take_header, words, ofBytes_take_header]

private theorem ofBytes_extension_congr
    (same : other.take extendedHeaderSize = file.take extendedHeaderSize) :
    Extension.ofBytes (other.drop headerSize) = Extension.ofBytes (file.drop headerSize) := by
  have words : (other.drop headerSize).take 20 = (file.drop headerSize).take 20 := by
    rw [List.take_drop, List.take_drop]
    exact congrArg (List.drop headerSize) same
  rw [← ofBytes_take_extension, words, ofBytes_take_extension]

private theorem readFormat_congr (whole : dataOffset file ≤ file.length)
    (long : dataOffset file ≤ other.length)
    (same : other.take (dataOffset file) = file.take (dataOffset file)) :
    readFormat other (Header.ofBytes (file.drop 4)) =
      readFormat file (Header.ofBytes (file.drop 4)) := by
  unfold dataOffset at whole long same
  unfold readFormat
  cases extended : isExtended (Header.ofBytes (file.drop 4)).pixel with
  | false => rfl
  | true =>
    rw [extended, if_pos rfl] at whole long same
    rw [if_neg (Nat.not_lt.mpr long), if_neg (Nat.not_lt.mpr whole), ofBytes_extension_congr same]

/-- A file with the head of an accepted one is accepted as the same image, unless its payload is not
whole. -/
theorem parse_of_same_head (parsed : parse file = .ok contents)
    (long : dataOffset file ≤ other.length)
    (same : other.take (dataOffset file) = file.take (dataOffset file)) :
    parse other =
      if other.length < dataOffset file + contents.info.exactSize then .error .dataTooShort
      else .ok contents := by
  obtain ⟨_, start, sound, read, info, located⟩ := parse_eq_ok parsed
  obtain ⟨whole, word, fits⟩ := locatePayload_eq_ok located
  have offset := (accepted_of_parse parsed).offset
  rw [offset] at word fits
  have least := (dataOffset_bounds file).1
  have magic : other.take 4 = magic :=
    (take_eq_of_le same (le_trans (by decide) least)).trans start
  have words := ofBytes_header_congr (take_eq_of_le same least)
  have format := readFormat_congr (Nat.le_of_add_right_le fits) long same
  have size : contents.info.checkedSize = some contents.info.exactSize :=
    ImageInfo.checkedSize_eq_some_iff.mpr ⟨Nat.lt_of_le_of_lt (Nat.le_add_left _ _) word, rfl⟩
  rw [parse_of_readFormat (least.trans long) magic words sound (format.trans read), ← info, offset,
    locatePayload, size]
  simp only [fitsWord_of_lt word]
  rw [whole, offset]

/-- A file that ends within the bytes before the payload of an accepted one has no whole header. -/
theorem parse_take_of_lt (parsed : parse file = .ok contents) {count : Nat}
    (short : count < dataOffset file) : parse (file.take count) = .error .corruptedHeader := by
  obtain ⟨_, start, sound, _, _, _⟩ := parse_eq_ok parsed
  have most : (file.take count).length ≤ count := List.length_take_le count file
  unfold parse
  by_cases fixed : (file.take count).length < headerSize
  · rw [if_pos (.inl fixed)]
  · have least : headerSize ≤ count := (Nat.not_lt.mp fixed).trans most
    have head (first : Nat) (inside : first ≤ headerSize) :
        (file.take count).take first = file.take first := by
      rw [List.take_take, Nat.min_eq_left (inside.trans least)]
    -- Only the extended header reaches behind the fixed one.
    have extended : isExtended (Header.ofBytes (file.drop 4)).pixel = true := by
      by_contra plain
      rw [dataOffset, if_neg plain] at short
      exact absurd short (Nat.not_lt.mpr least)
    have bound : (file.take count).length < extendedHeaderSize :=
      Nat.lt_of_le_of_lt most (Nat.lt_of_lt_of_le short (dataOffset_bounds file).2)
    rw [if_neg (not_or.mpr ⟨fixed, not_not_intro ((head 4 (by decide)).trans start)⟩),
      ofBytes_header_congr (head headerSize (Nat.le_refl _))]
    dsimp only
    rw [if_pos sound, readFormat, if_pos extended, if_pos bound]
    rfl

private theorem lt_dataOffset_iff (file : Bytes) (count : Nat) :
    count < dataOffset file ↔ count < 128 ∨
      count < 148 ∧ isExtended (Header.ofBytes (file.drop 4)).pixel = true := by
  unfold dataOffset headerSize extendedHeaderSize
  split
  · rename_i extended
    simp only [extended, and_true]
    omega
  · rename_i plain
    simp only [plain, Bool.false_eq_true, and_false, or_false]

theorem parse_take_of_short (parsed : parse file = .ok contents) {count : Nat}
    (short : count < dataOffset file + contents.info.exactSize)
    (fits : dataOffset file + contents.info.exactSize ≤ file.length) :
    parse (file.take count) =
      .error (if count < dataOffset file then .corruptedHeader else .dataTooShort) := by
  by_cases head : count < dataOffset file
  · rw [parse_take_of_lt parsed head, if_pos head]
  · have least := Nat.not_lt.mp head
    have length : (file.take count).length = count := List.length_take_of_le (by omega)
    have same : (file.take count).take (dataOffset file) = file.take (dataOffset file) := by
      rw [List.take_take, Nat.min_eq_left least]
    rw [parse_of_same_head parsed (by omega) same, length, if_pos short, if_neg head]

private theorem loadData_congr (parsed : parse file = .ok contents)
    (parsed' : parse other = .ok contents) (same : other.slice contents.offset contents.size =
      file.slice contents.offset contents.size) (buffer : Bytes) :
    loadData other buffer = loadData file buffer := by
  by_cases short : buffer.length < contents.size
  · rw [loadData_of_short parsed short, loadData_of_short parsed' short]
  · have room := Nat.not_lt.mp short
    rw [loadData_eq parsed room, loadData_eq parsed' room, texelsOf, texelsOf, same]

/-- Whatever follows the payload of an accepted file, the file is accepted as the same image with
the same texels. Cut off anywhere before the end of its payload it is refused, and no buffer is
touched: the header is corrupted if a part of it is missing, else the data is too short. -/
theorem reader_of_cut (file : Bytes) (info : ImageInfo) (loaded : loadHeader file = .ok info) :
    (∀ rest : Bytes,
      let grown := file.take (dataOffset file + info.payloadSize) ++ rest
      loadHeader grown = .ok info ∧ ∀ buffer, loadData grown buffer = loadData file buffer ∧
        guardedData grown buffer = guardedData file buffer) ∧
    ∀ count < dataOffset file + info.payloadSize,
      let error := if count < 128 ∨
          count < 148 ∧ isExtended (Header.ofBytes (file.drop 4)).pixel = true
        then LoadError.corruptedHeader else .dataTooShort
      loadHeader (file.take count) = .error error ∧
        ∀ buffer, loadData (file.take count) buffer = .error error ∧
          guardedData (file.take count) buffer = some (.error error, buffer) := by
  obtain ⟨contents, parsed, rfl⟩ := parse_of_loadHeader loaded
  have accepted := accepted_of_parse parsed
  have size := ImageInfo.payloadSize_eq accepted.exactSize_lt
  have fits : dataOffset file + contents.info.exactSize ≤ file.length := by
    rw [← accepted.offset, ← accepted.size]
    exact accepted.fits
  rw [size]
  constructor
  · intro rest grown
    have whole : (file.take (dataOffset file + contents.info.exactSize)).length =
        dataOffset file + contents.info.exactSize := List.length_take_of_le fits
    have length : grown.length = dataOffset file + contents.info.exactSize + rest.length := by
      rw [List.length_append, whole]
    have same : grown.take (dataOffset file) = file.take (dataOffset file) := by
      rw [List.take_append_of_le_length (by omega), List.take_take, Nat.min_eq_left (by omega)]
    have parsed' : parse grown = .ok contents := by
      rw [parse_of_same_head parsed (by omega) same, if_neg (by omega)]
    have data := loadData_congr parsed parsed' (by
      rw [accepted.offset, accepted.size, Bytes.slice_append_left _ (Nat.le_of_eq whole.symm),
        Bytes.slice_take (Nat.le_refl _)])
    refine ⟨by rw [loadHeader, parsed']; rfl, fun buffer => ⟨data buffer, ?_⟩⟩
    rw [guardedData_eq, guardedData_eq, data]
  · intro count short error
    have refused : parse (file.take count) = .error error := by
      rw [parse_take_of_short parsed short fits, if_congr (lt_dataOffset_iff file count) rfl rfl]
    have data (buffer : Bytes) : loadData (file.take count) buffer = .error error :=
      loadData_of_error refused
    refine ⟨by rw [loadHeader, refused]; rfl, fun buffer => ⟨data buffer, ?_⟩⟩
    rw [guardedData_eq, data]
    rfl

/-- Two layers of two levels behind an extended header, cut off in the extended header and in the
last texel, and continued behind the payload. -/
theorem reader_of_cut_layers :
    let info : ImageInfo := ⟨3, 2, 2, 2, .bgra8, .flatArray⟩
    let file := magic ++ encodeWords (build info).toWords ++
      encodeWords (buildExtension info 87).toWords ++ (List.range 60).map UInt8.ofNat
    loadHeader file = .ok info ∧
    loadHeader (file.take 147) = .error .corruptedHeader ∧
    loadHeader (file.take 203) = .error .dataTooShort ∧
    guardedData (file.take 203) (Bytes.zeros 56) = some (.error .dataTooShort, Bytes.zeros 56) ∧
    loadHeader (file.take 204 ++ [1, 2, 3]) = .ok info ∧
    loadData (file.take 204 ++ [1, 2, 3]) (Bytes.zeros 56) = loadData file (Bytes.zeros 56) := by
  intro info file
  have loaded : loadHeader file = .ok info := by decide +kernel
  have stop : dataOffset file + info.payloadSize = 204 := by decide +kernel
  have extended : isExtended (Header.ofBytes (file.drop 4)).pixel = true := by decide +kernel
  obtain ⟨longer, shorter⟩ := reader_of_cut file info loaded
  rw [stop] at longer shorter
  have head := (shorter 147 (by decide)).1
  have tail := shorter 203 (by decide)
  simp only [extended, and_true] at head tail
  exact ⟨loaded, head, tail.1, (tail.2 _).2, (longer [1, 2, 3]).1, ((longer [1, 2, 3]).2 _).1⟩

end TextureCache.Dds
