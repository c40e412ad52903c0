import TextureCache.Png.File
import TextureCache.Proofs.Dds.Size
import TextureCache.Proofs.Patch

/-! Reading back the chunks of a written file: each is found with its body and a sound checksum, the
header says what it was made from, and the first chunk of pixels is where the header ends. -/
namespace TextureCache

namespace Bytes

private theorem ofBigEndian_append_singleton (bytes : Bytes) (byte : UInt8) :
    ofBigEndian (bytes ++ [byte]) = ofBigEndian bytes * 256 + byte.toNat := by
  simp [ofBigEndian]

private theorem ofBigEndian_reverse (bytes : Bytes) :
    ofBigEndian bytes.reverse = ofLittleEndian bytes := by
  induction bytes with
  | nil => rfl
  | cons byte rest ih =>
    rw [List.reverse_cons, ofBigEndian_append_singleton, ih, ofLittleEndian]
    omega

private theorem ofBigEndian_word {value : Nat} (fits : value < 2 ^ 32) :
    ofBigEndian (bigEndian 4 value) = value := by
  rw [bigEndian, ofBigEndian_reverse, ofLittleEndian_word fits]

end Bytes

namespace Png

/-- The checksum that is written behind a body. -/
def checksumOf (kind body : Bytes) : Bytes := Bytes.bigEndian 4 (crc32 (kind ++ body)).toNat

@[simp] theorem length_checksumOf (kind body : Bytes) : (checksumOf kind body).length = 4 :=
  Bytes.length_bigEndian 4 _

theorem chunk_append (kind body rest : Bytes) :
    chunk kind body ++ rest =
      (Bytes.bigEndian 4 body.length ++ kind) ++ (body ++ (checksumOf kind body ++ rest)) := by
  simp only [chunk, checksumOf, List.append_assoc]

theorem read?_chunk {kind body : Bytes} (rest : Bytes) (letters : kind.length = 4)
    (fits : body.length < 2 ^ 32) :
    Chunk.read? (chunk kind body ++ rest) =
      some ⟨kind, body.length, body, checksumOf kind body, rest⟩ := by
  have start : (Bytes.bigEndian 4 body.length ++ kind).length = 8 := by
    rw [List.length_append, Bytes.length_bigEndian, letters]
  have front : (chunk kind body ++ rest).take 8 = Bytes.bigEndian 4 body.length ++ kind := by
    rw [chunk_append, List.take_left' start]
  have length : Bytes.ofBigEndian ((Bytes.bigEndian 4 body.length ++ kind).take 4) =
      body.length := by
    rw [List.take_left' (Bytes.length_bigEndian 4 _), Bytes.ofBigEndian_word fits]
  have name : (Bytes.bigEndian 4 body.length ++ kind).drop 4 = kind :=
    List.drop_left' (Bytes.length_bigEndian 4 _)
  have content : Bytes.slice (chunk kind body ++ rest) 8 body.length = body := by
    have aligned := Bytes.slice_append_right (Bytes.bigEndian 4 body.length ++ kind)
      (body ++ (checksumOf kind body ++ rest)) 0 body.length
    rw [start, Nat.add_zero] at aligned
    rw [chunk_append, aligned, Bytes.slice_zero, List.take_left]
  have checksum : Bytes.slice (chunk kind body ++ rest) (8 + body.length) 4 =
      checksumOf kind body := by
    have aligned := Bytes.slice_append_right (Bytes.bigEndian 4 body.length ++ kind ++ body)
      (checksumOf kind body ++ rest) 0 4
    rw [List.length_append, start, Nat.add_zero, List.append_assoc, ← chunk_append] at aligned
    rw [aligned, Bytes.slice_zero, List.take_left' (length_checksumOf kind body)]
  have after : (chunk kind body ++ rest).drop (12 + body.length) = rest := by
    apply List.drop_left'
    simp only [chunk, List.length_append, Bytes.length_bigEndian, letters]
    omega
  unfold Chunk.read?
  simp only [front, start, Nat.lt_irrefl, if_false, length, name, content, checksum, after]

theorem integrity_chunk (kind body rest : Bytes) (length : Nat) :
    Chunk.integrity ⟨kind, length, body, checksumOf kind body, rest⟩ = .sound := by
  have spelled : Bytes.ofBigEndian (checksumOf kind body) = (crc32 (kind ++ body)).toNat := by
    rw [checksumOf, Bytes.ofBigEndian_word (UInt32.toNat_lt _)]
  simp [Chunk.integrity, spelled]

private theorem content?_chunk {kind body rest : Bytes} (some : body ≠ []) :
    Chunk.content? ⟨kind, body.length, body, checksumOf kind body, rest⟩ = .ok (.some body) := by
  have length : body.length ≠ 0 := fun zero => some (List.length_eq_zero_iff.mp zero)
  have checksum : (checksumOf kind body).isEmpty = false := by
    rw [List.isEmpty_eq_false_iff_exists_mem]
    exact List.exists_mem_of_length_pos (by rw [length_checksumOf]; decide)
  simp [Chunk.content?, length, checksum]

private theorem verify_chunk (kind body rest : Bytes) (length : Nat) :
    Chunk.verify ⟨kind, length, body, checksumOf kind body, rest⟩ = .ok () := by
  rw [Chunk.verify, integrity_chunk]

/-! ## The header of a written file -/

def rgbaHeader (width height : UInt32) : Header := ⟨width, height, 8, .rgba, false⟩

/-- What a written file says before its pixels. -/
def rgbaPreamble (width height : UInt32) : Preamble :=
  ⟨rgbaHeader width height, none, none, none, none, [Kind.header]⟩

variable {width height : UInt32}

private theorem ofBytes?_headerBody (wide : width ≠ 0) (high : height ≠ 0)
    (fits : width.toNat * 4 * height.toNat < wordLimit) :
    Header.ofBytes? (headerBody width height) = some (rgbaHeader width height) := by
  have number (value : UInt32) :
      UInt32.ofNat (Bytes.ofBigEndian (Bytes.bigEndian 4 value.toNat)) = value := by
    rw [Bytes.ofBigEndian_word value.toNat_lt, UInt32.ofNat_toNat]
  have across : (headerBody width height).take 4 = Bytes.bigEndian 4 width.toNat := rfl
  have down : (headerBody width height).slice 4 4 = Bytes.bigEndian 4 height.toNat := rfl
  have row : (rgbaHeader width height).expandedRowSize false = width.toNat * 4 := by
    simp [Header.expandedRowSize, rgbaHeader, ColorType.channels]
  have word : fitsWord (width.toNat * 4 * height.toNat) = some (width.toNat * 4 * height.toNat) :=
    fitsWord_of_lt fits
  have depth : (headerBody width height).getD 8 0 = 8 := rfl
  have color : (headerBody width height).getD 9 0 = 6 := rfl
  have compression : (headerBody width height).getD 10 0 = 0 := rfl
  have filter : (headerBody width height).getD 11 0 = 0 := rfl
  have interlacing : (headerBody width height).getD 12 0 = 0 := rfl
  have length : (headerBody width height).length = 13 := rfl
  have kind : ColorType.ofNumber? (6 : UInt8).toNat = some .rgba := rfl
  unfold Header.ofBytes?
  simp only [across, down, number, depth, color, compression, filter, interlacing, length, kind]
  have same : (⟨width, height, (8 : UInt8).toNat, .rgba, decide ((0 : UInt8).toNat = 1)⟩ : Header) =
      rgbaHeader width height := rfl
  rw [Option.bind_eq_bind, Option.bind_some]
  have sound : 13 ≤ 13 ∧ width ≠ 0 ∧ height ≠ 0 ∧ (8 : UInt8).toNat ∈ ColorType.rgba.depths ∧
      (0 : UInt8).toNat = 0 ∧ (0 : UInt8).toNat = 0 ∧ (0 : UInt8).toNat ≤ 1 :=
    ⟨Nat.le_refl _, wide, high, by decide, rfl, rfl, by decide⟩
  simp only [same, guard, row, word, if_pos sound]
  rfl

private theorem length_headerBody : (headerBody width height).length = 13 := rfl

private theorem headerBody_ne_nil : headerBody width height ≠ [] := by
  intro none
  have length := @length_headerBody width height
  rw [none] at length
  cases length

private theorem readHeader_chunk (wide : width ≠ 0) (high : height ≠ 0)
    (fits : width.toNat * 4 * height.toNat < wordLimit) (fuel : Nat) (rest : Bytes) :
    Preamble.readHeader (fuel + 1) (chunk Kind.header (headerBody width height) ++ rest) =
      .ok (rgbaHeader width height, rest) := by
  have length : (headerBody width height).length < 2 ^ 32 := by
    rw [length_headerBody]
    decide
  unfold Preamble.readHeader
  rw [read?_chunk rest rfl length]
  simp only [ne_eq, not_true_eq_false, if_false, content?_chunk headerBody_ne_nil,
    ofBytes?_headerBody wide high fits, verify_chunk, bind, Except.bind]

private theorem readChunks_imageData (preamble : Preamble) {body : Bytes}
    (fits : body.length < 2 ^ 32) (fuel : Nat) (rest : Bytes) :
    Preamble.readChunks (fuel + 1) preamble (chunk Kind.imageData body ++ rest) =
      .ok (preamble, chunk Kind.imageData body ++ rest) := by
  unfold Preamble.readChunks
  rw [read?_chunk rest rfl fits]
  simp

theorem imageChunks_eq (stream : Bytes) :
    imageChunks (stream.length / bodyLimit) stream =
      chunk Kind.imageData (stream.take bodyLimit) ++
        if stream.length < bodyLimit then []
        else imageChunks ((stream.drop bodyLimit).length / bodyLimit) (stream.drop bodyLimit) := by
  have positive : 0 < bodyLimit := by decide
  rcases Nat.lt_or_ge stream.length bodyLimit with short | long
  · rw [if_pos short, Nat.div_eq_of_lt short, imageChunks, List.append_nil,
      List.take_of_length_le (Nat.le_of_lt short)]
  · have fewer : stream.length / bodyLimit = (stream.drop bodyLimit).length / bodyLimit + 1 := by
      rw [List.length_drop, Nat.div_eq_sub_div positive long]
    rw [if_neg (Nat.not_lt.mpr long), fewer, imageChunks]

theorem length_take_bodyLimit (stream : Bytes) : (stream.take bodyLimit).length < 2 ^ 32 :=
  Nat.lt_of_le_of_lt (List.length_take_le _ _) (by decide)

/-- The chunks of a stream and what ends the file. -/
def imageData (stream : Bytes) : Bytes :=
  imageChunks (stream.length / bodyLimit) stream ++ chunk Kind.fileEnd []

theorem read_preamble (wide : width ≠ 0) (high : height ≠ 0)
    (fits : width.toNat * 4 * height.toNat < wordLimit) (stream : Bytes) :
    Preamble.read (signature ++ (chunk Kind.header (headerBody width height) ++
      imageData stream)) = .ok (rgbaPreamble width height, imageData stream) := by
  generalize file : signature ++ (chunk Kind.header (headerBody width height) ++
    imageData stream) = bytes
  have length : bytes.length = 8 + (chunk Kind.header (headerBody width height) ++
      imageData stream).length := by
    rw [← file, List.length_append]
    rfl
  have sign : Preamble.readSignature bytes =
      .ok (chunk Kind.header (headerBody width height) ++ imageData stream) := by
    have four : bytes.take 4 = signature.take 4 := by rw [← file]; rfl
    have eight : bytes.take 8 = signature := by rw [← file]; rfl
    have rest : bytes.drop 8 = chunk Kind.header (headerBody width height) ++
        imageData stream := by rw [← file]; rfl
    unfold Preamble.readSignature
    rw [if_neg (by omega), if_neg (not_not_intro four), if_neg (by omega),
      if_neg (not_not_intro eight), rest]
  obtain ⟨fuel, enough⟩ : ∃ fuel, bytes.length = fuel + 1 := ⟨bytes.length - 1, by omega⟩
  have chunks := readChunks_imageData (rgbaPreamble width height) (length_take_bodyLimit stream)
    fuel ((if stream.length < bodyLimit then [] else imageChunks
      ((stream.drop bodyLimit).length / bodyLimit) (stream.drop bodyLimit)) ++
      chunk Kind.fileEnd [])
  rw [← List.append_assoc, ← imageChunks_eq] at chunks
  unfold Preamble.read
  simp only [sign, enough, readHeader_chunk wide high fits, bind, Except.bind]
  exact chunks

end Png
end TextureCache
