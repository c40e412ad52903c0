import TextureCache.Proofs.Dds.Acceptance
import TextureCache.Proofs.Dds.Reimport
import TextureCache.Proofs.Import.Stored
import TextureCache.Proofs.Texel.ChannelOrder

/-! A replacement with blue in front means the same as one with red in front. The two files differ
in how their pixels are named and in the order of the channels, but not in where a slice lies; and
every slice starts and ends with a texel, so that the channels can be exchanged before the slices
are moved or after. -/
namespace TextureCache

variable {info : ImageInfo} {texels other file : Bytes}

/-- The same image with red in front. -/
def ImageInfo.inRgba8 (info : ImageInfo) : ImageInfo := { info with format := .rgba8 }

namespace ImageInfo

variable (blueFirst : info.format = .bgra8)

include blueFirst

private theorem sliceSize_inRgba8 : info.inRgba8.sliceSize = info.sliceSize := by
  funext level
  unfold sliceSize
  rw [blueFirst]
  rfl

private theorem exactSize_inRgba8 : info.inRgba8.exactSize = info.exactSize := by
  unfold exactSize
  rw [sliceSize_inRgba8 blueFirst]
  rfl

private theorem checkedSize_inRgba8 : info.inRgba8.checkedSize = info.checkedSize := by
  rw [checkedSize_eq, checkedSize_eq, exactSize_inRgba8 blueFirst]

private theorem payloadSize_inRgba8 : info.inRgba8.payloadSize = info.payloadSize := by
  rw [payloadSize, payloadSize, checkedSize_inRgba8 blueFirst]

private theorem dvd_sliceSize (level : Level) : 4 ∣ info.sliceSize level := by
  unfold sliceSize
  rw [blueFirst]
  exact Nat.dvd_mul_left 4 _

private theorem dvd_exactSize : 4 ∣ info.exactSize := by
  apply List.dvd_sum
  intro size member
  obtain ⟨level, _, rfl⟩ := List.mem_map.mp member
  exact (dvd_sliceSize blueFirst level).mul_right _

end ImageInfo

namespace Dds

/-- Slices that are cut from both sides of an exchange, at any place that they have there. -/
theorem exchanged_slices {moves : List Move} {place : Move → Nat}
    (aligned : ∀ move ∈ moves, 4 ∣ place move ∧ 4 ∣ move.size)
    (inside : ∀ move ∈ moves, place move + move.size ≤ texels.length)
    (exchanged : Exchanged texels other) :
    Exchanged (moves.flatMap fun move => texels.slice (place move) move.size)
      (moves.flatMap fun move => other.slice (place move) move.size) := by
  apply Exchanged.flatMap
  · intro move member
    rw [Bytes.length_slice_of_le (inside move member)]
    exact (aligned move member).2
  · intro move member
    exact exchanged.slice (aligned move member).1 (inside move member)

section Order

variable (blueFirst : info.format = .bgra8)

include blueFirst

private theorem moveAt_inRgba8 (layer index : Nat) :
    moveAt info.inRgba8 layer index = moveAt info layer index := by
  unfold moveAt chainSize sliceSizeAt
  rw [ImageInfo.sliceSize_inRgba8 blueFirst]
  rfl

private theorem layerMajorMoves_inRgba8 : layerMajorMoves info.inRgba8 = layerMajorMoves info := by
  unfold layerMajorMoves
  rw [ImageInfo.sliceSize_inRgba8 blueFirst]
  rfl

private theorem levelMajorMoves_inRgba8 : levelMajorMoves info.inRgba8 = levelMajorMoves info := by
  unfold levelMajorMoves
  simp only [moveAt_inRgba8 blueFirst]
  rfl

private theorem dvd_chainSize (index : Nat) : 4 ∣ chainSize info index := by
  apply List.dvd_sum
  intro size member
  obtain ⟨level, _, rfl⟩ := List.mem_map.mp member
  exact ImageInfo.dvd_sliceSize blueFirst _

private theorem dvd_of_mem_layerMajorMoves (flat : info.dimensions ≠ .volume) {move : Move}
    (member : move ∈ layerMajorMoves info) : 4 ∣ move.disk ∧ 4 ∣ move.memory ∧ 4 ∣ move.size := by
  rw [layerMajorMoves_eq flat] at member
  obtain ⟨layer, _, inside⟩ := List.mem_flatMap.mp member
  obtain ⟨index, _, rfl⟩ := List.mem_map.mp inside
  have size : 4 ∣ sliceSizeAt info index := ImageInfo.dvd_sliceSize blueFirst _
  have before := dvd_chainSize blueFirst index
  have chain := dvd_chainSize blueFirst info.levels.toNat
  exact ⟨Nat.dvd_add (chain.mul_left _) before, Nat.dvd_add (before.mul_left _) (size.mul_left _),
    size⟩

private theorem exchanged_payload (fits : info.exactSize < wordLimit)
    (enough : info.exactSize ≤ texels.length) (exchanged : Exchanged texels other) :
    Exchanged (payload info texels) (payload info.inRgba8 other) := by
  have same := ImageInfo.exactSize_inRgba8 blueFirst
  have again : isLayerMajor info.inRgba8 = isLayerMajor info := rfl
  unfold payload
  rw [again]
  cases layered : isLayerMajor info with
  | true =>
    have flat := flat_of_layerMajor layered
    have own := toDisk_eq flat fits enough
    have flatToo : info.inRgba8.dimensions ≠ .volume := flat
    have twin := toDisk_eq flatToo (same ▸ fits) (same ▸ exchanged.length ▸ enough)
    rw [if_pos rfl, if_pos rfl, own, twin]
    unfold diskPatches Patch.contents
    rw [List.flatMap_map, List.flatMap_map, layerMajorMoves_inRgba8 blueFirst]
    exact exchanged_slices
      (fun move member => (dvd_of_mem_layerMajorMoves blueFirst flat member).2)
      (fun move member => Nat.le_trans (move_bounds flat member).2 enough) exchanged
  | false =>
    rw [if_neg Bool.false_ne_true, if_neg Bool.false_ne_true,
      ImageInfo.payloadSize_inRgba8 blueFirst, ImageInfo.payloadSize_eq fits]
    exact exchanged.slice (Nat.dvd_zero 4) (by rwa [Nat.zero_add])

end Order

def Contents.inRgba8 (contents : Contents) : Contents :=
  { contents with info := contents.info.inRgba8 }

/-- Exchanging the channels of a payload exchanges those of the texels that are read of it. -/
theorem exchanged_texelsOf {contents : Contents} {again : Bytes}
    (blueFirst : contents.info.format = .bgra8) (accepted : Accepted file contents)
    (exchanged : Exchanged (file.slice contents.offset contents.size)
      (again.slice contents.offset contents.size)) :
    Exchanged (texelsOf file contents) (texelsOf again contents.inRgba8) := by
  have length := length_payloadSlice accepted
  have same : isLayerMajor contents.inRgba8.info = isLayerMajor contents.info := rfl
  unfold texelsOf
  dsimp only
  rw [same]
  cases layered : isLayerMajor contents.info with
  | true =>
    have flat := flat_of_layerMajor layered
    rw [if_pos rfl, if_pos rfl]
    unfold memoryPatches Patch.contents
    rw [List.flatMap_map, List.flatMap_map]
    have moves : levelMajorMoves contents.inRgba8.info = levelMajorMoves contents.info :=
      levelMajorMoves_inRgba8 blueFirst
    rw [moves]
    refine exchanged_slices ?_ ?_ exchanged
    · intro move member
      obtain ⟨disk, _, size⟩ := dvd_of_mem_layerMajorMoves blueFirst flat
        ((mem_levelMajorMoves flat move).mp member)
      exact ⟨disk, size⟩
    · intro move member
      rw [length, accepted.size]
      exact (move_bounds flat ((mem_levelMajorMoves flat move).mp member)).1
  | false => exact exchanged

private theorem locatePayload_inRgba8 (blueFirst : info.format = .bgra8) {again : Bytes}
    (length : again.length = file.length) (offset : Nat) :
    locatePayload again info.inRgba8 offset =
      (locatePayload file info offset).map Contents.inRgba8 := by
  unfold locatePayload
  rw [ImageInfo.checkedSize_inRgba8 blueFirst, length]
  cases info.checkedSize with
  | none => rfl
  | some size =>
    dsimp only
    cases fitsWord (offset + size) with
    | none => rfl
    | some bound =>
      dsimp only
      split <;> rfl

private theorem levelsOfHeader_inRgba8 (info : ImageInfo) :
    levelsOfHeader (build info.inRgba8) = levelsOfHeader (build info) := by
  unfold levelsOfHeader
  rw [has_flags_build, has_flags_build]
  rfl

private theorem isSound_inRgba8 (info : ImageInfo) :
    (build info.inRgba8).isSound = (build info).isSound := by
  unfold Header.isSound
  rw [levelsOfHeader_inRgba8]
  rfl

private theorem describedArrangement_inRgba8 (info : ImageInfo) :
    describedArrangement info.inRgba8 = describedArrangement info := rfl

/-- Two headers that differ in the order of the channels are accepted together, and tell the same
but for that order. -/
theorem parse_inRgba8 (blueFirst : info.format = .bgra8) {rest more : Bytes}
    (length : more.length = rest.length) :
    parse (headerBytes info.inRgba8 ++ more) =
      (parse (headerBytes info ++ rest)).map Contents.inRgba8 := by
  have stored : canStore info.format info.dimensions = true := by
    rw [blueFirst]
    exact Bool.or_true _
  have storedToo : canStore info.inRgba8.format info.inRgba8.dimensions = true :=
    ExportJob.canStore_rgba8 info.dimensions
  have total : (headerBytes info.inRgba8 ++ more).length = (headerBytes info ++ rest).length := by
    rw [List.length_append, List.length_append, length_headerBytes_of_canStore stored,
      length_headerBytes_of_canStore storedToo, length]
    rfl
  rw [parse_of_canStore stored, parse_of_canStore storedToo]
  rw [isSound_inRgba8, describedArrangement_inRgba8, levelsOfHeader_inRgba8]
  split
  · cases describedArrangement info with
    | error error => rfl
    | ok arrangement =>
      obtain ⟨dimensions, count⟩ := arrangement
      have format : (⟨info.width, info.height, count, levelsOfHeader (build info), info.format,
        dimensions⟩ : ImageInfo).format = .bgra8 := blueFirst
      exact locatePayload_inRgba8 format total _
  · rfl

/-- What is read of a written header has the format of the image and starts behind the header. -/
theorem format_of_parse {contents : Contents} {rest : Bytes}
    (stored : canStore info.format info.dimensions = true)
    (parsed : parse (headerBytes info ++ rest) = .ok contents) :
    contents.info.format = info.format ∧ contents.offset = (headerBytes info).length := by
  rw [parse_of_canStore stored] at parsed
  split at parsed
  · cases described : describedArrangement info with
    | error error =>
      rw [described] at parsed
      cases parsed
    | ok arrangement =>
      rw [described] at parsed
      obtain ⟨rfl, _, _⟩ := locatePayload_eq_ok parsed
      exact ⟨rfl, (length_headerBytes_of_canStore stored).symm⟩
  · cases parsed

end Dds

private theorem ImportedTexture.ofContents_inRgba8 {contents : Dds.Contents} {again : Bytes}
    (space : ColorSpace) (blueFirst : contents.info.format = .bgra8)
    (accepted : Dds.Accepted file contents)
    (exchanged : Exchanged (file.slice contents.offset contents.size)
      (again.slice contents.offset contents.size)) :
    ofContents space again contents.inRgba8 = ofContents space file contents := by
  have whole : 4 ∣ (Dds.texelsOf file contents).length := by
    rw [Dds.length_texelsOf accepted, accepted.size]
    exact ImageInfo.dvd_exactSize blueFirst
  have texels := (Dds.exchanged_texelsOf blueFirst accepted exchanged).eq_swapRedBlue whole
  have swapped : ImportReport.ddsTexels contents.info (Dds.texelsOf file contents) =
      swapRedBlue (Dds.texelsOf file contents) := if_pos blueFirst
  have layout : FormatInfo.ofStored contents.info.format space = FormatInfo.rgba8 space := by
    rw [blueFirst]
    rfl
  unfold ofContents
  rw [swapped, ← texels, layout]
  rfl

namespace ImportReport

/-- The file of an image with its channels exchanged is imported as the file of the image is, or is
refused as that is. -/
theorem ofDds_inRgba8 (blueFirst : info.format = .bgra8) (addressable : texels.length < 2 ^ 63)
    (exchanged : Exchanged texels other) (saved : Dds.save info texels = .ok file) :
    ∃ again, Dds.save info.inRgba8 other = .ok again ∧
      ∀ space, ofDds space again = ofDds space file := by
  obtain ⟨⟨enough, stored⟩, rfl⟩ := Dds.save_eq_ok_iff.mp saved
  obtain ⟨word, size⟩ := Dds.exactSize_of_enough addressable enough
  have payloads := Dds.exchanged_payload blueFirst word (size ▸ enough) exchanged
  have room : info.inRgba8.payloadSize ≤ other.length := by
    rwa [ImageInfo.payloadSize_inRgba8 blueFirst, exchanged.length]
  have storedToo : Dds.canStore info.inRgba8.format info.inRgba8.dimensions = true :=
    ExportJob.canStore_rgba8 info.dimensions
  have headers : (Dds.headerBytes info.inRgba8).length = (Dds.headerBytes info).length := by
    rw [Dds.length_headerBytes_of_canStore stored, Dds.length_headerBytes_of_canStore storedToo]
    rfl
  refine ⟨_, Dds.save_eq_of_canStore storedToo room, fun space => ?_⟩
  rw [ofDds_eq, ofDds_eq, Dds.parse_inRgba8 blueFirst payloads.length]
  cases parsed : Dds.parse (Dds.headerBytes info ++ Dds.payload info texels) with
  | error error => rfl
  | ok contents =>
    have accepted := Dds.accepted_of_parse parsed
    obtain ⟨format, offset⟩ := Dds.format_of_parse stored parsed
    have slices := payloads.slice_append headers (offset ▸ accepted.fits)
    rw [← offset] at slices
    exact congrArg Except.ok
      (ImportedTexture.ofContents_inRgba8 space (format.trans blueFirst) accepted slices)

/-- A replacement with blue in front means the same as one with red in front. However the saved
image is arranged, the file that holds it with its channels exchanged is imported to the same
texture: the same extents and levels, the same format and the same bytes. The exchange itself acts
on every whole texel, and doing it twice does nothing to any bytes. -/
theorem search_inRgba8 :
    (∀ (info : ImageInfo) (texels other file : Bytes), info.format = .bgra8 →
      texels.length < 2 ^ 63 → Exchanged texels other → Dds.save info texels = .ok file →
        ∃ again, Dds.save { info with format := .rgba8 } other = .ok again ∧
          (∀ space, ofDds space again = ofDds space file) ∧
          ∀ header, Dds.loadHeader file = .ok header →
            ∀ (texture : Texture) (view other : FileView)
              (directories otherDirectories : List Path), texture.format.isSupported = true →
              view.Provides directories (texture.fileName .dds).render file →
              other.Provides otherDirectories (texture.fileName .dds).render again →
                ∃ imported, (view.search directories texture).outcome = .replaced imported ∧
                  (other.search otherDirectories texture).outcome = .replaced imported) ∧
    ∀ buffer, Exchanged buffer (swapRedBlue buffer) ∧
      swapRedBlue (swapRedBlue buffer) = buffer := by
  refine ⟨?_, fun buffer => ⟨exchanged_swapRedBlue buffer, swapRedBlue_swapRedBlue buffer⟩⟩
  intro info texels exchange file blueFirst addressable exchanged saved
  obtain ⟨again, savedToo, same⟩ := ofDds_inRgba8 blueFirst addressable exchanged saved
  refine ⟨again, savedToo, same, ?_⟩
  intro header loadable texture view other directories otherDirectories supported own twin
  obtain ⟨path, found, held⟩ := own
  obtain ⟨otherPath, foundToo, heldToo⟩ := twin
  unfold Dds.loadHeader at loadable
  cases parsed : Dds.parse file with
  | error error =>
    rw [parsed] at loadable
    cases loadable
  | ok contents =>
    have loaded : ofDds texture.format.colorSpace file =
        .ok (.ofContents texture.format.colorSpace file contents) := by
      rw [ofDds_eq, parsed]
      rfl
    exact ⟨_, FileView.search_of_dds supported found held loaded,
      FileView.search_of_dds supported foundToo heldToo ((same _).trans loaded)⟩

/-- Two layers of two levels, saved in both orders of the channels, each file alone in a tree. -/
theorem search_inRgba8_layers :
    let root := Path.ofNames []
    let texture : Texture := ⟨⟨1, 1, 1, 1, 1⟩, .rgba8 .srgb, .texture2D, [1, 2, 3, 4]⟩
    let path := root.join (texture.fileName .dds).render
    let info : ImageInfo := ⟨2, 1, 2, 2, .bgra8, .flatArray⟩
    let texels := (List.range 24).map UInt8.ofNat
    ∃ file again files others imported, Dds.save info texels = .ok file ∧
      Dds.save { info with format := .rgba8 } (swapRedBlue texels) = .ok again ∧
      (FileSystem.initial ⟨0⟩).writeAll [(path, file)] = .ok files ∧
      (FileSystem.initial ⟨0⟩).writeAll [(path, again)] = .ok others ∧
      ((FileView.ofFiles files).search [root] texture).outcome = .replaced imported ∧
      ((FileView.ofFiles others).search [root] texture).outcome = .replaced imported := by
  intro root texture path info texels
  have accepts : Dds.Accepts info texels := by decide
  have saved := Dds.save_eq_of_canStore accepts.2 accepts.1
  have loadable : Dds.loadHeader (Dds.headerBytes info ++ Dds.payload info texels) = .ok info := by
    decide +kernel
  obtain ⟨again, savedToo, _, found⟩ := search_inRgba8.1 info texels (swapRedBlue texels) _ rfl
    (by decide) (exchanged_swapRedBlue texels) saved
  have target : (FileSystem.initial ⟨0⟩).writeTarget path =
      .ok [(texture.fileName .dds).render] := by decide +kernel
  have alone (contents : Bytes) : ∃ files,
      (FileSystem.initial ⟨0⟩).writeAll [(path, contents)] = .ok files ∧
        (FileView.ofFiles files).Provides [root] (texture.fileName .dds).render contents := by
    have written : (FileSystem.initial ⟨0⟩).writeAll [(path, contents)] = .ok _ :=
      FileSystem.writeAll_cons_eq_ok_iff.mpr ⟨_, FileSystem.write_eq_ok_iff.mpr
        ⟨_, target, rfl⟩, rfl⟩
    obtain ⟨_, read⟩ :=
      FileSystem.read_writeAll written (List.pairwise_singleton _ _) List.mem_cons_self
    exact ⟨_, written, FileSystem.provides_of_read read⟩
  obtain ⟨files, written, own⟩ := alone (Dds.headerBytes info ++ Dds.payload info texels)
  obtain ⟨others, writtenToo, twin⟩ := alone again
  obtain ⟨imported, first, second⟩ :=
    found info loadable texture (.ofFiles files) (.ofFiles others) [root] [root] rfl own twin
  exact ⟨_, again, files, others, imported, saved, savedToo, written, writtenToo, first, second⟩

end ImportReport
end TextureCache
