import TextureCache.Proofs.Deflate.Stream
import TextureCache.Proofs.Png.Chunk

/-! Reading the compressed pixels of a written file. A reader stands in a chunk or between two, with
the rest of the stream ahead of it; every step keeps that and uses up a part of the file or of the
bytes at hand, so that the steps it is allowed last to the end. -/
namespace TextureCache.Png

/-- What a file has behind a chunk of a stream: chunks with the rest of it, or its own end. -/
inductive Behind : (later file : Bytes) → Prop where
  | chunks (stream : Bytes) : Behind stream (imageData stream)
  | ending : Behind [] (chunk Kind.fileEnd [])

/-- Where a reader stands: what the file still has there, and the part of the stream in it. -/
inductive Stands : Position → (rest ahead : Bytes) → Prop where
  | body (part : Bytes) {checksum later file : Bytes} (length : checksum.length = 4)
      (behind : Behind later file) :
      Stands (.body part.length) (part ++ (checksum ++ file)) (part ++ later)
  | checksum {checksum later file : Bytes} (length : checksum.length = 4)
      (behind : Behind later file) : Stands .checksum (checksum ++ file) later

private theorem length_fileEnd : (chunk Kind.fileEnd []).length = 12 := by
  simp [chunk, Kind.fileEnd]

theorem Behind.length_le {later file : Bytes} (behind : Behind later file) :
    12 ≤ file.length := by
  cases behind with
  | chunks =>
    rw [imageData, List.length_append, length_fileEnd]
    exact Nat.le_add_left _ _
  | ending => exact Nat.le_of_eq length_fileEnd.symm

theorem Stands.length_le {position : Position} {rest ahead : Bytes}
    (stands : Stands position rest ahead) : 12 ≤ rest.length := by
  cases stands with
  | body part length behind =>
    have least := behind.length_le
    rw [List.length_append, List.length_append]
    omega
  | checksum length behind =>
    have least := behind.length_le
    rw [List.length_append]
    omega

private theorem exists_behind (stream : Bytes) :
    ∃ part later file, stream = part ++ later ∧ part.length < 2 ^ 32 ∧ Behind later file ∧
      imageData stream = chunk Kind.imageData part ++ file := by
  unfold imageData
  rw [imageChunks_eq]
  split
  · rename_i short
    exact ⟨stream.take bodyLimit, [], _,
      by rw [List.append_nil, List.take_of_length_le (Nat.le_of_lt short)],
      length_take_bodyLimit stream, .ending, by rw [List.append_nil]⟩
  · exact ⟨stream.take bodyLimit, stream.drop bodyLimit, _,
      (List.take_append_drop _ _).symm, length_take_bodyLimit stream, .chunks _,
      by rw [List.append_assoc]; rfl⟩

namespace Source

/-- A reader of a stream of stored blocks with some contents. -/
structure Reads (source : Source) (contents : Bytes) : Prop where
  kind : source.kind = Kind.imageData
  integrity : source.integrity = .sound
  size : source.offset + source.rest.length = source.size
  state : source.position = .finished ∧ source.stream.output.toList = contents ∨
    ∃ ahead, Stands source.position source.rest ahead ∧ source.stream.Awaits ahead contents

/-- Eight for the step out of a chunk. -/
def exitCost : Position → Nat
  | .body _ => 8
  | .checksum | .finished => 0

/-- A bound on eight times the steps to the end of the stream. -/
def budget (source : Source) : Nat :=
  16 * source.rest.length + source.stream.inflater.bits.count + exitCost source.position

variable {source : Source} {contents later : Bytes}

private theorem output_of_awaits {stream : Deflate.Stream} {ahead : Bytes}
    (awaits : stream.Awaits ahead contents) : stream.output.toList <+: contents := by
  obtain ⟨_, rest, _, _, _, _, whole⟩ := awaits.inflater
  exact ⟨rest, whole⟩

theorem Reads.output (reads : source.Reads contents) :
    source.stream.output.toList <+: contents := by
  rcases reads.state with ⟨_, whole⟩ | ⟨_, _, awaits⟩
  · exact whole ▸ List.prefix_rfl
  · exact output_of_awaits awaits

/-- Between two chunks a reader comes to the next one, or to the end of the stream. -/
theorem beginChunk_reads (kind : source.kind = Kind.imageData)
    (integrity : source.integrity = .sound)
    (size : source.offset + source.rest.length = source.size)
    (behind : Behind later source.rest) (awaits : source.stream.Awaits later contents) :
    ∃ after, source.beginChunk = .ok after ∧ after.Reads contents ∧ after.taken = source.taken ∧
      (after.position ≠ .finished →
        after.budget ≤ 16 * source.rest.length + source.stream.inflater.bits.count) := by
  generalize remaining : source.rest = rest at behind
  cases behind with
  | chunks =>
    obtain ⟨part, later, file, rfl, fits, behind, split⟩ := exists_behind later
    have front : (Bytes.bigEndian 4 part.length ++ Kind.imageData).length = 8 := rfl
    have left : (chunk Kind.imageData part ++ file).drop 8 =
        part ++ (checksumOf Kind.imageData part ++ file) := by
      rw [chunk_append, List.drop_left' front]
    have length : (chunk Kind.imageData part ++ file).length =
        8 + (part ++ (checksumOf Kind.imageData part ++ file)).length := by
      rw [chunk_append, List.length_append, front]
    have other : Kind.imageData ≠ Kind.frameData := by decide
    unfold beginChunk
    rw [remaining, split, read?_chunk file rfl fits]
    simp only [kind, integrity_chunk, skip, remaining, split, left, ne_eq, not_true_eq_false,
      if_false, other]
    rw [remaining, split, length] at size
    refine ⟨_, rfl, ⟨rfl, rfl, ?_, .inr ⟨part ++ later, .body part (length_checksumOf _ _) behind,
      awaits⟩⟩, rfl, ?_⟩
    · dsimp only
      omega
    · intro _
      simp only [budget, exitCost, length]
      omega
  | ending =>
    have read := @read?_chunk Kind.fileEnd [] [] rfl (by decide)
    have other : Kind.fileEnd ≠ Kind.imageData := by decide
    obtain ⟨stream, finished, whole⟩ := Deflate.Stream.finish_awaits awaits
    rw [List.append_nil] at read
    unfold beginChunk
    rw [remaining, read]
    simp only [kind, ne_eq, other, not_false_eq_true, if_true, finish, finished]
    exact ⟨_, rfl, ⟨rfl, integrity, size, .inl ⟨rfl, whole⟩⟩, rfl, fun more => absurd rfl more⟩

private theorem feed_part {stream : Deflate.Stream} {part : Bytes} {most : Nat}
    (inside : most ≤ part.length) (awaits : stream.Awaits (part ++ later) contents) :
    ∃ after count, stream.feed (part.take most) = some (after, count) ∧ count ≤ most ∧
      after.Awaits (part.drop count ++ later) contents ∧
      after.inflater.bits.count + 8 * after.output.size ≤
        stream.inflater.bits.count + 8 * (count + stream.output.size) ∧
      stream.output.size ≤ after.output.size ∧
      (0 < most → 0 < count ∨ stream.output.size < after.output.size) := by
  have length : (part.take most).length = most := by
    rw [List.length_take, Nat.min_eq_left inside]
  have cut : part ++ later = part.take most ++ (part.drop most ++ later) := by
    rw [← List.append_assoc, List.take_append_drop]
  rw [cut] at awaits
  obtain ⟨after, count, fed, advanced, progress⟩ := Deflate.Stream.feed_awaits awaits
  have taken := advanced.taken
  have ahead : (part.take most).drop count ++ (part.drop most ++ later) =
      part.drop count ++ later := by
    rw [← List.append_assoc, ← List.drop_append_of_le_length taken, List.take_append_drop]
  refine ⟨after, count, fed, length ▸ taken, ahead ▸ advanced.awaits, advanced.amount,
    advanced.grows, ?_⟩
  intro positive
  apply progress
  intro none
  rw [none, List.length_nil] at length
  omega

/-- Decompressing a part of a chunk. -/
theorem decompress_reads (kind : source.kind = Kind.imageData)
    (integrity : source.integrity = .sound)
    (size : source.offset + source.rest.length = source.size) {part checksum file : Bytes}
    (position : source.position = .body part.length)
    (rest : source.rest = part ++ (checksum ++ file)) (length : checksum.length = 4)
    (behind : Behind later file) (awaits : source.stream.Awaits (part ++ later) contents) :
    ∃ after, source.decompress part.length = .ok after ∧ after.Reads contents ∧
      after.taken = source.taken ∧ after.budget + 8 ≤ source.budget := by
  have positive : 0 < pieceSize - source.offset % pieceSize :=
    Nat.sub_pos_of_lt (Nat.mod_lt _ (by decide))
  generalize limit : min part.length (pieceSize - source.offset % pieceSize) = most
  have inside : most ≤ part.length := by omega
  have some : source.rest.isEmpty = false := by
    rw [rest, List.isEmpty_eq_false_iff_exists_mem]
    exact List.exists_mem_of_length_pos (by simp only [List.length_append]; omega)
  have piece : source.rest.take most = part.take most := by
    rw [rest, List.take_append_of_le_length inside]
  obtain ⟨stream, count, fed, taken, awaits, amount, grows, progress⟩ := feed_part inside awaits
  have left : source.rest.drop count = part.drop count ++ (checksum ++ file) := by
    rw [rest, List.drop_append_of_le_length (by omega)]
  have total : source.rest.length = count + (source.rest.drop count).length := by
    rw [List.length_drop, rest]
    simp only [List.length_append]
    omega
  unfold decompress
  simp only [some, limit, piece, fed, Bool.false_eq_true, if_false, skip]
  by_cases whole : count = part.length
  · have nothing : part.drop count = [] := List.drop_eq_nil_of_le (by omega)
    rw [nothing, List.nil_append] at left awaits
    rw [if_pos whole]
    refine ⟨_, rfl, ⟨kind, integrity, ?_, .inr ⟨later, ?_, awaits⟩⟩, rfl, ?_⟩
    · dsimp only
      omega
    · dsimp only
      rw [left]
      exact .checksum length behind
    · simp only [budget, exitCost, position]
      omega
  · rw [if_neg whole]
    refine ⟨_, rfl, ⟨kind, integrity, ?_, .inr ⟨part.drop count ++ later, ?_, awaits⟩⟩, rfl, ?_⟩
    · dsimp only
      omega
    · dsimp only
      rw [left, ← List.length_drop]
      exact .body _ length behind
    · -- Part of the chunk is left, so the piece was not empty: a byte was taken or one was written.
      have moved := progress (by omega)
      simp only [budget, exitCost, position]
      omega

private theorem advance_reads (reads : source.Reads contents)
    (further : source.position ≠ .finished) :
    ∃ after, source.advance = .ok after ∧ after.Reads contents ∧ after.taken = source.taken ∧
      (after.position ≠ .finished → after.budget + 8 ≤ source.budget) := by
  obtain ⟨ahead, stands, awaits⟩ := reads.state.resolve_left fun finished => further finished.1
  unfold advance
  generalize place : source.position = position at stands
  generalize remaining : source.rest = rest at stands
  cases stands with
  | body part length behind =>
    obtain ⟨after, advanced, reading, taken, cheaper⟩ := decompress_reads reads.kind
      reads.integrity reads.size place remaining length behind awaits
    exact ⟨after, advanced, reading, taken, fun _ => cheaper⟩
  | @checksum checksum _ file length behind =>
    have left : (source.skip 4).rest = file := by
      rw [skip, remaining, List.drop_left' length]
    have size : (source.skip 4).offset + (source.skip 4).rest.length = (source.skip 4).size := by
      have whole := reads.size
      rw [remaining, List.length_append, length] at whole
      rw [left]
      simp only [skip]
      omega
    obtain ⟨after, begun, reading, taken, cheaper⟩ := @beginChunk_reads (source.skip 4) contents _
      reads.kind reads.integrity size (left.symm ▸ behind) awaits
    refine ⟨after, ?_, reading, taken, ?_⟩
    · unfold endChunk
      simp only [reads.integrity]
      exact begun
    · intro more
      have bound := cheaper more
      rw [left] at bound
      unfold skip at bound
      dsimp only at bound
      have total : (checksum ++ file).length = checksum.length + file.length :=
        List.length_append
      unfold budget exitCost at *
      rw [remaining, place]
      dsimp only
      omega

/-- Steps that last to the end of the stream. At the least the end of the file is left over. -/
def Funded (source : Source) (fuel : Nat) : Prop :=
  0 < fuel ∧ (source.position ≠ .finished → source.budget < 8 * fuel + 184)

theorem Funded.next {fuel : Nat} {after : Source} (reads : source.Reads contents)
    (further : source.position ≠ .finished) (funded : source.Funded (fuel + 1))
    (cheaper : after.position ≠ .finished → after.budget + 8 ≤ source.budget) :
    after.Funded fuel := by
  obtain ⟨ahead, stands, _⟩ := reads.state.resolve_left fun finished => further finished.1
  have least := stands.length_le
  have bound := funded.2 further
  have kept : 16 * source.rest.length ≤ source.budget := by
    unfold budget
    omega
  constructor
  · omega
  · intro more
    have lower := cheaper more
    omega

private theorem funded_stepsLeft (reads : source.Reads contents) :
    source.Funded source.stepsLeft := by
  have size := reads.size
  constructor
  · unfold stepsLeft
    omega
  · intro further
    obtain ⟨ahead, _, awaits⟩ := reads.state.resolve_left fun finished => further finished.1
    obtain ⟨held, _, holds, few, _⟩ := awaits.inflater
    have count : source.stream.inflater.bits.count = 8 * held.length := holds.count
    have exit : exitCost source.position ≤ 8 := by
      cases source.position with
      | body left => exact Nat.le_refl 8
      | checksum | finished => exact Nat.zero_le 8
    unfold budget stepsLeft
    omega

private theorem reachWithin_reads {fuel : Nat} (size : Nat) (reads : source.Reads contents)
    (funded : source.Funded fuel) :
    ∃ after, source.reachWithin size fuel = .ok after ∧ after.Reads contents ∧
      after.taken = source.taken ∧ (size ≤ after.waiting ∨ after.position = .finished) := by
  induction fuel generalizing source with
  | zero => exact absurd funded.1 (Nat.lt_irrefl 0)
  | succ fuel ih =>
    unfold reachWithin
    by_cases reached : size ≤ source.waiting ∨ source.position = .finished
    · rw [if_pos reached]
      exact ⟨source, rfl, reads, rfl, reached⟩
    · obtain ⟨_, further⟩ := not_or.mp reached
      obtain ⟨next, advanced, reading, taken, cheaper⟩ := advance_reads reads further
      obtain ⟨after, result, done, same, enough⟩ := ih reading (.next reads further funded cheaper)
      rw [if_neg reached, advanced]
      exact ⟨after, result, done, same.trans taken, enough⟩

theorem take_reads {size : Nat} (reads : source.Reads contents) (some : 0 < size)
    (enough : source.taken + size ≤ contents.length) :
    ∃ output after, source.take size = .ok (output, after) ∧
      output.toList = contents.slice source.taken size ∧ after.Reads contents ∧
      after.taken = source.taken + size := by
  obtain ⟨after, reached, reading, taken, ready⟩ :=
    reachWithin_reads size reads (funded_stepsLeft reads)
  have waiting : size ≤ after.waiting := by
    rcases ready with waiting | finished
    · exact waiting
    · -- At its end the stream has put out all contents, so enough of them are still to be taken.
      have whole := (reading.state.resolve_right fun ⟨_, stands, _⟩ => by
        rw [finished] at stands
        cases stands).2
      have total : after.stream.output.size = contents.length := congrArg List.length whole
      unfold Source.waiting
      omega
  have available : after.taken + size ≤ after.stream.output.size := by
    unfold Source.waiting at waiting
    omega
  have bytes : (after.stream.output.extract after.taken (after.taken + size)).toList =
      contents.slice source.taken size := by
    obtain ⟨rest, whole⟩ := reading.output
    rw [Array.toList_extract, List.extract_eq_take_drop, Nat.add_sub_cancel_left, ← whole, ← taken,
      Bytes.slice_append_left rest available, Bytes.slice]
  unfold Source.take
  simp only [reached, bind, Except.bind]
  rw [if_neg (Nat.not_lt.mpr waiting)]
  refine ⟨_, _, rfl, bytes, ⟨reading.kind, reading.integrity, reading.size, reading.state⟩, ?_⟩
  dsimp only
  rw [taken]

private theorem drainWithin_reads {fuel : Nat} (reads : source.Reads contents)
    (funded : source.Funded fuel) : ∃ after, source.drainWithin fuel = .ok after := by
  induction fuel generalizing source with
  | zero => exact absurd funded.1 (Nat.lt_irrefl 0)
  | succ fuel ih =>
    unfold drainWithin
    by_cases further : source.position = .finished
    · rw [if_pos further]
      exact ⟨source, rfl⟩
    · obtain ⟨next, advanced, reading, _, cheaper⟩ := advance_reads reads further
      rw [if_neg further, advanced]
      exact ih reading (.next reads further funded cheaper)

theorem drain_reads (reads : source.Reads contents) : ∃ after, source.drain = .ok after :=
  drainWithin_reads reads (funded_stepsLeft reads)

theorem start_reads {preamble : Preamble} {file : Bytes} (contents : Bytes)
    (expected : ∀ total ∈ preamble.expectedSize, contents.length ≤ total)
    (inside : (imageData (Deflate.store contents)).length ≤ file.length) :
    ∃ source, start preamble file (imageData (Deflate.store contents)) = .ok source ∧
      source.Reads contents ∧ source.taken = 0 := by
  have kind : (imageData (Deflate.store contents)).slice 4 4 = Kind.imageData := by
    obtain ⟨part, later, behind, _, _, _, split⟩ := exists_behind (Deflate.store contents)
    have aligned := Bytes.slice_append_right (Bytes.bigEndian 4 part.length)
      (Kind.imageData ++ (part ++ (checksumOf Kind.imageData part ++ behind))) 0 4
    rw [Bytes.length_bigEndian, Nat.add_zero, ← List.append_assoc, ← chunk_append] at aligned
    rw [split, aligned]
    rfl
  obtain ⟨source, begun, reads, taken, _⟩ := @beginChunk_reads
    ⟨(imageData (Deflate.store contents)).slice 4 4, .checksum, .sound,
      imageData (Deflate.store contents),
      file.length - (imageData (Deflate.store contents)).length, file.length,
      (preamble.frame.map Frame.number).getD 0, .start preamble.expectedSize, 0⟩
    contents _ kind rfl (Nat.sub_add_cancel inside) (.chunks _)
    (Deflate.Stream.awaits_start contents expected)
  exact ⟨source, begun, reads, taken⟩

end Source
end TextureCache.Png
