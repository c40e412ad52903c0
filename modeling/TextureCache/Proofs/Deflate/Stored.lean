import TextureCache.Deflate.Inflater
import TextureCache.Deflate.Stored
import TextureCache.Proofs.Deflate.Bits

/-! Decompressing a stream of stored blocks. What lies ahead of a reader is described by its phase;
every step keeps that description, and a reader that waits has read its input or has no room. So in
whatever pieces the stream comes, its contents come out. -/
namespace TextureCache.Deflate

def blocks (contents : Bytes) : Bytes := storedBlocks (contents.length / storedLimit) contents

def phaseAfter (isLast : Bool) : Phase := if isLast then .checksum else .block

/-- What lies ahead of a reader, by its phase, when it is to get contents from stored blocks. -/
inductive Ahead : Phase → (isLast : Bool) → (bytes contents : Bytes) → Prop where
  | header (isLast : Bool) (contents : Bytes) {checksum : Bytes} (length : checksum.length = 4) :
      Ahead .header isLast (0x78 :: 0x01 :: (blocks contents ++ checksum)) contents
  | block (isLast : Bool) (contents : Bytes) {checksum : Bytes} (length : checksum.length = 4) :
      Ahead .block isLast (blocks contents ++ checksum) contents
  | stored (part : Bytes) {isLast : Bool} {bytes contents : Bytes}
      (next : Ahead (phaseAfter isLast) isLast bytes contents) :
      Ahead (.stored part.length) isLast (part ++ bytes) (part ++ contents)
  | checksum (isLast : Bool) {checksum : Bytes} (length : checksum.length = 4) :
      Ahead .checksum isLast checksum []
  | done (isLast : Bool) : Ahead .done isLast [] []

theorem ahead_store (contents : Bytes) : Ahead .header false (store contents) contents :=
  .header false contents (Bytes.length_bigEndian 4 _)

private theorem exists_block (contents : Bytes) {checksum : Bytes} (length : checksum.length = 4) :
    ∃ isLast part bytes rest, contents = part ++ rest ∧ part.length ≤ storedLimit ∧
      blocks contents ++ checksum = storedBytes isLast part ++ bytes ∧
      Ahead (phaseAfter isLast) isLast bytes rest := by
  rcases Nat.lt_or_ge contents.length storedLimit with short | long
  · refine ⟨true, contents, checksum, [], (List.append_nil _).symm, Nat.le_of_lt short, ?_,
      .checksum true length⟩
    rw [blocks, Nat.div_eq_of_lt short, storedBlocks]
  · have positive : 0 < storedLimit := by decide
    have first : (contents.take storedLimit).length ≤ storedLimit := List.length_take_le _ _
    refine ⟨false, contents.take storedLimit, blocks (contents.drop storedLimit) ++ checksum,
      contents.drop storedLimit, (List.take_append_drop _ _).symm, first, ?_,
      .block false _ length⟩
    have fewer : contents.length / storedLimit =
        (contents.drop storedLimit).length / storedLimit + 1 := by
      rw [List.length_drop, Nat.div_eq_sub_div positive long]
    rw [blocks, fewer, storedBlocks, List.append_assoc]
    rfl

/-- Of two ways to cut the same bytes, the later cut leaves a rest behind the earlier one. -/
theorem exists_rest_of_append_eq {held tail front back : Bytes}
    (same : held ++ tail = front ++ back) (early : front.length ≤ held.length) :
    ∃ more, held = front ++ more ∧ more ++ tail = back := by
  rcases List.append_eq_append_iff.mp same with ⟨more, later, rest⟩ | ⟨more, earlier, rest⟩
  · have none : more = [] := by
      rw [later, List.length_append] at early
      exact List.length_eq_zero_iff.mp (by omega)
    subst none
    exact ⟨[], by simpa using later.symm, by simpa using rest⟩
  · exact ⟨more, earlier, rest.symm⟩

namespace Inflater

/-- The bytes at hand and those to come are the rest of a stream of stored blocks, which brings the
output to some contents. -/
def Awaits (inflater : Inflater) (future contents : Bytes) : Prop :=
  ∃ held rest, inflater.bits.Holds held ∧ held.length ≤ 7 ∧ inflater.pending = .nothing ∧
    Ahead inflater.phase inflater.isLast (held ++ (inflater.bits.input ++ future)) rest ∧
    inflater.output.toList ++ rest = contents

/-- What a reader does with its input and its room. -/
structure Progress (limit : Nat) (before after : Inflater) : Prop where
  input : after.bits.input <:+ before.bits.input
  amount : after.bits.available + 8 * after.output.size ≤
    before.bits.available + 8 * before.output.size
  grows : before.output.size ≤ after.output.size
  within : after.output.size ≤ max limit before.output.size

/-- Why a reader waits: the stream is at its end, or all input was read and there is more to come,
or there is no room and more is to be written. -/
def Waits (limit : Nat) (future contents : Bytes) (inflater : Inflater) : Prop :=
  inflater.phase = .done ∨ inflater.bits.input = [] ∧ future ≠ [] ∨
    limit ≤ inflater.output.size ∧ inflater.output.size < contents.length

/-- The steps that a reader takes in a phase without taking bits. -/
def freeSteps (phase : Phase) : Nat := if phase matches .stored _ then 1 else 0

/-- A bound on the steps before a reader waits. -/
def weight (inflater : Inflater) : Nat := 2 * inflater.bits.available + freeSteps inflater.phase

def StepsWell (limit : Nat) (future contents : Bytes) (before : Inflater) : Step → Prop
  | .moved after => after.Awaits future contents ∧ Progress limit before after ∧
      after.weight < before.weight
  | .waiting after => after.Awaits future contents ∧ Progress limit before after ∧
      after.Waits limit future contents
  | .damaged => False

variable {inflater before : Inflater} {limit : Nat} {held future contents rest : Bytes}

theorem Progress.refl (limit : Nat) (inflater : Inflater) : Progress limit inflater inflater :=
  ⟨List.suffix_rfl, Nat.le_refl _, Nat.le_refl _, Nat.le_max_right _ _⟩

theorem Progress.trans {second third : Inflater} (early : Progress limit before second)
    (late : Progress limit second third) : Progress limit before third where
  input := late.input.trans early.input
  amount := Nat.le_trans late.amount early.amount
  grows := Nat.le_trans early.grows late.grows
  within := by
    have first := early.within
    have next := late.within
    omega

private theorem stepsWell_waiting (holds : inflater.bits.Holds held) (few : held.length ≤ 7)
    (fetched : inflater.bits.input = [] ∨ held.length = 7) (none : inflater.pending = .nothing)
    (ahead : Ahead inflater.phase inflater.isLast (held ++ (inflater.bits.input ++ future)) rest)
    (whole : inflater.output.toList ++ rest = contents)
    (progress : Progress limit before inflater) (short : held.length < 7)
    (more : held.length < (held ++ (inflater.bits.input ++ future)).length) :
    StepsWell limit future contents before (.waiting inflater) := by
  have read : inflater.bits.input = [] := fetched.resolve_right (by omega)
  refine ⟨⟨held, rest, holds, few, none, ahead, whole⟩, progress, .inr (.inl ⟨read, ?_⟩)⟩
  rintro rfl
  rw [read] at more
  simp at more

private theorem stepsWell_readHeader (holds : inflater.bits.Holds held) (few : held.length ≤ 7)
    (fetched : inflater.bits.input = [] ∨ held.length = 7) (none : inflater.pending = .nothing)
    (phase : inflater.phase = .header)
    (ahead : Ahead .header inflater.isLast (held ++ (inflater.bits.input ++ future)) rest)
    (whole : inflater.output.toList ++ rest = contents) :
    StepsWell limit future contents inflater inflater.readHeader := by
  have count := holds.count
  unfold readHeader need
  generalize stream : held ++ (inflater.bits.input ++ future) = bytes at ahead
  cases ahead with
  | header _ _ length =>
    split
    · apply stepsWell_waiting holds few fetched none
        (by rw [stream, phase]; exact .header _ _ length) whole (.refl _ _) (by omega)
      rw [stream, List.length_cons, List.length_cons]
      omega
    · rcases held with _ | ⟨first, _ | ⟨second, more⟩⟩
      · simp at count
        omega
      · simp at count
        omega
      · simp only [List.cons_append, List.cons.injEq] at stream
        obtain ⟨rfl, rfl, stream⟩ := stream
        have method : inflater.bits.field 0 8 = 0x78 := holds.field 0 1
        have flags : inflater.bits.field 8 8 = 0x01 := holds.field 1 1
        have sound : isHeader 0x78 0x01 = true := by decide
        have left := holds.drop 2
        have amount := inflater.bits.available_drop (show 16 ≤ inflater.bits.count by omega)
        rw [method, flags, if_pos sound]
        refine ⟨⟨more, rest, left, by simp at few; omega, none, ?_, whole⟩,
          ⟨List.suffix_rfl, ?_, Nat.le_refl _, Nat.le_max_right _ _⟩, ?_⟩
        · change Ahead .block _ (more ++ (inflater.bits.input ++ future)) rest
          rw [stream]
          exact .block _ _ length
        · simp only [enter]
          omega
        · simp only [weight, enter, phase, freeSteps, Bool.false_eq_true, ↓reduceIte]
          omega

/-- The first byte of a stored block says that it is stored and whether it is the last one. -/
theorem kind_of_holds {bits : BitBuffer} {last : Bool} (holds : bits.Holds held)
    (first : held.head? = some (if last then 1 else 0)) :
    bits.field 1 2 = 0 ∧ decide (bits.field 0 1 = 1) = last := by
  have mark : bits.value % 256 = if last then 1 else 0 := by
    rcases held with _ | ⟨byte, more⟩
    · cases first
    · have same : byte = if last then 1 else 0 := Option.some.inj first
      rw [holds.value, Bytes.ofLittleEndian, same]
      cases last <;> simp
  simp only [BitBuffer.field, bitField, Nat.shiftRight_eq_div_pow, Nat.one_shiftLeft]
  cases last with
  | false =>
    simp only [Bool.false_eq_true, if_false] at mark
    exact ⟨by omega, decide_eq_false (by omega)⟩
  | true =>
    simp only [if_true] at mark
    exact ⟨by omega, decide_eq_true (by omega)⟩

/-- Behind its first byte a stored block has its length and the inverse of its length. -/
theorem lengths_of_holds {bits : BitBuffer} {first : UInt8} {length : Nat}
    (holds : bits.Holds ((first :: Bytes.littleEndian 2 length ++
      Bytes.littleEndian 2 (storedLimit - length)) ++ rest)) (bound : length ≤ storedLimit) :
    bits.field 8 16 = length ∧ bits.field 24 16 = storedLimit - length := by
  have spelled (value : Nat) (small : value ≤ storedLimit) :
      Bytes.ofLittleEndian (Bytes.littleEndian 2 value) = value := by
    rw [Bytes.ofLittleEndian_littleEndian]
    exact Nat.mod_eq_of_lt (Nat.lt_of_le_of_lt small (by decide))
  constructor
  · exact (holds.field 1 2).trans (spelled length bound)
  · exact (holds.field 3 2).trans (spelled _ (Nat.sub_le _ _))

/-- With less than the five bytes that announce a block, a reader waits for the rest of them. -/
theorem stepsWell_waitingBlock (holds : inflater.bits.Holds held) (few : held.length ≤ 7)
    (fetched : inflater.bits.input = [] ∨ held.length = 7) (none : inflater.pending = .nothing)
    (phase : inflater.phase = .block)
    (ahead : Ahead .block inflater.isLast (held ++ (inflater.bits.input ++ future)) rest)
    (whole : inflater.output.toList ++ rest = contents) (isLast : Bool)
    (short : held.length < 5) :
    StepsWell limit future contents inflater (.waiting { inflater with isLast }) := by
  generalize stream : held ++ (inflater.bits.input ++ future) = bytes at ahead
  cases ahead with
  | block _ _ length =>
    obtain ⟨last, part, next, _, _, _, start, _⟩ := exists_block rest length
    refine @stepsWell_waiting { inflater with isLast } inflater _ _ _ _ _ holds few fetched none
      ?_ whole ⟨List.suffix_rfl, Nat.le_refl _, Nat.le_refl _, Nat.le_max_right _ _⟩ (by omega) ?_
    · rw [phase]
      exact stream ▸ .block isLast rest length
    · change held.length < (held ++ (inflater.bits.input ++ future)).length
      rw [stream, start, storedBytes]
      simp only [List.length_append, List.length_cons, Bytes.length_littleEndian]
      omega

private theorem stepsWell_readBlock (holds : inflater.bits.Holds held) (few : held.length ≤ 7)
    (fetched : inflater.bits.input = [] ∨ held.length = 7) (none : inflater.pending = .nothing)
    (phase : inflater.phase = .block)
    (ahead : Ahead .block inflater.isLast (held ++ (inflater.bits.input ++ future)) rest)
    (whole : inflater.output.toList ++ rest = contents) :
    StepsWell limit future contents inflater inflater.readBlock := by
  have count := holds.count
  have again (isLast : Bool) (short : held.length < 5) :
      StepsWell limit future contents inflater (.waiting { inflater with isLast }) :=
    stepsWell_waitingBlock holds few fetched none phase ahead whole isLast short
  unfold readBlock need
  split
  · exact again inflater.isLast (by omega)
  · rename_i enough
    generalize stream : held ++ (inflater.bits.input ++ future) = bytes at ahead
    cases ahead with
    | block _ _ length =>
      obtain ⟨last, part, next, left, split, bound, start, following⟩ := exists_block rest length
      rw [start] at stream
      have first : held.head? = some (if last then 1 else 0) := by
        rcases held with _ | ⟨byte, more⟩
        · simp only [List.length_nil] at count
          omega
        · exact congrArg some (List.cons.inj stream).1
      obtain ⟨kind, isLast⟩ := kind_of_holds holds first
      have aligned : 3 + (inflater.bits.count - 3) % 8 = 8 := by omega
      simp only [kind, aligned, isLast]
      split
      · exact again last (by omega)
      · have room : 5 ≤ held.length := by omega
        have aside : held ++ (inflater.bits.input ++ future) =
            ((if last then 1 else 0) :: Bytes.littleEndian 2 part.length ++
              Bytes.littleEndian 2 (storedLimit - part.length)) ++ (part ++ next) := by
          rw [stream, storedBytes, List.append_assoc]
        obtain ⟨more, rfl, tail⟩ := exists_rest_of_append_eq aside (by simpa using room)
        obtain ⟨size, inverse⟩ := lengths_of_holds holds bound
        have sound : part.length + (storedLimit - part.length) = 0xffff :=
          Nat.add_sub_cancel' bound
        have dropped := holds.drop 5
        have amount := inflater.bits.available_drop (show 8 + 32 ≤ inflater.bits.count by omega)
        simp only [size, inverse, sound, if_true]
        refine ⟨⟨more, rest, dropped, ?_, none, ?_, whole⟩,
          ⟨List.suffix_rfl, ?_, Nat.le_refl _, Nat.le_max_right _ _⟩, ?_⟩
        · rw [List.length_append] at few
          omega
        · change Ahead (.stored part.length) last (more ++ (inflater.bits.input ++ future)) rest
          rw [tail, split]
          exact .stored part following
        · simp only [enter]
          omega
        · simp only [weight, enter, phase, freeSteps, Bool.false_eq_true, ↓reduceIte]
          omega

private theorem stepsWell_skipChecksum (holds : inflater.bits.Holds held) (few : held.length ≤ 7)
    (fetched : inflater.bits.input = [] ∨ held.length = 7) (none : inflater.pending = .nothing)
    (phase : inflater.phase = .checksum)
    (ahead : Ahead .checksum inflater.isLast (held ++ (inflater.bits.input ++ future)) rest)
    (whole : inflater.output.toList ++ rest = contents) :
    StepsWell limit future contents inflater inflater.skipChecksum := by
  have count := holds.count
  have aligned : inflater.bits.count % 8 + 32 = 32 := by omega
  unfold skipChecksum need
  simp only [aligned]
  generalize stream : held ++ (inflater.bits.input ++ future) = bytes at ahead
  cases ahead with
  | checksum _ length =>
    have total : held.length + (inflater.bits.input ++ future).length = 4 := by
      rw [← List.length_append, stream, length]
    split
    · apply stepsWell_waiting holds few fetched none
        (by rw [stream, phase]; exact .checksum _ length) whole (.refl _ _) (by omega)
      rw [stream]
      omega
    · have all : inflater.bits.input ++ future = [] := List.length_eq_zero_iff.mp (by omega)
      have short : held.drop 4 = [] := List.drop_eq_nil_of_le (by omega)
      have left := holds.drop 4
      have amount := inflater.bits.available_drop (show 32 ≤ inflater.bits.count by omega)
      rw [short] at left
      refine ⟨⟨[], [], left, by simp, none, ?_, whole⟩,
        ⟨List.suffix_rfl, ?_, Nat.le_refl _, Nat.le_max_right _ _⟩, ?_⟩
      · change Ahead .done _ ([] ++ (inflater.bits.input ++ future)) []
        rw [all]
        exact .done _
      · simp only [enter]
        omega
      · simp only [weight, enter, phase, freeSteps, Bool.false_eq_true, ↓reduceIte]
        omega

private theorem afterBlock_eq (inflater : Inflater) :
    inflater.afterBlock = phaseAfter inflater.isLast := rfl

@[simp] theorem freeSteps_stored (left : Nat) : freeSteps (.stored left) = 1 := rfl

private theorem freeSteps_phaseAfter (isLast : Bool) : freeSteps (phaseAfter isLast) = 0 := by
  cases isLast <;> rfl

private theorem available_of_holds {bits : BitBuffer} (holds : bits.Holds held) :
    bits.available = 8 * (held ++ bits.input).length := by
  rw [BitBuffer.available, holds.count, List.length_append]
  omega

/-- The bytes taken for a stored block are its first ones: all, or as many as there is room for, or
as many as there are. -/
theorem exists_rest_of_takeBytes {bits after : BitBuffer} {part next taken : Bytes} {room : Nat}
    (holds : bits.Holds held) (stream : held ++ (bits.input ++ future) = part ++ next)
    (result : bits.takeBytes (min part.length room) = (taken, after)) :
    ∃ kept more, after.Holds kept ∧ kept.length ≤ held.length ∧ after.input <:+ bits.input ∧
      part = taken ++ more ∧ kept ++ (after.input ++ future) = more ++ next ∧
      bits.available = after.available + 8 * taken.length ∧ taken.length ≤ room ∧
      (more = [] ∨ taken.length = room ∨ kept ++ after.input = []) := by
  obtain ⟨kept, holdsKept, fewer, order, input, most, enough⟩ :=
    BitBuffer.takeBytes_of_holds holds result
  have cut : part ++ next = taken ++ (kept ++ (after.input ++ future)) := by
    rw [← stream, ← List.append_assoc held, order]
    simp only [List.append_assoc]
  obtain ⟨more, rfl, tail⟩ := exists_rest_of_append_eq cut (by omega)
  have amount : bits.available = after.available + 8 * taken.length := by
    rw [available_of_holds holds, available_of_holds holdsKept, order, List.length_append]
    omega
  rw [List.length_append] at most enough
  refine ⟨kept, more, holdsKept, fewer, input, rfl, tail.symm, amount, by omega, ?_⟩
  rcases enough with most | all
  · by_cases finished : more.length = 0
    · exact .inl (List.length_eq_zero_iff.mp finished)
    · exact .inr (.inl (by omega))
  · exact .inr (.inr all)

private theorem size_append_list (output : Array UInt8) (bytes : Bytes) :
    (output ++ bytes).size = output.size + bytes.length := by
  rw [← Array.length_toList, Array.toList_appendList, List.length_append, Array.length_toList]

private theorem progress_of_copy {after : BitBuffer} {taken : Bytes} (phase : Phase)
    (input : after.input <:+ inflater.bits.input)
    (amount : inflater.bits.available = after.available + 8 * taken.length)
    (room : taken.length ≤ limit - inflater.output.size) :
    Progress limit inflater
      { inflater with bits := after, phase, output := inflater.output ++ taken } where
  input := input
  amount := by
    change after.available + 8 * (inflater.output ++ taken).size ≤ _
    rw [size_append_list]
    omega
  grows := by
    rw [size_append_list]
    omega
  within := by
    rw [size_append_list]
    omega

private theorem stepsWell_copyStored (holds : inflater.bits.Holds held) (few : held.length ≤ 7)
    (pending : inflater.pending = .nothing) {left : Nat} (phase : inflater.phase = .stored left)
    (ahead : Ahead (.stored left) inflater.isLast (held ++ (inflater.bits.input ++ future)) rest)
    (whole : inflater.output.toList ++ rest = contents) :
    StepsWell limit future contents inflater (inflater.copyStored limit left) := by
  generalize stream : held ++ (inflater.bits.input ++ future) = bytes at ahead
  cases ahead with
  | @stored part _ next others following =>
    unfold copyStored
    generalize result : inflater.bits.takeBytes
      (min part.length (limit - inflater.output.size)) = split
    obtain ⟨taken, bits⟩ := split
    obtain ⟨kept, more, holds, fewer, input, rfl, tail, amount, room, why⟩ :=
      exists_rest_of_takeBytes holds stream result
    have left : (taken ++ more).length - taken.length = more.length := by
      rw [List.length_append, Nat.add_sub_cancel_left]
    have filled : (inflater.output ++ taken).toList ++ (more ++ others) = contents := by
      rw [← whole]
      simp
    simp only [left]
    by_cases finished : more = []
    · subst finished
      simp only [List.length_nil, if_true]
      refine ⟨⟨kept, others, holds, Nat.le_trans fewer few, pending, ?_, filled⟩,
        progress_of_copy _ input amount room, ?_⟩
      · change Ahead (phaseAfter _) _ (kept ++ (bits.input ++ future)) others
        rw [tail]
        exact following
      · simp only [weight, afterBlock_eq, freeSteps_phaseAfter, phase, freeSteps_stored]
        omega
    · have unfinished : more.length ≠ 0 := fun none => finished (List.length_eq_zero_iff.mp none)
      simp only [if_neg unfinished]
      refine ⟨⟨kept, more ++ others, holds, Nat.le_trans fewer few, pending, ?_, filled⟩,
        progress_of_copy _ input amount room, ?_⟩
      · change Ahead (.stored more.length) _ (kept ++ (bits.input ++ future)) (more ++ others)
        rw [tail]
        exact .stored more following
      · rcases why with none | full | all
        · exact absurd none finished
        · -- The room is used up, and the rest of the block is still to be written.
          have total : contents.length =
              inflater.output.size + taken.length + (more.length + others.length) := by
            rw [← filled, List.length_append, Array.length_toList, size_append_list,
              List.length_append]
          refine .inr (.inr ?_)
          rw [size_append_list]
          omega
        · obtain ⟨noKept, noInput⟩ := List.append_eq_nil_iff.mp all
          refine .inr (.inl ⟨noInput, ?_⟩)
          rintro rfl
          rw [noKept, noInput] at tail
          exact finished (List.append_eq_nil_iff.mp tail.symm).1

/-- Filling the buffer changes nothing but where the bytes are. -/
theorem Awaits.fill (awaits : inflater.Awaits future contents) :
    ∃ held rest, inflater.bits.fill.Holds held ∧ held.length ≤ 7 ∧
      (inflater.bits.fill.input = [] ∨ held.length = 7) ∧ inflater.pending = .nothing ∧
      inflater.bits.fill.input <:+ inflater.bits.input ∧
      Ahead inflater.phase inflater.isLast (held ++ (inflater.bits.fill.input ++ future)) rest ∧
      inflater.output.toList ++ rest = contents := by
  obtain ⟨held, rest, holds, few, none, ahead, whole⟩ := awaits
  obtain ⟨more, filled, bound, split, fetched⟩ := BitBuffer.holds_fill holds few
  refine ⟨held ++ more, rest, filled, bound, fetched, none, ⟨more, split.symm⟩, ?_, whole⟩
  rwa [split, List.append_assoc, ← List.append_assoc] at ahead

private theorem StepsWell.of_fill {step : Step} {buffer : BitBuffer}
    (available : buffer.available = inflater.bits.available)
    (input : buffer.input <:+ inflater.bits.input)
    (well : StepsWell limit future contents { inflater with bits := buffer } step) :
    StepsWell limit future contents inflater step := by
  have before : Progress limit inflater { inflater with bits := buffer } :=
    ⟨input, Nat.le_of_eq (congrArg (· + _) available), Nat.le_refl _, Nat.le_max_right _ _⟩
  cases step with
  | damaged => exact well
  | waiting after =>
    obtain ⟨awaits, progress, waits⟩ := well
    exact ⟨awaits, before.trans progress, waits⟩
  | moved after =>
    obtain ⟨awaits, progress, lighter⟩ := well
    refine ⟨awaits, before.trans progress, ?_⟩
    simpa only [weight, available] using lighter

/-- Every step keeps what lies ahead, and leads to a state with less to do or to one that waits. -/
theorem stepsWell_step (awaits : inflater.Awaits future contents) :
    StepsWell limit future contents inflater (inflater.step limit) := by
  obtain ⟨held, rest, holds, few, fetched, pending, input, ahead, whole⟩ := awaits.fill
  have available := BitBuffer.available_fill inflater.bits
  obtain ⟨bits, phase, isLast, due, output⟩ := inflater
  subst pending
  cases phase with
  | header =>
    exact .of_fill available input
      (stepsWell_readHeader holds few fetched rfl rfl ahead whole)
  | block =>
    exact .of_fill available input
      (stepsWell_readBlock holds few fetched rfl rfl ahead whole)
  | stored left =>
    obtain ⟨held, rest, holds, few, none, ahead, whole⟩ := awaits
    exact stepsWell_copyStored holds few none rfl ahead whole
  | checksum =>
    exact .of_fill available input
      (stepsWell_skipChecksum holds few fetched rfl rfl ahead whole)
  | done => exact ⟨awaits, .refl _ _, .inl rfl⟩
  | orderLengths _ _ _ | codeLengths _ _ _ _ | symbols _ _ => cases ahead

/-- With enough fuel a reader goes on until it has to wait. -/
theorem run_awaits {fuel : Nat} (awaits : inflater.Awaits future contents)
    (enough : inflater.weight < fuel) :
    ∃ after, inflater.run limit fuel = some after ∧ after.Awaits future contents ∧
      Progress limit inflater after ∧ after.Waits limit future contents := by
  induction fuel generalizing inflater with
  | zero => exact absurd enough (Nat.not_lt_zero _)
  | succ fuel ih =>
    have well : StepsWell limit future contents inflater (inflater.step limit) :=
      stepsWell_step awaits
    unfold run
    cases step : inflater.step limit with
    | damaged =>
      rw [step] at well
      exact well.elim
    | waiting after =>
      rw [step] at well
      exact ⟨after, rfl, well⟩
    | moved next =>
      rw [step] at well
      obtain ⟨awaits, progress, lighter⟩ := well
      obtain ⟨after, ran, awaits, later, waits⟩ :=
        ih awaits (Nat.lt_of_lt_of_le lighter (Nat.le_of_lt_succ enough))
      exact ⟨after, ran, awaits, progress.trans later, waits⟩

/-- A reader with other input at hand. -/
def withInput (inflater : Inflater) (input : Bytes) : Inflater :=
  { inflater with bits := { inflater.bits with input } }

theorem awaits_withInput_iff {piece : Bytes} :
    (inflater.withInput piece).Awaits future contents ↔
      (inflater.withInput []).Awaits (piece ++ future) contents := by
  constructor
  · rintro ⟨held, rest, holds, few, none, ahead, whole⟩
    exact ⟨held, rest, ⟨holds.value, holds.count⟩, few, none, ahead, whole⟩
  · rintro ⟨held, rest, holds, few, none, ahead, whole⟩
    exact ⟨held, rest, ⟨holds.value, holds.count⟩, few, none, ahead, whole⟩

/-- A piece is read until the reader has to wait. -/
theorem read_awaits {piece : Bytes} (room : Nat)
    (awaits : (inflater.withInput []).Awaits (piece ++ future) contents) :
    ∃ after, inflater.read piece room = some after ∧ after.Awaits future contents ∧
      Progress (inflater.output.size + room) (inflater.withInput piece) after ∧
      after.Waits (inflater.output.size + room) future contents := by
  have free : freeSteps inflater.phase ≤ 1 := by
    unfold freeSteps
    split
    · exact Nat.le_refl 1
    · exact Nat.zero_le 1
  have fuel : (inflater.withInput piece).weight <
      2 * (inflater.withInput piece).bits.available + 4 := by
    simp only [weight, withInput]
    omega
  exact run_awaits (awaits_withInput_iff.mpr awaits) fuel

theorem Awaits.of_done (awaits : inflater.Awaits future contents)
    (done : inflater.phase = .done) :
    inflater.bits.input = [] ∧ future = [] ∧ inflater.output.toList = contents := by
  obtain ⟨held, rest, _, _, _, ahead, whole⟩ := awaits
  rw [done] at ahead
  generalize stream : held ++ (inflater.bits.input ++ future) = bytes at ahead
  cases ahead
  simp only [List.append_eq_nil_iff] at stream
  exact ⟨stream.2.1, stream.2.2, by simpa using whole⟩

end Inflater
end TextureCache.Deflate
