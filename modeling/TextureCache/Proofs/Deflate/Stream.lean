import TextureCache.Deflate.Stream
import TextureCache.Proofs.Deflate.Stored

/-! Feeding a stream of stored blocks piece by piece to a reader with a window. Every piece that is
not empty gets the reader on, and when all pieces were fed the reader can finish without a fault. -/
namespace TextureCache.Deflate

private theorem length_le_storedBlocks (more : Nat) (contents : Bytes) :
    contents.length ≤ (storedBlocks more contents).length := by
  induction more generalizing contents with
  | zero =>
    rw [storedBlocks, storedBytes, List.length_append]
    exact Nat.le_add_left _ _
  | succ more ih =>
    have rest := ih (contents.drop storedLimit)
    rw [List.length_drop] at rest
    rw [storedBlocks, storedBytes, List.length_append, List.length_append, List.length_take]
    omega

theorem Ahead.length_le {phase : Phase} {isLast : Bool} {bytes contents : Bytes}
    (ahead : Ahead phase isLast bytes contents) : contents.length ≤ bytes.length := by
  induction ahead with
  | header _ contents _ | block _ contents _ =>
    have blocks := length_le_storedBlocks (contents.length / storedLimit) contents
    simp only [List.length_cons, List.length_append, Deflate.blocks]
    omega
  | stored part _ ih =>
    rw [List.length_append, List.length_append]
    omega
  | checksum _ _ => exact Nat.zero_le _
  | done _ => exact Nat.le_refl _

namespace Window

@[simp] theorem used_grow (window : Window) : window.grow.used = window.used := rfl

private theorem expected_grow {window : Window} {total : Nat}
    (member : total ∈ window.grow.expected) :
    total ∈ window.expected := (Option.mem_filter_iff.mp member).1

private theorem le_clip {window : Window} {bound size : Nat} (below : bound ≤ size)
    (expected : ∀ total ∈ window.expected, bound ≤ total) : bound ≤ window.clip size := by
  unfold clip
  cases known : window.expected with
  | none => exact below
  | some total => exact Nat.le_min.mpr ⟨below, expected total known⟩

private theorem used_add_le (window : Window) (count : Nat) :
    (window.add count).used ≤ window.used + count := by
  unfold add
  dsimp only
  split
  · unfold unit at *
    omega
  · exact Nat.le_refl _

private theorem room_le_size_grow {window : Window} {room : Nat} (valid : window.used ≤ window.size)
    (small : room ≤ unit) (expected : ∀ total ∈ window.expected, window.used + room ≤ total) :
    window.used + room ≤ window.grow.size := by
  have kept : ∀ total ∈ window.expected.filter (window.used < ·), window.used + room ≤ total :=
    fun total member => expected total (Option.mem_filter_iff.mp member).1
  unfold grow
  dsimp only
  split
  · rename_i fits
    exact Nat.le_trans (le_clip (by omega) kept) fits
  · exact le_clip (by omega) kept

end Window

namespace Stream

/-- The bytes to come are the rest of a stream of stored blocks with some contents. -/
structure Awaits (stream : Stream) (future contents : Bytes) : Prop where
  inflater : (stream.inflater.withInput []).Awaits future contents
  valid : stream.window.used ≤ stream.window.size
  behind : stream.window.used ≤ stream.output.size
  expected : ∀ total ∈ stream.window.expected, contents.length ≤ total

variable {stream : Stream} {piece future contents : Bytes}

theorem awaits_start {expected : Option Nat} (contents : Bytes)
    (enough : ∀ total ∈ expected, contents.length ≤ total) :
    (start expected).Awaits (store contents) contents where
  inflater := ⟨[], contents, BitBuffer.holds_empty, Nat.zero_le _, rfl, ahead_store contents,
    rfl⟩
  valid := Nat.le_refl _
  behind := Nat.le_refl _
  expected := enough

/-- The output that fits into the grown window. -/
def limit (stream : Stream) : Nat :=
  stream.output.size + (stream.window.grow.size - stream.window.used)

/-- The outcome of decompressing a piece, of which `count` bytes were taken. -/
structure Advanced (piece future contents : Bytes) (before after : Stream) (count : Nat) : Prop
    where
  taken : count ≤ piece.length
  awaits : after.Awaits (piece.drop count ++ future) contents
  amount : after.inflater.bits.count + 8 * after.output.size ≤
    before.inflater.bits.count + 8 * (count + before.output.size)
  grows : before.output.size ≤ after.output.size

private theorem advance_awaits (awaits : stream.Awaits (piece ++ future) contents) :
    ∃ after count, stream.advance piece = some after ∧
      after.inflater.bits.input = piece.drop count ∧
      Advanced piece future contents stream after count ∧
      after.inflater.Waits stream.limit future contents := by
  obtain ⟨inflater, ran, left, progress, waits⟩ :=
    Inflater.read_awaits (stream.window.grow.size - stream.window.used) awaits.inflater
  have room := Window.used_lt_size_grow awaits.valid
  obtain ⟨taken, split⟩ := progress.input
  have split : taken ++ inflater.bits.input = piece := split
  have rest : inflater.bits.input = piece.drop taken.length := by
    rw [← split, List.drop_left]
  have length : piece.length = taken.length + inflater.bits.input.length := by
    rw [← split, List.length_append]
  have amount : inflater.bits.count + 8 * inflater.bits.input.length + 8 * inflater.output.size ≤
      stream.inflater.bits.count + 8 * piece.length + 8 * stream.output.size := progress.amount
  have grows : stream.output.size ≤ inflater.output.size := progress.grows
  have within : inflater.output.size ≤ max stream.limit stream.output.size := progress.within
  have behind := awaits.behind
  have valid := awaits.valid
  have used := stream.window.grow.used_add_le (inflater.output.size - stream.output.size)
  rw [Window.used_grow] at used
  unfold limit at within
  refine ⟨⟨inflater, stream.window.grow.add (inflater.output.size - stream.output.size)⟩,
    taken.length, ?_, rest, ⟨by omega, ⟨?_, ?_, ?_, ?_⟩, ?_, grows⟩, waits⟩
  · unfold advance
    exact congrArg (Option.map _) ran
  · rw [← rest]
    exact Inflater.awaits_withInput_iff.mp left
  · change (stream.window.grow.add _).used ≤ stream.window.grow.size
    omega
  · change (stream.window.grow.add _).used ≤ inflater.output.size
    omega
  · intro total member
    exact awaits.expected total (Window.expected_grow member)
  · change inflater.bits.count + 8 * inflater.output.size ≤ _
    omega

private theorem isDone_iff : stream.isDone = true ↔ stream.inflater.phase = .done := by
  unfold isDone
  cases stream.inflater.phase <;> simp

/-- A piece is taken at least in part, or bytes at hand are written; whether more is taken depends
on the room. -/
theorem feed_awaits (awaits : stream.Awaits (piece ++ future) contents) :
    ∃ after count, stream.feed piece = some (after, count) ∧
      Advanced piece future contents stream after count ∧
      (piece ≠ [] → 0 < count ∨ stream.output.size < after.output.size) := by
  unfold feed
  by_cases done : stream.isDone = true
  · obtain ⟨_, nothing, _⟩ := awaits.inflater.of_done (isDone_iff.mp done)
    obtain ⟨rfl, rfl⟩ := List.append_eq_nil_iff.mp nothing
    rw [if_pos done]
    exact ⟨stream, 0, rfl, ⟨Nat.le_refl _, awaits, by omega, Nat.le_refl _⟩, fun some =>
      absurd rfl some⟩
  · obtain ⟨after, count, advanced, input, progress, waits⟩ := advance_awaits awaits
    have room := Window.used_lt_size_grow awaits.valid
    have taken := progress.taken
    rw [if_neg done, advanced]
    refine ⟨after, count, ?_, progress, ?_⟩
    · simp only [Option.map_some, input, List.length_drop]
      rw [Nat.sub_sub_self taken]
    · intro some
      have positive : 0 < piece.length := List.length_pos_iff.mpr some
      rcases waits with finished | ⟨empty, _⟩ | ⟨full, _⟩
      · obtain ⟨_, nothing, _⟩ := progress.awaits.inflater.of_done finished
        have all := List.drop_eq_nil_iff.mp (List.append_eq_nil_iff.mp nothing).1
        exact .inl (by omega)
      · rw [input, List.drop_eq_nil_iff] at empty
        exact .inl (by omega)
      · have more : stream.limit ≤ after.output.size := full
        unfold limit at more
        exact .inr (by omega)

/-- When nothing is to come any more, the contents can be read to their end. -/
theorem finish_awaits (awaits : stream.Awaits [] contents) :
    ∃ after, stream.finish = some after ∧ after.output.toList = contents := by
  unfold finish finishWithin
  by_cases done : stream.isDone = true
  · rw [if_pos done]
    exact ⟨stream, rfl, (awaits.inflater.of_done (isDone_iff.mp done)).2.2⟩
  · obtain ⟨after, count, advanced, input, progress, waits⟩ :=
      @advance_awaits stream [] [] contents awaits
    have few : stream.output.size ≤ contents.length ∧
        contents.length ≤ stream.output.size + 7 := by
      obtain ⟨held, rest, _, few, _, ahead, whole⟩ := awaits.inflater
      have bound := ahead.length_le
      have total := congrArg List.length whole
      simp only [Inflater.withInput, List.append_nil] at bound
      rw [List.length_append] at total
      change stream.output.size + _ = _ at total
      omega
    -- So little is left that the first round has room for all of it.
    have room : contents.length ≤ stream.limit := by
      have behind := awaits.behind
      have small : contents.length - stream.output.size ≤ Window.unit := by
        unfold Window.unit
        omega
      have grown := Window.room_le_size_grow awaits.valid small fun total member => by
        have enough := awaits.expected total member
        omega
      unfold limit
      omega
    have finished : after.inflater.phase = .done := by
      rcases waits with finished | ⟨_, more⟩ | ⟨full, less⟩
      · exact finished
      · exact absurd rfl more
      · omega
    have isDone := isDone_iff.mpr finished
    have whole := (progress.awaits.inflater.of_done finished).2.2
    rw [if_neg done]
    simp only [advanced, isDone, true_or, if_true, finishWithin]
    exact ⟨after, rfl, whole⟩

end Stream
end TextureCache.Deflate
