import TextureCache.Deflate.BitBuffer
import TextureCache.Proofs.Patch

/-! Bits that are whole bytes. As long as a reader takes whole bytes only, what it has fetched is a
run of at most seven bytes, and looking at bits and taking them is looking at bytes and taking
them. -/
namespace TextureCache

namespace Bytes

private theorem ofLittleEndian_append (first second : Bytes) :
    ofLittleEndian (first ++ second) =
      ofLittleEndian first + 256 ^ first.length * ofLittleEndian second := by
  induction first with
  | nil => simp [ofLittleEndian]
  | cons byte rest ih =>
    simp only [List.cons_append, ofLittleEndian, ih, List.length_cons, Nat.pow_succ]
    rw [Nat.mul_add, Nat.mul_comm (256 ^ rest.length) 256, Nat.mul_assoc, Nat.add_assoc]

private theorem ofLittleEndian_lt (bytes : Bytes) : ofLittleEndian bytes < 256 ^ bytes.length := by
  induction bytes with
  | nil => exact Nat.one_pos
  | cons byte rest ih =>
    have low := byte.toNat_lt
    simp only [ofLittleEndian, List.length_cons, Nat.pow_succ]
    omega

private theorem ofLittleEndian_drop (bytes : Bytes) (count : Nat) :
    ofLittleEndian (bytes.drop count) = ofLittleEndian bytes / 256 ^ count := by
  rcases Nat.le_total count bytes.length with inside | beyond
  · have cut := ofLittleEndian_append (bytes.take count) (bytes.drop count)
    have low := ofLittleEndian_lt (bytes.take count)
    have length : (bytes.take count).length = count := by
      rw [List.length_take, Nat.min_eq_left inside]
    rw [List.take_append_drop] at cut
    rw [length] at cut low
    rw [cut, Nat.add_mul_div_left _ _ (Nat.pow_pos (by decide)), Nat.div_eq_of_lt low,
      Nat.zero_add]
  · have bound := Nat.lt_of_lt_of_le (ofLittleEndian_lt bytes)
      (Nat.pow_le_pow_right (by decide) beyond)
    rw [List.drop_eq_nil_of_le beyond, Nat.div_eq_of_lt bound]
    rfl

private theorem ofLittleEndian_take (bytes : Bytes) (count : Nat) :
    ofLittleEndian (bytes.take count) = ofLittleEndian bytes % 256 ^ count := by
  rcases Nat.le_total count bytes.length with inside | beyond
  · have cut := ofLittleEndian_append (bytes.take count) (bytes.drop count)
    have low := ofLittleEndian_lt (bytes.take count)
    have length : (bytes.take count).length = count := by
      rw [List.length_take, Nat.min_eq_left inside]
    rw [List.take_append_drop] at cut
    rw [length] at cut low
    rw [cut, Nat.add_mul_mod_self_left, Nat.mod_eq_of_lt low]
  · have bound := Nat.lt_of_lt_of_le (ofLittleEndian_lt bytes)
      (Nat.pow_le_pow_right (by decide) beyond)
    rw [List.take_of_length_le beyond, Nat.mod_eq_of_lt bound]

private theorem ofLittleEndian_singleton (byte : UInt8) : ofLittleEndian [byte] = byte.toNat := by
  simp [ofLittleEndian]

end Bytes

namespace Deflate.BitBuffer

/-- The fetched bits are those of some bytes. -/
structure Holds (buffer : BitBuffer) (held : Bytes) : Prop where
  value : buffer.value = Bytes.ofLittleEndian held
  count : buffer.count = 8 * held.length

variable {buffer : BitBuffer} {held : Bytes}

private theorem pow_eight_mul (count : Nat) : 2 ^ (8 * count) = 256 ^ count := Nat.pow_mul 2 8 count

theorem holds_empty : empty.Holds [] := ⟨rfl, rfl⟩

theorem Holds.field (holds : buffer.Holds held) (position count : Nat) :
    buffer.field (8 * position) (8 * count) =
      Bytes.ofLittleEndian ((held.drop position).take count) := by
  rw [BitBuffer.field, bitField, holds.value, Nat.shiftRight_eq_div_pow, Nat.one_shiftLeft,
    pow_eight_mul, pow_eight_mul, Bytes.ofLittleEndian_take, Bytes.ofLittleEndian_drop]

theorem Holds.drop (holds : buffer.Holds held) (count : Nat) :
    (buffer.drop (8 * count)).Holds (held.drop count) := by
  constructor
  · rw [BitBuffer.drop, holds.value, Nat.shiftRight_eq_div_pow, pow_eight_mul,
      Bytes.ofLittleEndian_drop]
  · rw [BitBuffer.drop, holds.count, List.length_drop, Nat.mul_sub]

@[simp] theorem input_drop (buffer : BitBuffer) (count : Nat) :
    (buffer.drop count).input = buffer.input := rfl

theorem available_drop (buffer : BitBuffer) {count : Nat} (held : count ≤ buffer.count) :
    (buffer.drop count).available + count = buffer.available := by
  simp only [available, BitBuffer.drop]
  omega

private theorem holds_fetch {value count : Nat} (input : Bytes)
    (holds : (⟨value, count, input⟩ : BitBuffer).Holds held) (few : held.length ≤ 7) :
    ∃ more, (fetch value count input).Holds (held ++ more) ∧ (held ++ more).length ≤ 7 ∧
      input = more ++ (fetch value count input).input ∧
      ((fetch value count input).input = [] ∨ (held ++ more).length = 7) := by
  induction input generalizing value count held with
  | nil => exact ⟨[], by simpa [fetch] using holds, by simpa using few, rfl, .inl rfl⟩
  | cons byte rest ih =>
    have bits : count = 8 * held.length := holds.count
    have number : value = Bytes.ofLittleEndian held := holds.value
    unfold fetch
    split
    · rename_i short
      have shifted : byte.toNat <<< count = 256 ^ held.length * byte.toNat := by
        rw [Nat.shiftLeft_eq, bits, pow_eight_mul, Nat.mul_comm]
      have next : (⟨value + byte.toNat <<< count, count + 8, rest⟩ : BitBuffer).Holds
          (held ++ [byte]) := by
        constructor
        · rw [Bytes.ofLittleEndian_append, Bytes.ofLittleEndian_singleton, ← shifted, ← number]
        · simp only [List.length_append, List.length_cons, List.length_nil]
          omega
      obtain ⟨more, fetched, bound, split, stopped⟩ :=
        ih next (by simp only [List.length_append, List.length_cons, List.length_nil]; omega)
      rw [List.append_assoc] at fetched bound stopped
      exact ⟨byte :: more, fetched, bound, congrArg (byte :: ·) split, stopped⟩
    · have full : held.length = 7 := by omega
      rw [← List.append_nil held] at holds
      exact ⟨[], ⟨holds.value, holds.count⟩, by simp [full], rfl, .inr (by simp [full])⟩

theorem holds_fill (holds : buffer.Holds held) (few : held.length ≤ 7) :
    ∃ more, buffer.fill.Holds (held ++ more) ∧ (held ++ more).length ≤ 7 ∧
      buffer.input = more ++ buffer.fill.input ∧
      (buffer.fill.input = [] ∨ (held ++ more).length = 7) :=
  holds_fetch buffer.input ⟨holds.value, holds.count⟩ few

/-- Whole bytes are taken in their order, as many as asked for unless all are taken. -/
theorem takeBytes_of_holds (holds : buffer.Holds held) {count : Nat} {taken : Bytes}
    {after : BitBuffer} (result : buffer.takeBytes count = (taken, after)) :
    ∃ kept, after.Holds kept ∧ kept.length ≤ held.length ∧
      held ++ buffer.input = taken ++ (kept ++ after.input) ∧ after.input <:+ buffer.input ∧
      taken.length ≤ count ∧ (taken.length = count ∨ kept ++ after.input = []) := by
  have whole : buffer.count / 8 = held.length := by
    rw [holds.count, Nat.mul_div_cancel_left _ (by decide)]
  have fetched : (List.range (min count held.length)).map
      (fun index => UInt8.ofNat (buffer.field (8 * index) 8)) = held.take count := by
    apply List.ext_getElem
    · simp
    · intro index first second
      have inside : index < held.length := by
        rw [List.length_take] at second
        omega
      have byte := holds.field index 1
      rw [List.drop_eq_getElem_cons inside, List.take_succ_cons, List.take_zero,
        Bytes.ofLittleEndian_singleton] at byte
      simp only [List.getElem_map, List.getElem_range, List.getElem_take]
      rw [byte, UInt8.ofNat_toNat]
  have dropped := holds.drop (min count held.length)
  have kept : held.drop (min count held.length) = held.drop count := by
    rcases Nat.le_total count held.length with inside | beyond
    · rw [Nat.min_eq_left inside]
    · rw [Nat.min_eq_right beyond, List.drop_length, List.drop_eq_nil_of_le beyond]
  have others : count - min count held.length = count - held.length := by omega
  unfold takeBytes at result
  simp only [whole, fetched, others, input_drop, ← List.take_append, Prod.mk.injEq] at result
  obtain ⟨rfl, rfl⟩ := result
  rw [kept] at dropped
  refine ⟨held.drop count, ⟨dropped.value, dropped.count⟩, by simp, ?_, List.drop_suffix _ _,
    List.length_take_le _ _, ?_⟩
  · change _ = _ ++ (held.drop count ++ buffer.input.drop (count - held.length))
    rw [← List.drop_append, List.take_append_drop]
  · change _ ∨ held.drop count ++ buffer.input.drop (count - held.length) = []
    rw [← List.drop_append, List.length_take]
    rcases Nat.le_total count (held ++ buffer.input).length with inside | beyond
    · exact .inl (Nat.min_eq_left inside)
    · exact .inr (List.drop_eq_nil_of_le beyond)

end Deflate.BitBuffer
end TextureCache
