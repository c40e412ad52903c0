import TextureCache.Buffer
import TextureCache.Proofs.Patch

/-! A buffer that keeps only what is in it behaves like one that keeps all of its bytes. -/
namespace TextureCache

private theorem Bytes.take_zeros (count size : Nat) :
    (zeros size).take count = zeros (min count size) :=
  List.take_replicate

theorem Bytes.drop_zeros (count size : Nat) : (zeros size).drop count = zeros (size - count) :=
  List.drop_replicate

namespace Buffer

variable {buffer : Buffer} {offset size : Nat} {part : Bytes}

theorem slice?_of_le (inside : offset + size ≤ buffer.size) :
    buffer.slice? offset size = some (buffer.contents.slice offset size) := by
  have fits := buffer.fits
  rw [slice?, if_pos inside, Bytes.slice, contents, List.drop_append, List.take_append,
    List.take_append, Bytes.drop_zeros, Bytes.take_zeros, Bytes.take_zeros, List.length_drop]
  congr 3
  omega

private theorem contents_startWith (inside : offset + part.length ≤ buffer.size) :
    buffer.startWith offset part ++
        Bytes.zeros (buffer.size - (buffer.startWith offset part).length) =
      buffer.contents.overwrite offset part := by
  have fits := buffer.fits
  have front : (buffer.start ++ Bytes.zeros (offset - buffer.start.length)).take offset =
      buffer.contents.take offset := by
    rw [contents, List.take_append, List.take_append, Bytes.take_zeros, Bytes.take_zeros]
    congr 2
    omega
  have back : (buffer.start ++ Bytes.zeros (offset - buffer.start.length)).drop
      (offset + part.length) = buffer.start.drop (offset + part.length) := by
    rw [List.drop_append, Bytes.drop_zeros, Nat.sub_eq_zero_of_le (by omega)]
    exact List.append_nil _
  have length : (buffer.startWith offset part).length =
      offset + part.length + (buffer.start.length - (offset + part.length)) := by
    rw [startWith, Bytes.overwrite, front, back]
    simp only [List.length_append, List.length_take, List.length_drop, length_contents]
    omega
  rw [length, startWith, Bytes.overwrite, front, back, Bytes.overwrite, List.append_assoc,
    List.append_assoc, List.append_assoc, contents, List.drop_append, Bytes.drop_zeros]
  congr 4
  omega

theorem overwrite?_of_le (inside : offset + part.length ≤ buffer.size) :
    ∃ after, buffer.overwrite? offset part = some after ∧ after.size = buffer.size ∧
      after.contents = buffer.contents.overwrite offset part := by
  rw [overwrite?, dif_pos inside]
  exact ⟨_, rfl, rfl, contents_startWith inside⟩

theorem take_eq (buffer : Buffer) (count : Nat) :
    buffer.take count = buffer.contents.take count := by
  have fits := buffer.fits
  rw [take, contents, List.take_append, List.take_append, Bytes.take_zeros, Bytes.take_zeros]
  congr 2
  omega

end Buffer
end TextureCache
