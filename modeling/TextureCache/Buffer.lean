import TextureCache.Bytes

/-! A buffer that is made of zeros and filled in parts. The zeros behind the last part are not
kept, so that a large buffer takes no more room than what is in it. -/
namespace TextureCache

structure Buffer where
  size : Nat
  /-- What the buffer starts with; only zeros follow. -/
  start : Bytes
  fits : start.length ≤ size
  deriving DecidableEq, Repr

namespace Buffer

def zeros (size : Nat) : Buffer := ⟨size, [], Nat.zero_le size⟩

def contents (buffer : Buffer) : Bytes :=
  buffer.start ++ Bytes.zeros (buffer.size - buffer.start.length)

/-- The bytes in `[offset, offset + size)`, if the buffer reaches as far. -/
def slice? (buffer : Buffer) (offset size : Nat) : Option Bytes :=
  if offset + size ≤ buffer.size then
    some ((buffer.start.drop offset ++ Bytes.zeros size).take size)
  else none

/-- What the buffer starts with once a part is put into it. -/
def startWith (buffer : Buffer) (offset : Nat) (part : Bytes) : Bytes :=
  Bytes.overwrite (buffer.start ++ Bytes.zeros (offset - buffer.start.length)) offset part

private theorem length_startWith_le (buffer : Buffer) {offset : Nat} {part : Bytes}
    (inside : offset + part.length ≤ buffer.size) :
    (buffer.startWith offset part).length ≤ buffer.size := by
  have fits := buffer.fits
  simp only [startWith, Bytes.overwrite, List.length_append, List.length_take, List.length_drop,
    Bytes.length_zeros]
  omega

/-- Put a part into the buffer at an offset, if the buffer reaches as far as its end. -/
def overwrite? (buffer : Buffer) (offset : Nat) (part : Bytes) : Option Buffer :=
  if inside : offset + part.length ≤ buffer.size then
    some ⟨buffer.size, buffer.startWith offset part, buffer.length_startWith_le inside⟩
  else none

def take (buffer : Buffer) (count : Nat) : Bytes :=
  let padding := min count buffer.size - buffer.start.length
  (buffer.start ++ Bytes.zeros padding).take count

@[simp] theorem contents_zeros (size : Nat) : (zeros size).contents = Bytes.zeros size := rfl

@[simp] theorem length_contents (buffer : Buffer) : buffer.contents.length = buffer.size := by
  have fits := buffer.fits
  rw [contents, List.length_append, Bytes.length_zeros]
  omega

end Buffer
end TextureCache
