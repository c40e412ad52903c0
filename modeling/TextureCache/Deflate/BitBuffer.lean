import TextureCache.Texel.Packed

/-! Bits on their way from a piece of input to a reader. A stream comes in pieces, and a symbol that
the end of a piece cuts has to wait for the next one; so the reader looks at bits before it takes
them. -/
namespace TextureCache.Deflate

/-- The bits that were fetched but not taken, and the input that was not fetched. -/
structure BitBuffer where
  /-- The fetched bits, the next one lowest; all bits above them are zero. -/
  value : Nat
  /-- The number of fetched bits. -/
  count : Nat
  input : Bytes
  deriving DecidableEq, Repr

namespace BitBuffer

def empty : BitBuffer := ⟨0, 0, []⟩

/-- The number of bits that can still be taken. -/
def available (buffer : BitBuffer) : Nat := buffer.count + 8 * buffer.input.length

/-- Fetch bytes until there are 56 bits at least, as far as the input goes. -/
def fetch (value count : Nat) : (input : Bytes) → BitBuffer
  | [] => ⟨value, count, []⟩
  | byte :: rest =>
    if count < 56 then fetch (value + byte.toNat <<< count) (count + 8) rest
    else ⟨value, count, byte :: rest⟩

/-- Fetch as many bits as any symbol needs. -/
def fill (buffer : BitBuffer) : BitBuffer := fetch buffer.value buffer.count buffer.input

def field (buffer : BitBuffer) (position count : Nat) : Nat := bitField buffer.value position count

/-- Take the next bits. -/
def drop (buffer : BitBuffer) (count : Nat) : BitBuffer :=
  { buffer with value := buffer.value >>> count, count := buffer.count - count }

/-- Take up to `count` whole bytes, first those that were fetched. -/
def takeBytes (buffer : BitBuffer) (count : Nat) : Bytes × BitBuffer :=
  let held := min count (buffer.count / 8)
  let fetched := (List.range held).map fun index => UInt8.ofNat (buffer.field (8 * index) 8)
  let buffer := buffer.drop (8 * held)
  (fetched ++ buffer.input.take (count - held),
    { buffer with input := buffer.input.drop (count - held) })

private theorem available_fetch (value count : Nat) (input : Bytes) :
    (fetch value count input).available = count + 8 * input.length := by
  induction input generalizing value count with
  | nil => rfl
  | cons byte rest ih =>
    unfold fetch
    split
    · rw [ih]; simp only [List.length_cons]; omega
    · rfl

@[simp] theorem available_fill (buffer : BitBuffer) : buffer.fill.available = buffer.available :=
  available_fetch _ _ _

end BitBuffer
end TextureCache.Deflate
