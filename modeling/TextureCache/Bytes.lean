/-! Byte strings as lists: cutting and overwriting ranges, fixed-width words in both byte
orders, and hexadecimal text. The two word orders come with their reading counterparts. -/
namespace TextureCache

/-- The contents of a file, a payload or a pixel buffer. -/
abbrev Bytes := List UInt8

/-- The most bytes that a buffer can have, which is half of what addresses reach. -/
def bufferLimit : Nat := UInt64.size / 2 - 1

def total (sizes : List Nat) : Nat := sizes.foldr (· + ·) 0

namespace Bytes

/-- The bytes in `[offset, offset + size)`, fewer if the string ends before. -/
def slice (bytes : Bytes) (offset size : Nat) : Bytes := (bytes.drop offset).take size

/-- Replace the range that starts at `offset` by `part`; the length stays when the range fits. -/
def overwrite (bytes : Bytes) (offset : Nat) (part : Bytes) : Bytes :=
  bytes.take offset ++ part ++ bytes.drop (offset + part.length)

/-- The first `count` pieces of `size` bytes each. -/
def chunks (size : Nat) : (count : Nat) → Bytes → List Bytes
  | 0, _ => []
  | count + 1, bytes => bytes.take size :: chunks size count (bytes.drop size)

def zeros (size : Nat) : Bytes := List.replicate size 0

/-- The low `width` bytes of a number, least significant first. -/
def littleEndian : (width : Nat) → Nat → Bytes
  | 0, _ => []
  | width + 1, value => UInt8.ofNat (value % 256) :: littleEndian width (value / 256)

/-- The number that a byte string spells, least significant byte first. -/
def ofLittleEndian : Bytes → Nat
  | [] => 0
  | byte :: rest => byte.toNat + 256 * ofLittleEndian rest

/-- The low `width` bytes of a number, most significant first. -/
def bigEndian (width value : Nat) : Bytes := (littleEndian width value).reverse

/-- The number that a byte string spells, most significant byte first. -/
def ofBigEndian (bytes : Bytes) : Nat := bytes.foldl (fun value byte => value * 256 + byte.toNat) 0

/-- The code of a lowercase hexadecimal digit. -/
def hexDigit (digit : Nat) : Char := Char.ofNat (if digit < 10 then 48 + digit else 87 + digit)

/-- Two lowercase hexadecimal digits for every byte. -/
def hex (bytes : Bytes) : String :=
  String.ofList (bytes.flatMap fun byte => [hexDigit (byte.toNat / 16), hexDigit (byte.toNat % 16)])

def ofText (text : String) : Bytes := text.toUTF8.toList

@[simp] theorem length_zeros (size : Nat) : (zeros size).length = size := by simp [zeros]

@[simp] theorem length_littleEndian (width value : Nat) :
    (littleEndian width value).length = width := by
  induction width generalizing value with
  | zero => rfl
  | succ width ih => simp [littleEndian, ih]

@[simp] theorem length_bigEndian (width value : Nat) : (bigEndian width value).length = width := by
  simp [bigEndian]

theorem length_slice (bytes : Bytes) (offset size : Nat) :
    (bytes.slice offset size).length = min size (bytes.length - offset) := by
  simp [slice]

theorem length_overwrite {bytes : Bytes} {offset : Nat} {part : Bytes}
    (fits : offset + part.length ≤ bytes.length) :
    (bytes.overwrite offset part).length = bytes.length := by
  simp [overwrite]; omega

end Bytes
end TextureCache
